import WifiMemfault.FailedAttempts
import WifiMemfault.MqttEchoCounters
import WifiMemfault.Lib.Accounts

/-!
# What the echo counters count

`mqtt_echo_total` counts the echoes and the attempts recorded without a network or at the end of a
connection.  `mqtt_echo_failures` counts the echoes with another value, the recorded attempts, and three kinds
of events that are no test: a rejected subscription, a publish the helper does not take, and an echo timeout.
The thread, the callbacks, the listener and the clock take their steps in any order.

The counters are unbounded here.  The `uint32_t` of the client are these numbers modulo `2^32`.
-/

namespace WifiMemfault.MqttAccounts

open MqttClient MqttThread
open MqttListener (ListenedMqtt ListenedEvent stepListened isNotification)
open MqttEchoCounters (EchoCounters echoes echoes_eq mqttHelperPublished_echoes)
open FailedAttempts (mqttCharges mqttRecordsAttempt)

/-! ### The columns -/

/-- An echo has come. -/
def echoed (_ : ListenedMqtt) : ListenedEvent → Bool
  | .client ⟨.onMqttPublish _, _⟩ => true
  | _ => false

/-- An echo has come with another value than that of the last message taken. -/
def mismatched (s : ListenedMqtt) : ListenedEvent → Bool
  | .client ⟨.onMqttPublish payload, _⟩ =>
    s.client.vars.lastPublishedCount ≠ 0 ∧
      strtoul (payload.take (numBufSize - 1)) ≠ s.client.vars.lastPublishedCount
  | _ => false

/-- The broker has rejected the subscription. -/
def rejected (_ : ListenedMqtt) : ListenedEvent → Bool
  | .client ⟨.onMqttSuback _ result, _⟩ => result ≠ 0
  | _ => false

/-- `mqtt_helper_publish` has failed. -/
def notTaken (s : ListenedMqtt) : ListenedEvent → Bool
  | .client ⟨.thread i, _⟩ => s.client.pc = .helperPublish ∧ i.helperErr ≠ 0
  | _ => false

/-- `mqtt_helper_publish` has taken a message at which the echo timeout is due. -/
def timedOut (s : ListenedMqtt) : ListenedEvent → Bool
  | .client ⟨.thread i, _⟩ =>
    s.client.pc = .helperPublish ∧ i.helperErr = 0 ∧ s.client.vars.echoTimeout = true
  | _ => false

def testColumns : List (ListenedMqtt → ListenedEvent → Bool) := [echoed, mqttCharges]

def failureColumns : List (ListenedMqtt → ListenedEvent → Bool) :=
  [mismatched, mqttCharges, rejected, notTaken, timedOut]

/-! ### One step -/

/-- The two metrics say what the counters say. -/
def Reported (c : EchoCounters) : Prop := c.totalMetric = c.total ∧ c.failMetric = c.failures

/-- `c'` has counted `tests` and `failures` more than `c`. -/
structure Counted (c c' : EchoCounters) (tests failures : ℕ) : Prop where
  tests_eq : c'.total = c.total + tests
  failures_eq : c'.failures = c.failures + failures
  reported : Reported c → Reported c'

theorem counted_same {c c' : EchoCounters} (h : c' = c) : Counted c c' 0 0 := by
  rw [h]
  exact ⟨rfl, rfl, id⟩

theorem counted_failure (c : EchoCounters) : Counted c c.failure 0 1 := ⟨rfl, rfl, fun h => ⟨h.1, rfl⟩⟩

/-- What one event adds to the counters. -/
def CountsEvent (s : ListenedMqtt) (e : ListenedEvent) (s' : ListenedMqtt) : Prop :=
  Counted (echoes s.client.vars) (echoes s'.client.vars) (Runs.adds testColumns s e)
    (Runs.adds failureColumns s e)

variable {cfg : MqttConfig} {s : ListenedMqtt}

/-- An event that leaves the counters alone. -/
theorem countsEvent_none {e : ListenedEvent} {s' : ListenedMqtt} (htests : Runs.adds testColumns s e = 0)
    (hfailures : Runs.adds failureColumns s e = 0)
    (h : echoes s'.client.vars = echoes s.client.vars) : CountsEvent s e s' := by
  rw [CountsEvent, htests, hfailures]
  exact counted_same h

theorem countsEvent_echo (payload : List UInt8) (h : isNotification (.onMqttPublish payload) = false) :
    CountsEvent s (.client ⟨.onMqttPublish payload, h⟩)
      (stepListened cfg s (.client ⟨.onMqttPublish payload, h⟩)) := by
  have htests : Runs.adds testColumns s (.client ⟨.onMqttPublish payload, h⟩) = 1 := rfl
  have hfailures : Runs.adds failureColumns s (.client ⟨.onMqttPublish payload, h⟩)
      = (mismatched s (.client ⟨.onMqttPublish payload, h⟩)).toNat := rfl
  rw [CountsEvent, htests, hfailures]
  simp only [mismatched, stepListened, stepMqtt, MqttVars.onMqttPublish]
  split
  · rename_i hvalue
    have hmismatched : s.client.vars.lastPublishedCount ≠ 0 ∧
        strtoul (payload.take (numBufSize - 1)) ≠ s.client.vars.lastPublishedCount := hvalue
    rw [decide_eq_true hmismatched]
    exact ⟨rfl, rfl, fun _ => ⟨rfl, rfl⟩⟩
  · rename_i hvalue
    have hmatched : ¬ (s.client.vars.lastPublishedCount ≠ 0 ∧
        strtoul (payload.take (numBufSize - 1)) ≠ s.client.vars.lastPublishedCount) := hvalue
    rw [decide_eq_false hmatched]
    exact ⟨rfl, rfl, fun hreported => ⟨rfl, hreported.2⟩⟩

theorem countsEvent_suback (messageId : ℕ) (result : ℤ)
    (h : isNotification (.onMqttSuback messageId result) = false) :
    CountsEvent s (.client ⟨.onMqttSuback messageId result, h⟩)
      (stepListened cfg s (.client ⟨.onMqttSuback messageId result, h⟩)) := by
  by_cases hresult : result = 0
  · subst hresult
    exact countsEvent_none rfl rfl rfl
  · have hfailures : Runs.adds failureColumns s (.client ⟨.onMqttSuback messageId result, h⟩) = 1 := by
      simp [Runs.adds, failureColumns, mismatched, mqttCharges, rejected, notTaken, timedOut, hresult]
    rw [CountsEvent, hfailures]
    simp only [stepListened, stepMqtt, MqttVars.onMqttSuback, if_neg hresult]
    exact counted_failure _

/-! The thread -/

theorem adds_thread (i : ThreadInput) (h : isNotification (.thread i) = false) :
    Runs.adds testColumns s (.client ⟨.thread i, h⟩) = (mqttRecordsAttempt s.client).toNat ∧
      Runs.adds failureColumns s (.client ⟨.thread i, h⟩)
        = (mqttRecordsAttempt s.client).toNat + (notTaken s (.client ⟨.thread i, h⟩)).toNat
          + (timedOut s (.client ⟨.thread i, h⟩)).toNat := by
  constructor
  · simp [Runs.adds, testColumns, echoed, mqttCharges]
  · simp [Runs.adds, failureColumns, mismatched, mqttCharges, rejected, Nat.add_assoc]

/-- The thread after `mqtt_helper_publish`. -/
theorem countsEvent_published (i : ThreadInput) (h : isNotification (.thread i) = false)
    (hpc : s.client.pc = .helperPublish) :
    CountsEvent s (.client ⟨.thread i, h⟩) (stepListened cfg s (.client ⟨.thread i, h⟩)) := by
  have hrecords : mqttRecordsAttempt s.client = false := by simp [mqttRecordsAttempt, hpc]
  have hvars : (stepListened cfg s (.client ⟨.thread i, h⟩)).client.vars
      = s.client.vars.mqttHelperPublished i.helperErr := by
    simp only [stepListened, stepMqtt, MqttSystem.threadStep, hpc]
  obtain ⟨htests, hfailures⟩ := adds_thread (s := s) i h
  rw [CountsEvent, htests, hfailures, hrecords, hvars, mqttHelperPublished_echoes]
  by_cases herr : i.helperErr = 0
  · cases htimeout : s.client.vars.echoTimeout with
    | true => simpa [notTaken, timedOut, hpc, herr, htimeout] using counted_failure _
    | false => simpa [notTaken, timedOut, hpc, herr, htimeout] using counted_same rfl
  · simpa [notTaken, timedOut, hpc, herr] using counted_failure _

/-- The thread where it records no attempt. -/
theorem threadStep_echoes (cfg : MqttConfig) (s : MqttSystem) (i : ThreadInput) (hpc : s.pc ≠ .helperPublish)
    (hrecords : mqttRecordsAttempt s = false) : echoes (s.threadStep cfg i).vars = echoes s.vars := by
  have hseen : s.pc = .mainExit ∨ (s.pc = .networkTest ∧ s.vars.networkReady = false) →
      s.recordIfSeen = s.vars := by
    intro hrec
    rw [mqttRecordsAttempt, decide_eq_false_iff_not] at hrecords
    rw [MqttSystem.recordIfSeen, if_neg]
    exact fun hseen => hrecords ⟨hseen, hrec.symm⟩
  by_cases hnetwork : s.pc = .networkTest
  · simp only [MqttSystem.threadStep, hnetwork]
    split
    · rfl
    · rename_i hdown
      rw [hseen (Or.inr ⟨hnetwork, Bool.not_eq_true _ ▸ hdown⟩)]
      rfl
  by_cases hexit : s.pc = .mainExit
  · simp only [MqttSystem.threadStep, hexit]
    rw [hseen (Or.inl hexit)]
    rfl
  have hmoves := threadStep_moves cfg s i
  generalize s.threadStep cfg i = s' at hmoves ⊢
  cases hmoves with
  | goesOn pc hs _ => rfl
  | takesSem pc timeout hs _ => rfl
  | records pc hs _ =>
    rcases hs with hs | hs
    · exact absurd hs hnetwork
    · exact absurd hs hexit
  | doesConnect pc retryCount hs _ => exact echoes_eq (mqttDoConnect_counters cfg s.vars i.hwIdErr i.clientId)
  | connected pc retryCount hs _ => exact echoes_eq (mqttHelperConnected_counters s.vars i.helperErr)
  | handsOver hs hnone =>
    show echoes s.vars.mqttPublishMessage.2 = echoes s.vars
    rw [mqttPublishMessage_handed hnone]
    rfl
  | published wake hs => exact absurd hs hpc

theorem countsEvent_thread (i : ThreadInput) (h : isNotification (.thread i) = false) :
    CountsEvent s (.client ⟨.thread i, h⟩) (stepListened cfg s (.client ⟨.thread i, h⟩)) := by
  by_cases hpc : s.client.pc = .helperPublish
  · exact countsEvent_published i h hpc
  · obtain ⟨htests, hfailures⟩ := adds_thread (s := s) i h
    have hnotTaken : notTaken s (.client ⟨.thread i, h⟩) = false := by simp [notTaken, hpc]
    have htimedOut : timedOut s (.client ⟨.thread i, h⟩) = false := by simp [timedOut, hpc]
    rw [CountsEvent, htests, hfailures, hnotTaken, htimedOut]
    cases hrecords : mqttRecordsAttempt s.client with
    | false => exact counted_same (threadStep_echoes cfg s.client i hpc hrecords)
    | true =>
      have hcharges : mqttCharges s (.client ⟨.thread i, h⟩) = true := hrecords
      rw [FailedAttempts.mqtt_charge_records hcharges]
      exact ⟨rfl, rfl, fun _ => ⟨rfl, rfl⟩⟩

theorem countsEvent_step (cfg : MqttConfig) (s : ListenedMqtt) (e : ListenedEvent) :
    CountsEvent s e (stepListened cfg s e) := by
  cases e with
  | client e =>
    obtain ⟨e, h⟩ := e
    cases e with
    | elapse ms => exact countsEvent_none rfl rfl rfl
    | thread i => exact countsEvent_thread i h
    | notifyConnected => cases h
    | notifyDisconnected => cases h
    | onMqttConnack returnCode =>
      exact countsEvent_none rfl rfl (echoes_eq (onMqttConnack_counters s.client.vars returnCode))
    | onMqttDisconnect result => exact countsEvent_none rfl rfl rfl
    | onMqttPublish payload => exact countsEvent_echo payload h
    | onMqttSuback messageId result => exact countsEvent_suback messageId result h
  | wifiMsg type =>
    refine countsEvent_none rfl rfl ?_
    simp only [stepListened]
    split
    · cases type with
      | wifiStaConnected =>
        simp only [ListenedMqtt.wifiListener]
        split
        · rfl
        · rfl
      | wifiStaDisconnected => rfl
      | other => rfl
    · rfl
  | listener =>
    refine countsEvent_none rfl rfl ?_
    simp only [stepListened, ListenedMqtt.listenerStep]
    cases s.listener with
    | _ => rfl

/-! ### Every run -/

def ReportedAt (s : ListenedMqtt) : Prop := Reported (echoes s.client.vars)

theorem reported_run (cfg : MqttConfig) (es : List ListenedEvent) :
    ReportedAt (Runs.run (stepListened cfg) ListenedMqtt.boot es) :=
  Runs.run_invariant_always (fun s e => (countsEvent_step cfg s e).reported) es _ ⟨rfl, rfl⟩

/-- **The echo counters are exact.**  At any moment of any run `mqtt_echo_total` is the number of echoes and
of recorded attempts, and `mqtt_echo_failures` the number of echoes with another value, recorded attempts,
rejected subscriptions, messages not taken and echo timeouts; the two metrics report just these numbers. -/
theorem echo_counters_exact (cfg : MqttConfig) (es : List ListenedEvent) :
    let v := (Runs.run (stepListened cfg) ListenedMqtt.boot es).client.vars
    let counted := fun column => Runs.countSteps (stepListened cfg) column ListenedMqtt.boot es
    v.mqttEchoTotal = counted echoed + counted mqttCharges ∧
      v.mqttEchoFailures = counted mismatched + counted mqttCharges + counted rejected + counted notTaken
        + counted timedOut ∧
      v.echoTotalMetric = v.mqttEchoTotal ∧ v.echoFailMetric = v.mqttEchoFailures := by
  intro v counted
  have hreported : Reported (echoes v) := reported_run cfg es
  have htotal := Runs.run_account (fun s : ListenedMqtt => s.client.vars.mqttEchoTotal)
    (fun s e => (countsEvent_step cfg s e).tests_eq) es ListenedMqtt.boot
  have hfailures := Runs.run_account (fun s : ListenedMqtt => s.client.vars.mqttEchoFailures)
    (fun s e => (countsEvent_step cfg s e).failures_eq) es ListenedMqtt.boot
  refine ⟨htotal.trans (Nat.zero_add _), (hfailures.trans (Nat.zero_add _)).trans ?_, hreported⟩
  simp only [Runs.account, failureColumns, List.map_cons, List.map_nil, List.sum_cons, List.sum_nil, counted]
  omega

end WifiMemfault.MqttAccounts
