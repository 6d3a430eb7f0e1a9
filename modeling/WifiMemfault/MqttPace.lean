import WifiMemfault.FailedAttempts
import WifiMemfault.MqttEchoValue
import WifiMemfault.MqttEchoTimeout
import WifiMemfault.Lib.Paced
import WifiMemfault.Lib.Progress

/-!
# When the MQTT client publishes, and what

The messages `app_mqtt_client_thread` hands to `mqtt_helper_publish` over whole runs, with the WiFi listener
and the callbacks of the helper between any two of its statements.  They are at least one interval apart,
they carry the numbers 1, 2, 3 and so on, whatever becomes of each of them, and as long as the network stays
ready and the broker connected, the thread gets to its next one.
-/

namespace WifiMemfault.MqttPace

open MqttClient MqttThread MqttListener
open MqttEchoValue (decimalText)
open FailedAttempts (mqttOk mqttConnected)
open MemfaultCore (WifiMsgType)

/-! ### The pace -/

def publishPhase : MqttPc → PacePhase
  | .helperPublish => .acting
  | .publishSleep wake => .pausing wake
  | _ => .free

/-- The next step of the thread calls `mqtt_helper_publish`. -/
def publishes (s : MqttSystem) : Bool := s.pc = .publish ∧ s.vars.mqttPublishMessage.1 = none

/-- The event calls `mqtt_helper_publish`. -/
def startsPublish (s : ListenedMqtt) : ListenedEvent → Bool
  | .client ⟨.thread _, _⟩ => publishes s.client
  | _ => false

/-- The thread as a worker that publishes. -/
def publishPace (cfg : MqttConfig) : Paced ListenedMqtt ListenedEvent where
  step := stepListened cfg
  now s := s.client.now
  phase s := publishPhase s.client.pc
  interval := kSeconds cfg.publishIntervalSec
  acts := startsPublish

variable {cfg : MqttConfig} {s : ListenedMqtt} {i : ThreadInput}

theorem publishPhase_ite {p : Prop} [Decidable p] {a b : MqttPc} (ha : publishPhase a = .free)
    (hb : publishPhase b = .free) : publishPhase (if p then a else b) = .free := by
  split
  · exact ha
  · exact hb

/-- A point at which the thread is free and no message starts. -/
def quiet : MqttPc → Bool
  | .publish => false
  | .helperPublish => false
  | .publishSleep _ => false
  | _ => true

theorem publishPhase_quiet {pc : MqttPc} (h : quiet pc = true) : publishPhase pc = .free := by
  cases pc with
  | publish => cases h
  | helperPublish => cases h
  | publishSleep wake => cases h
  | _ => rfl

theorem publishes_quiet {s : MqttSystem} (h : quiet s.pc = true) : publishes s = false := by
  refine decide_eq_false fun hpublishes => ?_
  rw [hpublishes.1] at h
  cases h

/-- What a step of the thread may do to the pace. -/
def ThreadMoves (cfg : MqttConfig) (s s' : MqttSystem) : Prop :=
  ∀ listener i, (publishPace cfg).Moves ⟨s, listener⟩ (.client ⟨.thread i, rfl⟩) ⟨s', listener⟩

/-- A step from a quiet point to a free point. -/
theorem pace_free {s : MqttSystem} {pc : MqttPc} (v : MqttVars) (hs : quiet s.pc = true)
    (hpc : publishPhase pc = .free) : ThreadMoves cfg s { s with vars := v, pc := pc } :=
  fun _ _ => .other (hpc.trans (publishPhase_quiet hs).symm) (Nat.le_refl _) (publishes_quiet hs)

theorem pace_stays {s : MqttSystem} (hpublishes : publishes s = false) : ThreadMoves cfg s s :=
  fun _ _ => .other rfl (Nat.le_refl _) hpublishes

theorem pace_loopHead {s : MqttSystem} (v : MqttVars) (hs : quiet s.pc = true) :
    ThreadMoves cfg s (s.loopHead cfg v) :=
  pace_free v hs (publishPhase_ite rfl rfl)

theorem pace_connectReturned {s : MqttSystem} (retryCount : ℕ) (i : ThreadInput) (err : ℤ) (v : MqttVars)
    (hs : quiet s.pc = true) : ThreadMoves cfg s (s.connectReturned retryCount i err v) := by
  obtain ⟨count, wake, hret⟩ := connectReturned_eq s retryCount i err v
  rw [hret]
  exact pace_free v hs rfl

/-- A step that does one of two things. -/
theorem pace_ite {p : Prop} [Decidable p] {s a b : MqttSystem} (ha : p → ThreadMoves cfg s a)
    (hb : ¬ p → ThreadMoves cfg s b) : ThreadMoves cfg s (if p then a else b) := by
  split
  · rename_i h
    exact ha h
  · rename_i h
    exact hb h

/-- A sleep in which nothing is published before or after. -/
theorem pace_sleep {p : Prop} [Decidable p] {s : MqttSystem} {pc : MqttPc} (hs : quiet s.pc = true)
    (hpc : publishPhase pc = .free) : ThreadMoves cfg s (if p then s else { s with pc := pc }) :=
  pace_ite (fun _ => pace_stays (publishes_quiet hs)) fun _ => pace_free s.vars hs hpc

theorem pace_thread (cfg : MqttConfig) (s : MqttSystem) (i : ThreadInput) :
    ThreadMoves cfg s (s.threadStep cfg i) := by
  obtain ⟨now, v, pc⟩ := s
  cases pc with
  | helperInit =>
    exact pace_ite (fun _ => pace_free v rfl rfl) fun _ => pace_loopHead v rfl
  | semTake timeout =>
    refine pace_ite (fun _ => pace_stays rfl) fun _ => ?_
    exact pace_free _ rfl (publishPhase_ite rfl rfl)
  | networkTest =>
    exact pace_ite (fun _ => pace_free v rfl rfl) fun _ => pace_loopHead _ rfl
  | resolverSleep wake => exact pace_sleep rfl rfl
  | dnsTest dnsWaitTime => exact pace_free v rfl (publishPhase_ite rfl rfl)
  | dnsCheck dnsWaitTime =>
    exact pace_ite (fun _ => pace_free v rfl rfl) fun _ => pace_free v rfl rfl
  | dnsSleep dnsWaitTime wake => exact pace_sleep rfl rfl
  | dnsDone =>
    refine pace_ite (fun _ => pace_loopHead v rfl) fun _ => ?_
    exact pace_free v rfl (publishPhase_ite rfl rfl)
  | initialSleep wake => exact pace_sleep rfl rfl
  | initialDone =>
    exact pace_ite (fun _ => pace_loopHead v rfl) fun _ => pace_free v rfl rfl
  | mainLoop => exact pace_free v rfl (publishPhase_ite rfl rfl)
  | connectTest retryCount => exact pace_free v rfl (publishPhase_ite rfl rfl)
  | doConnect retryCount =>
    simp only [MqttSystem.threadStep]
    split
    · rename_i err v' heq
      exact pace_connectReturned retryCount i err v' rfl
    · rename_i v' heq
      exact pace_free v' rfl rfl
  | helperConnect retryCount => exact pace_connectReturned retryCount i i.helperErr _ rfl
  | connectSleep retryCount wake => exact pace_sleep rfl rfl
  | publishTest => exact pace_free v rfl (publishPhase_ite rfl rfl)
  | publish =>
    intro listener j
    simp only [MqttSystem.threadStep]
    split
    · -- a message that is skipped is followed by the whole sleep too
      rename_i err v' heq
      refine .pauses (Or.inl rfl) rfl (Nat.le_refl _) ?_
      simp [publishPace, startsPublish, publishes, heq]
    · exact .begins rfl rfl (Nat.le_refl _)
  | helperPublish => exact fun _ _ => .pauses (Or.inr rfl) rfl (Nat.le_refl _) rfl
  | publishSleep wake =>
    refine pace_ite (fun _ => pace_stays rfl) fun hdue => ?_
    exact fun _ _ => .wakes wake rfl rfl (Nat.not_lt.mp hdue) (Nat.le_refl _) rfl
  | brokerTest => exact pace_free v rfl (publishPhase_ite rfl rfl)
  | brokerSleep wake => exact pace_sleep rfl rfl
  | mainExit => exact pace_loopHead _ rfl
  | exited => exact pace_stays rfl

/-- The event is no step of the thread. -/
def besidesThread : ListenedEvent → Bool
  | .client ⟨.thread _, _⟩ => false
  | _ => true

/-- No other event moves the thread, and only the clock changes the time. -/
theorem stepListened_place (cfg : MqttConfig) (s : ListenedMqtt) (e : ListenedEvent)
    (he : besidesThread e = true) :
    (stepListened cfg s e).client.pc = s.client.pc ∧ s.client.now ≤ (stepListened cfg s e).client.now := by
  cases e with
  | client e =>
    obtain ⟨e, hnotify⟩ := e
    cases e with
    | thread i => cases he
    | elapse ms => exact ⟨rfl, Nat.le_add_right _ _⟩
    | _ => exact ⟨rfl, Nat.le_refl _⟩
  | wifiMsg type =>
    simp only [stepListened]
    split
    · cases type with
      | wifiStaConnected =>
        simp only [ListenedMqtt.wifiListener]
        split
        · exact ⟨rfl, Nat.le_refl _⟩
        · exact ⟨rfl, Nat.le_refl _⟩
      | wifiStaDisconnected => exact ⟨rfl, Nat.le_refl _⟩
      | other => exact ⟨rfl, Nat.le_refl _⟩
    · exact ⟨rfl, Nat.le_refl _⟩
  | listener =>
    simp only [stepListened, ListenedMqtt.listenerStep]
    split <;> exact ⟨rfl, Nat.le_refl _⟩

theorem startsPublish_besides {e : ListenedEvent} (he : besidesThread e = true) :
    startsPublish s e = false := by
  cases e with
  | client e =>
    obtain ⟨e, hnotify⟩ := e
    cases e with
    | thread i => cases he
    | _ => rfl
  | _ => rfl

theorem publishPace_lawful (cfg : MqttConfig) : (publishPace cfg).Lawful := by
  intro s e
  by_cases he : besidesThread e = true
  · obtain ⟨hpc, hnow⟩ := stepListened_place cfg s e he
    exact .other (congrArg publishPhase hpc) hnow (startsPublish_besides he)
  · cases e with
    | client e =>
      obtain ⟨e, hnotify⟩ := e
      cases e with
      | thread i => exact pace_thread cfg s.client i s.listener i
      | _ => exact absurd rfl he
    | _ => exact absurd rfl he

/-- **The messages are an interval apart.**  In every run from any state, two calls of
`mqtt_helper_publish` come at least `CONFIG_APP_MQTT_CLIENT_PUBLISH_INTERVAL_SEC` apart, however often the
client reconnects between them; so the run holds at most as many of them as its time has intervals, and
one. -/
theorem publishes_interval_apart (cfg : MqttConfig) (s : ListenedMqtt) (es : List ListenedEvent) :
    let times := (publishPace cfg).actionTimes s es
    (times.Pairwise fun t t' => t + kSeconds cfg.publishIntervalSec ≤ t') ∧
      times.length * kSeconds cfg.publishIntervalSec
        ≤ (Runs.run (stepListened cfg) s es).client.now - s.client.now
          + kSeconds cfg.publishIntervalSec := by
  have hlawful := publishPace_lawful cfg
  exact ⟨Paced.actionTimes_pairwise hlawful es s, Paced.actionTimes_length hlawful es s⟩

/-! ### The numbers -/

/-- The payloads of the messages a run hands over. -/
def handedOver (cfg : MqttConfig) : ListenedMqtt → List ListenedEvent → List (List UInt8)
  | _, [] => []
  | s, e :: es =>
    let rest := handedOver cfg (stepListened cfg s e) es
    if startsPublish s e then decimalText (stepListened cfg s e).client.vars.messageCount :: rest
    else rest

/-- The texts of the `n` numbers after `count`. -/
def textsAfter (count : UInt32) (n : ℕ) : List (List UInt8) :=
  (List.range n).map fun k => decimalText (count + UInt32.ofNat (k + 1))

theorem textsAfter_succ (count : UInt32) (n : ℕ) :
    textsAfter count (n + 1) = decimalText (count + 1) :: textsAfter (count + 1) n := by
  rw [textsAfter, List.range_succ_eq_map, List.map_cons, List.map_map]
  refine congrArg₂ List.cons rfl (List.map_congr_left fun k _ => congrArg decimalText ?_)
  show count + UInt32.ofNat (k + 1 + 1) = count + 1 + UInt32.ofNat (k + 1)
  rw [UInt32.ofNat_add (k + 1) 1, UInt32.add_assoc, UInt32.add_comm (UInt32.ofNat (k + 1))]
  rfl

theorem publishes_of_pc {s : MqttSystem} (h : s.pc ≠ .publish) : publishes s = false := by
  simp [publishes, h]

/-- A step of the thread counts a message if it hands it over, and only then. -/
theorem messageCount_thread (cfg : MqttConfig) (s : MqttSystem) (i : ThreadInput) :
    (s.threadStep cfg i).vars.messageCount
      = if publishes s then s.vars.messageCount + 1 else s.vars.messageCount := by
  by_cases hpc : s.pc = .publish
  · cases hmsg : s.vars.mqttPublishMessage.1 with
    | none =>
      have hpublishes : publishes s = true := by simp [publishes, hpc, hmsg]
      have hstep : (s.threadStep cfg i).vars = s.vars.mqttPublishMessage.2 := by
        simp only [MqttSystem.threadStep, hpc]
        split
        · rename_i err v heq
          simp [heq] at hmsg
        · rename_i v heq
          rw [heq]
      rw [hstep, mqttPublishMessage_handed hmsg, if_pos hpublishes]
    | some err =>
      have hskips : publishes s = false := by simp [publishes, hmsg]
      have hstep : (s.threadStep cfg i).vars = s.vars.mqttPublishMessage.2 := by
        simp only [MqttSystem.threadStep, hpc]
        split
        · rename_i err' v heq
          rw [heq]
        · rename_i v heq
          simp [heq] at hmsg
      rw [hstep, mqttPublishMessage_skipped hmsg, hskips]
      rfl
  · rw [publishes_of_pc hpc, if_neg Bool.false_ne_true]
    have hstep := publishStep_thread cfg s i
    generalize s.threadStep cfg i = s' at hstep ⊢
    cases hstep with
    | other _ _ hecho hpublished hcounters hsame => exact congrArg PublishCounters.messageCount hcounters
    | handsOver _ hs => exact absurd hs hpc
    | published _ wake hs => exact (MqttEchoTimeout.mqttHelperPublished_counters s.vars i.helperErr).1

/-- No other event counts a message. -/
theorem messageCount_besides (cfg : MqttConfig) (s : ListenedMqtt) (e : ListenedEvent)
    (he : besidesThread e = true) :
    (stepListened cfg s e).client.vars.messageCount = s.client.vars.messageCount := by
  cases e with
  | client e =>
    obtain ⟨e, hnotify⟩ := e
    have hstep := stepMqtt_publishStep cfg s.client e
    simp only [stepListened]
    generalize stepMqtt cfg s.client e = s' at hstep ⊢
    cases hstep with
    | other _ _ hecho hpublished hcounters hsame => exact congrArg PublishCounters.messageCount hcounters
    | echo payload => exact (MqttEchoValue.onMqttPublish_publishCounters s.client.vars payload).1
    | handsOver i hs => cases he
    | published i wake hs => cases he
  | wifiMsg type =>
    simp only [stepListened]
    split
    · cases type with
      | wifiStaConnected =>
        simp only [ListenedMqtt.wifiListener]
        split
        · rfl
        · rfl
      | wifiStaDisconnected => rfl
      | other => rfl
    · rfl
  | listener =>
    simp only [stepListened, ListenedMqtt.listenerStep]
    split <;> rfl

/-- `message_count` goes up by one where a message is handed over, and changes nowhere else. -/
theorem messageCount_step (cfg : MqttConfig) (s : ListenedMqtt) (e : ListenedEvent) :
    (stepListened cfg s e).client.vars.messageCount
      = if startsPublish s e then s.client.vars.messageCount + 1 else s.client.vars.messageCount := by
  by_cases he : besidesThread e = true
  · rw [startsPublish_besides he, messageCount_besides cfg s e he]
    rfl
  · cases e with
    | client e =>
      obtain ⟨e, hnotify⟩ := e
      cases e with
      | thread i => exact messageCount_thread cfg s.client i
      | _ => exact absurd rfl he
    | _ => exact absurd rfl he

theorem handedOver_eq (cfg : MqttConfig) (es : List ListenedEvent) (s : ListenedMqtt) :
    handedOver cfg s es
      = textsAfter s.client.vars.messageCount ((publishPace cfg).actionTimes s es).length := by
  induction es generalizing s with
  | nil => rfl
  | cons e es ih =>
    have hcount := messageCount_step cfg s e
    have hacts : (publishPace cfg).acts s e = startsPublish s e := rfl
    have hstep : (publishPace cfg).step s e = stepListened cfg s e := rfl
    rw [handedOver, Paced.actionTimes, hacts, hstep]
    split
    · rename_i hstarts
      rw [if_pos hstarts] at hcount
      rw [List.length_cons, textsAfter_succ, ← hcount]
      exact congrArg (List.cons _) (ih _)
    · rename_i hstarts
      rw [if_neg hstarts] at hcount
      rw [← hcount]
      exact ih _

/-- **The messages are numbered through.**  From boot on, the messages handed to `mqtt_helper_publish` carry
the decimal texts of 1, 2, 3 and so on, in this order and without a gap, whatever the helper answers and
however often the client reconnects; and `on_mqtt_publish` reads from an echo of the `k`-th the number
`k` again. -/
theorem messages_numbered (cfg : MqttConfig) (es : List ListenedEvent) :
    let handed := handedOver cfg ListenedMqtt.boot es
    handed.length = ((publishPace cfg).actionTimes ListenedMqtt.boot es).length ∧
      ∀ k (hk : k < handed.length),
        handed[k] = decimalText (UInt32.ofNat (k + 1)) ∧
        strtoul (handed[k].take (numBufSize - 1)) = UInt32.ofNat (k + 1) := by
  intro handed
  have htexts : handed = textsAfter 0 _ := handedOver_eq cfg es ListenedMqtt.boot
  have hlength : handed.length = ((publishPace cfg).actionTimes ListenedMqtt.boot es).length := by
    rw [htexts, textsAfter, List.length_map, List.length_range]
  refine ⟨hlength, fun k hk => ?_⟩
  have htext : handed[k] = decimalText (UInt32.ofNat (k + 1)) := by
    simp [htexts, textsAfter]
  rw [htext, MqttEchoValue.decimalText_fits]
  exact ⟨rfl, MqttEchoValue.strtoul_decimalText _⟩

/-! ### The next message comes -/

/-- The thread waits, and neither the time nor a token has come. -/
def asleep (s : MqttSystem) : Bool :=
  match s.pc with
  | .semTake timeout => s.vars.mqttThreadSem = 0 ∧ s.now < timeout
  | .resolverSleep wake => s.now < wake
  | .dnsSleep _ wake => s.now < wake
  | .initialSleep wake => s.now < wake
  | .connectSleep _ wake => s.now < wake
  | .publishSleep wake => s.now < wake
  | .brokerSleep wake => s.now < wake
  | _ => false

/-- The thread takes a step, and does not sleep through it. -/
def takesStep (s : ListenedMqtt) : ListenedEvent → Bool
  | .client ⟨.thread _, _⟩ => !asleep s.client
  | _ => false

/-- The checks for the resolver that may still wait. -/
def checksLeft (dnsWaitTime : ℕ) : ℕ := Runs.pollsLeft dnsTimeout dnsCheckIntervalSec dnsWaitTime

/-- The steps until a message is handed over, if the network stays ready and the broker connected. -/
def stepsLeft : MqttPc → ℕ
  | .publish => 1
  | .publishTest => 2
  | .publishSleep _ => 3
  | .connectTest _ => 3
  | .helperPublish => 4
  | .connectSleep _ _ => 4
  | .mainLoop => 4
  | .doConnect _ => 5
  | .helperConnect _ => 5
  | .brokerTest => 5
  | .brokerSleep _ => 5
  | .initialDone => 5
  | .initialSleep _ => 6
  | .dnsDone => 7
  | .dnsCheck dnsWaitTime => 3 * checksLeft dnsWaitTime + 8
  | .dnsTest dnsWaitTime => 3 * checksLeft dnsWaitTime + 9
  | .dnsSleep dnsWaitTime _ => 3 * checksLeft (dnsWaitTime + dnsCheckIntervalSec) + 10
  | .resolverSleep _ => 100
  | .networkTest => 101
  | .semTake _ => 102
  | .mainExit => 103
  | .helperInit => 104
  | .exited => 104

theorem checksLeft_le (dnsWaitTime : ℕ) : checksLeft dnsWaitTime ≤ 30 :=
  Runs.pollsLeft_le dnsTimeout dnsCheckIntervalSec dnsWaitTime

theorem checksLeft_waited {dnsWaitTime : ℕ} (h : ¬ dnsTimeout ≤ dnsWaitTime) :
    checksLeft (dnsWaitTime + dnsCheckIntervalSec) + 1 = checksLeft dnsWaitTime :=
  Runs.pollsLeft_waited (by decide) (Nat.not_le.mp h)

/-- The thread is past its initialisation, and runs. -/
def inLoop : MqttPc → Bool
  | .helperInit => false
  | .exited => false
  | _ => true

structure Running (s : MqttSystem) : Prop where
  running : s.vars.mqttClientRunning = true
  in_loop : inLoop s.pc = true

theorem stepsLeft_le {pc : MqttPc} (h : inLoop pc = true) : stepsLeft pc ≤ 103 := by
  cases pc with
  | dnsTest d =>
    have hd := checksLeft_le d
    simp only [stepsLeft]
    omega
  | dnsCheck d =>
    have hd := checksLeft_le d
    simp only [stepsLeft]
    omega
  | dnsSleep d wake =>
    have hd := checksLeft_le (d + dnsCheckIntervalSec)
    simp only [stepsLeft]
    omega
  | helperInit => cases h
  | exited => cases h
  | _ => simp only [stepsLeft]; omega

theorem stepsLeft_pos (pc : MqttPc) : 0 < stepsLeft pc := by
  cases pc <;> simp only [stepsLeft] <;> omega

def ClientRuns (s : ListenedMqtt) : Prop := s.client.vars.mqttClientRunning = true

/-- Nothing stops the client. -/
theorem running_kept (cfg : MqttConfig) (s : ListenedMqtt) (e : ListenedEvent) (h : ClientRuns s) :
    ClientRuns (stepListened cfg s e) := by
  cases e with
  | client e =>
    obtain ⟨e, hnotify⟩ := e
    simp only [stepListened]
    by_cases hthread : ∃ i, e = .thread i
    · obtain ⟨i, rfl⟩ := hthread
      rcases threadStep_linkFlags cfg s.client i with hflags | ⟨-, hflags⟩
      · exact (congrArg LinkFlags.mqttClientRunning hflags).trans h
      · exact (congrArg LinkFlags.mqttClientRunning hflags).trans h
    · have hflags := (stepMqtt_linkFlags cfg s.client e hnotify fun i hi => hthread ⟨i, hi⟩).1
      exact (congrArg LinkFlags.mqttClientRunning hflags).trans h
  | wifiMsg type =>
    simp only [stepListened]
    split
    · cases type with
      | wifiStaConnected =>
        simp only [ListenedMqtt.wifiListener]
        split
        · exact h
        · exact h
      | wifiStaDisconnected => exact h
      | other => exact h
    · exact h
  | listener =>
    simp only [stepListened, ListenedMqtt.listenerStep]
    split <;> exact h

/-- The network is ready and the broker connected. -/
def Up (v : MqttVars) : Prop := v.networkReady = true ∧ v.currentState = .connected

instance (v : MqttVars) : Decidable (Up v) := inferInstanceAs (Decidable (_ ∧ _))

def StaysUp (cfg : MqttConfig) (s : ListenedMqtt) (e : ListenedEvent) : Prop :=
  Up s.client.vars ∧ Up (stepListened cfg s e).client.vars

instance (s : ListenedMqtt) (e : ListenedEvent) : Decidable (StaysUp cfg s e) :=
  inferInstanceAs (Decidable (_ ∧ _))

theorem publishes_of_up {s : MqttSystem} (hup : Up s.vars) (hpc : s.pc = .publish) : publishes s = true := by
  obtain ⟨hready, hstate⟩ := hup
  simp [publishes, hpc, MqttVars.mqttPublishMessage, hready, hstate]

/-- A sleep: the thread stays until the time has come. -/
theorem stepsLeft_sleep {p : Prop} [Decidable p] {s s' : MqttSystem}
    (hless : stepsLeft s'.pc < stepsLeft s.pc) (hloop : inLoop s.pc = true)
    (hloop' : inLoop s'.pc = true)
    (hasleep : asleep s = decide p) :
    inLoop (if p then s else s').pc = true ∧
      stepsLeft (if p then s else s').pc + (!asleep s).toNat ≤ stepsLeft s.pc := by
  rw [hasleep]
  split
  · rename_i hwaits
    simp [hwaits, hloop]
  · rename_i hdue
    refine ⟨hloop', ?_⟩
    simpa [hdue] using Nat.succ_le_of_lt hless

/-- A step of the thread brings it nearer to its next message, or it is asleep and stays. -/
theorem stepsLeft_thread (cfg : MqttConfig) (i : ThreadInput) {s : MqttSystem} (h : Running s)
    (hup : Up s.vars) (hpublish : s.pc ≠ .publish) :
    inLoop (s.threadStep cfg i).pc = true ∧
      stepsLeft (s.threadStep cfg i).pc + (!asleep s).toNat ≤ stepsLeft s.pc := by
  obtain ⟨hrun, hloop⟩ := h
  obtain ⟨hready, hstate⟩ := hup
  obtain ⟨now, v, pc⟩ := s
  change v.mqttClientRunning = true at hrun
  change v.networkReady = true at hready
  change v.currentState = .connected at hstate
  have hchecks : checksLeft 2 = 30 := rfl
  cases pc with
  | helperInit => cases hloop
  | semTake timeout =>
    refine stepsLeft_sleep (?_ : stepsLeft (if v.mqttClientRunning then _ else _) < _) rfl
      ?_ rfl
    · simp [hrun, stepsLeft]
    · simp [hrun, inLoop]
  | networkTest => simp [MqttSystem.threadStep, hready, stepsLeft, asleep, inLoop]
  | resolverSleep wake =>
    exact stepsLeft_sleep (by simp [stepsLeft, hchecks]) rfl rfl rfl
  | dnsTest d => simp [MqttSystem.threadStep, hready, stepsLeft, asleep, inLoop]
  | dnsCheck d =>
    simp only [MqttSystem.threadStep]
    split
    · simp [stepsLeft, asleep, inLoop]
    · rename_i hwaits
      have hwaited := checksLeft_waited (not_or.mp hwaits).2
      refine ⟨rfl, ?_⟩
      simp only [stepsLeft, asleep, Bool.not_false, Bool.toNat_true]
      omega
  | dnsSleep d wake =>
    exact stepsLeft_sleep (Nat.lt_succ_self _) rfl rfl rfl
  | dnsDone =>
    simp only [MqttSystem.threadStep, hready, Bool.true_eq_false, if_false]
    split
    · simp [stepsLeft, asleep, inLoop]
    · simp [stepsLeft, asleep, inLoop]
  | initialSleep wake => exact stepsLeft_sleep (Nat.lt_succ_self _) rfl rfl rfl
  | initialDone => simp [MqttSystem.threadStep, hready, stepsLeft, asleep, inLoop]
  | mainLoop => simp [MqttSystem.threadStep, MqttSystem.runs, hrun, hready, stepsLeft, asleep, inLoop]
  | connectTest count => simp [MqttSystem.threadStep, hstate, stepsLeft, asleep, inLoop]
  | doConnect count =>
    simp only [MqttSystem.threadStep, MqttVars.mqttDoConnect, hstate, MqttSystem.connectReturned]
    simp [einprogress, stepsLeft, asleep, inLoop]
  | helperConnect count =>
    obtain ⟨count', wake, hret⟩ := connectReturned_eq ⟨now, v, .helperConnect count⟩ count i i.helperErr
      (v.mqttHelperConnected i.helperErr)
    simp only [MqttSystem.threadStep, hret]
    simp [stepsLeft, asleep, inLoop]
  | connectSleep count wake =>
    exact stepsLeft_sleep (Nat.lt_succ_self _) rfl rfl rfl
  | publishTest =>
    simp [MqttSystem.threadStep, MqttSystem.runs, hrun, hready, hstate, stepsLeft, asleep, inLoop]
  | publish => exact absurd rfl hpublish
  | helperPublish => simp [MqttSystem.threadStep, stepsLeft, asleep, inLoop]
  | publishSleep wake => exact stepsLeft_sleep (Nat.lt_succ_self _) rfl rfl rfl
  | brokerTest => simp [MqttSystem.threadStep, hstate, stepsLeft, asleep, inLoop]
  | brokerSleep wake => exact stepsLeft_sleep (Nat.lt_succ_self _) rfl rfl rfl
  | mainExit =>
    have hrec : (MqttSystem.recordIfSeen ⟨now, v, .mainExit⟩).mqttClientRunning = true :=
      (congrArg LinkFlags.mqttClientRunning (recordIfSeen_linkFlags ⟨now, v, .mainExit⟩)).trans hrun
    simp [MqttSystem.threadStep, MqttSystem.loopHead, hrec, stepsLeft, asleep, inLoop]
  | exited => cases hloop

/-- The number of steps shows that the thread gets to its next message. -/
theorem publish_variant (cfg : MqttConfig) :
    Runs.Variant (stepListened cfg) (fun s => Running s.client) (StaysUp cfg)
      (fun s e => startsPublish s e = true) takesStep (fun s => stepsLeft s.client.pc) := by
  refine ⟨fun s _ => stepsLeft_pos s.client.pc, fun s e hinv hup hgoal => ?_⟩
  have hrun := running_kept cfg s e hinv.running
  by_cases he : besidesThread e = true
  · have hpc := (stepListened_place cfg s e he).1
    have hturn : takesStep s e = false := by
      cases e with
      | client e =>
        obtain ⟨e, hnotify⟩ := e
        cases e with
        | thread i => cases he
        | _ => rfl
      | _ => rfl
    refine ⟨⟨hrun, by rw [hpc]; exact hinv.in_loop⟩, ?_⟩
    rw [hpc, hturn]
    exact Nat.le_refl _
  · cases e with
    | client e =>
      obtain ⟨e, hnotify⟩ := e
      cases e with
      | thread i =>
        have hpublish : s.client.pc ≠ .publish := fun hpc => hgoal (publishes_of_up hup.1 hpc)
        obtain ⟨hloop, hleft⟩ := stepsLeft_thread cfg i hinv hup.1 hpublish
        exact ⟨⟨hrun, hloop⟩, hleft⟩
      | _ => exact absurd rfl he
    | _ => exact absurd rfl he

/-- **The client gets to its next message.**  From every reachable state in which `mqtt_helper_init` has
succeeded, once the thread has taken 103 steps, sleeping apart, it has called `mqtt_helper_publish`, as long
as the network stays ready and the broker connected. -/
theorem publish_comes (cfg : MqttConfig) (es fs : List ListenedEvent) :
    let s := Runs.run (stepListened cfg) ListenedMqtt.boot es
    inLoop s.client.pc = true → Runs.EachStep (stepListened cfg) (StaysUp cfg) s fs →
      103 ≤ Runs.countSteps (stepListened cfg) takesStep s fs →
      Runs.Happens (stepListened cfg) (fun s e => startsPublish s e = true) s fs := by
  intro s hloop hup hsteps
  have hrun : ClientRuns s := Runs.run_invariant_always (running_kept cfg) es _ rfl
  exact (publish_variant cfg).happens fs s ⟨hrun, hloop⟩ hup (Nat.le_trans (stepsLeft_le hloop) hsteps)

theorem connack_no_notification : isNotification (.onMqttConnack 0) = false := rfl

theorem elapse_no_notification : isNotification (.elapse 300000) = false := rfl

/-- From boot to a connected broker. -/
def brokerConnects : List ListenedEvent := mqttConnected ++ [.client ⟨.onMqttConnack 0, connack_no_notification⟩]

/-- Every sleep of the thread is over before its next step. -/
def steadySteps : List ListenedEvent :=
  (List.replicate 103 [.client ⟨.elapse 300000, elapse_no_notification⟩, mqttOk]).flatten

theorem publish_comes_first :
    Runs.Happens (stepListened sampleConfig) (fun s e => startsPublish s e = true)
      (Runs.run (stepListened sampleConfig) ListenedMqtt.boot brokerConnects) steadySteps :=
  publish_comes sampleConfig brokerConnects steadySteps (by decide +kernel)
    (by decide +kernel) (by decide +kernel)

end WifiMemfault.MqttPace
