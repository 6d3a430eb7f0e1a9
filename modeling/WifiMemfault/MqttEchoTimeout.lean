import WifiMemfault.MqttThreadSteps

/-!
# The echo timeout

A successful publish counts an echo timeout if it is the third message since the last echo and its number
is above three.  So the timeout of a stretch without an echo is counted with the third success only if no
message of the stretch has failed before, and never in the stretch that begins at boot.

`EchoRun` keeps what the counters do not: the messages handed over since the last echo, how many of them
succeeded, and how many timeouts were counted.
-/

namespace WifiMemfault.MqttEchoTimeout

open MqttClient MqttThread

structure EchoRun where
  sys : MqttSystem
  /-- The messages handed over since the last echo, or since boot. -/
  handed : ℕ
  /-- The publishes that succeeded since then. -/
  succeeded : ℕ
  /-- The failures counted by these publishes. -/
  timeouts : ℕ

def EchoRun.boot : EchoRun := ⟨MqttSystem.boot, 0, 0, 0⟩

/-- The publish under way returns, and `mqtt_helper_publish` has succeeded. -/
def succeeds (s : MqttSystem) : MqttEvent → Bool
  | .thread i => s.pc = .helperPublish ∧ i.helperErr = 0
  | _ => false

/-- A message is handed to `mqtt_helper_publish`. -/
def handsOver (s s' : MqttSystem) : Bool := s.pc = .publish ∧ s'.pc = .helperPublish

variable (cfg : MqttConfig)

def stepEchoRun (r : EchoRun) (e : MqttEvent) : EchoRun :=
  let sys := stepMqtt cfg r.sys e
  match e with
  | .onMqttPublish _ => ⟨sys, 0, 0, 0⟩
  | e =>
    if succeeds r.sys e then
      { r with
        sys := sys
        succeeded := r.succeeded + 1
        timeouts := r.timeouts + (sys.vars.mqttEchoFailures - r.sys.vars.mqttEchoFailures) }
    else if handsOver r.sys sys then { r with sys := sys, handed := r.handed + 1 }
    else { r with sys := sys }

/-- The timeout of the stretch has been counted once if three publishes have succeeded, and not at all
otherwise. -/
def TimeoutOnce (r : EchoRun) : Prop := r.timeouts = if 3 ≤ r.succeeded then 1 else 0

instance (r : EchoRun) : Decidable (TimeoutOnce r) := inferInstanceAs (Decidable (_ = _))

/-- A publish that succeeds is the third of its stretch to do so if and only if it is the third message
of the stretch and its number is above three.  (The numbers wrap at `2^32`.) -/
def ThirdInTime (r : EchoRun) (e : MqttEvent) : Prop :=
  succeeds r.sys e = true →
    (r.succeeded = 2 ↔ r.handed % 2 ^ 32 = 3 ∧ 3 < r.sys.vars.messageCount)

instance (r : EchoRun) (e : MqttEvent) : Decidable (ThirdInTime r e) :=
  inferInstanceAs (Decidable (_ → _))

/-! ### One step -/

/-- The counters know how many messages the stretch has, modulo `2^32`. -/
def HandedInv (r : EchoRun) : Prop :=
  r.sys.vars.messageCount - r.sys.vars.lastEchoAtMsg = UInt32.ofNat r.handed

variable {cfg}

theorem echoTimeout_iff {r : EchoRun} (h : HandedInv r) :
    r.sys.vars.echoTimeout = true ↔ r.handed % 2 ^ 32 = 3 ∧ 3 < r.sys.vars.messageCount := by
  rw [MqttVars.echoTimeout, decide_eq_true_iff, h]
  have hthree : UInt32.ofNat r.handed = appMqttEchoTimeoutThreshold ↔ r.handed % 2 ^ 32 = 3 := by
    rw [← UInt32.toNat_inj, UInt32.toNat_ofNat']
    rfl
  rw [hthree, and_comm]
  rfl

/-- What a successful publish counts. -/
theorem mqttHelperPublished_failures (v : MqttVars) :
    (v.mqttHelperPublished 0).mqttEchoFailures - v.mqttEchoFailures
      = if v.echoTimeout = true then 1 else 0 := by
  have htimeout : MqttVars.echoTimeout { v with lastPublishedCount := v.messageCount }
      = v.echoTimeout := rfl
  simp only [MqttVars.mqttHelperPublished, htimeout, ne_eq, not_true_eq_false, if_false]
  cases v.echoTimeout with
  | true => exact Nat.add_sub_cancel_left _ 1
  | false => exact Nat.sub_self _

theorem mqttHelperPublished_counters (v : MqttVars) (err : ℤ) :
    (v.mqttHelperPublished err).messageCount = v.messageCount ∧
      (v.mqttHelperPublished err).lastEchoAtMsg = v.lastEchoAtMsg := by
  simp only [MqttVars.mqttHelperPublished]
  split
  · exact ⟨rfl, rfl⟩
  · split
    · exact ⟨rfl, rfl⟩
    · exact ⟨rfl, rfl⟩

/-- What one event does to the stretch. -/
inductive StretchStep (r : EchoRun) : MqttEvent → EchoRun → Prop where
  | echo (payload : List UInt8) (s : MqttSystem) (hinv : HandedInv ⟨s, 0, 0, 0⟩) :
      StretchStep r (.onMqttPublish payload) ⟨s, 0, 0, 0⟩
  | succeeds (e : MqttEvent) (s : MqttSystem) (he : succeeds r.sys e = true)
      (hinv : HandedInv r → HandedInv ⟨s, r.handed, 0, 0⟩) :
      StretchStep r e
        ⟨s, r.handed, r.succeeded + 1,
          r.timeouts + if r.sys.vars.echoTimeout = true then 1 else 0⟩
  | keeps (e : MqttEvent) (s : MqttSystem) (handed : ℕ) (he : succeeds r.sys e = false)
      (hinv : HandedInv r → HandedInv ⟨s, handed, 0, 0⟩) :
      StretchStep r e ⟨s, handed, r.succeeded, r.timeouts⟩

theorem handsOver_false {s s' : MqttSystem} (h : s'.pc = .helperPublish → s.pc ≠ .publish) :
    handsOver s s' = false :=
  decide_eq_false fun h' => h h'.2 h'.1

/-- An event that is no echo, no success and hands nothing over only moves the system. -/
theorem stepEchoRun_plain {r : EchoRun} {e : MqttEvent} (he : ∀ payload, e ≠ .onMqttPublish payload)
    (hsucceeds : succeeds r.sys e = false)
    (hhands : handsOver r.sys (stepMqtt cfg r.sys e) = false) :
    stepEchoRun cfg r e = { r with sys := stepMqtt cfg r.sys e } := by
  cases e with
  | onMqttPublish payload => exact absurd rfl (he payload)
  | _ => simp only [stepEchoRun, hsucceeds, hhands, if_neg Bool.false_ne_true]

theorem stepEchoRun_handsOver {r : EchoRun} {i : ThreadInput}
    (hsucceeds : succeeds r.sys (.thread i) = false)
    (hhands : handsOver r.sys (stepMqtt cfg r.sys (.thread i)) = true) :
    stepEchoRun cfg r (.thread i) =
      { r with sys := stepMqtt cfg r.sys (.thread i), handed := r.handed + 1 } := by
  simp only [stepEchoRun, hsucceeds, hhands, if_neg Bool.false_ne_true, if_true]

theorem stepEchoRun_succeeds {r : EchoRun} {i : ThreadInput} (hs : r.sys.pc = .helperPublish)
    (herr : i.helperErr = 0)
    (hvars : (stepMqtt cfg r.sys (.thread i)).vars = r.sys.vars.mqttHelperPublished i.helperErr) :
    stepEchoRun cfg r (.thread i) = ⟨stepMqtt cfg r.sys (.thread i), r.handed, r.succeeded + 1,
      r.timeouts + if r.sys.vars.echoTimeout = true then 1 else 0⟩ := by
  have hsucceeds : succeeds r.sys (.thread i) = true := decide_eq_true ⟨hs, herr⟩
  simp only [stepEchoRun, hsucceeds, if_true, hvars]
  rw [herr, mqttHelperPublished_failures]

theorem stepEchoRun_stretch (cfg : MqttConfig) (r : EchoRun) (e : MqttEvent) :
    StretchStep r e (stepEchoRun cfg r e) := by
  have hstep := stepMqtt_publishStep cfg r.sys e
  generalize hs' : stepMqtt cfg r.sys e = s' at hstep
  cases hstep with
  | echo payload =>
    rw [stepEchoRun, hs']
    refine .echo payload _ ?_
    show (r.sys.vars.onMqttPublish payload).messageCount - (r.sys.vars.onMqttPublish payload).lastEchoAtMsg
      = UInt32.ofNat 0
    simp only [MqttVars.onMqttPublish]
    split
    · exact UInt32.sub_self r.sys.vars.messageCount
    · exact UInt32.sub_self r.sys.vars.messageCount
  | other e s' hecho hpublished hcounters hpc =>
    have hsucceeds : succeeds r.sys e = false := by
      cases e with
      | thread i => exact decide_eq_false fun h => hpublished i rfl h.1
      | _ => rfl
    have hhands : handsOver r.sys (stepMqtt cfg r.sys e) = false := by
      rw [hs']
      refine handsOver_false fun h => ?_
      rw [hpc.mp h]
      exact nofun
    rw [stepEchoRun_plain hecho hsucceeds hhands, hs']
    refine .keeps e s' r.handed hsucceeds fun hinv => ?_
    have hm := congrArg PublishCounters.messageCount hcounters
    have hl := congrArg PublishCounters.lastEchoAtMsg hcounters
    show (publishCounters s'.vars).messageCount - (publishCounters s'.vars).lastEchoAtMsg = _
    rw [hm, hl]
    exact hinv
  | handsOver i hs =>
    have hsucceeds : succeeds r.sys (.thread i) = false := by
      refine decide_eq_false fun h => ?_
      rw [hs] at h
      cases h.1
    have hhands : handsOver r.sys (stepMqtt cfg r.sys (.thread i)) = true := by
      rw [hs']
      exact decide_eq_true ⟨hs, rfl⟩
    rw [stepEchoRun_handsOver hsucceeds hhands, hs']
    refine .keeps _ _ (r.handed + 1) hsucceeds fun hinv => ?_
    show r.sys.vars.messageCount + 1 - r.sys.vars.lastEchoAtMsg = UInt32.ofNat (r.handed + 1)
    rw [UInt32.ofNat_add, ← hinv]
    grind
  | published i wake hs =>
    have hinv' : HandedInv r → HandedInv
        ⟨{ r.sys with
          vars := r.sys.vars.mqttHelperPublished i.helperErr
          pc := .publishSleep wake }, r.handed, 0, 0⟩ := by
      intro hinv
      obtain ⟨hm, hl⟩ := mqttHelperPublished_counters r.sys.vars i.helperErr
      rw [HandedInv, hm, hl]
      exact hinv
    by_cases herr : i.helperErr = 0
    · rw [stepEchoRun_succeeds hs herr (by rw [hs']), hs']
      exact .succeeds _ _ (decide_eq_true ⟨hs, herr⟩) hinv'
    · have hsucceeds : succeeds r.sys (.thread i) = false := decide_eq_false fun h => herr h.2
      have hhands : handsOver r.sys (stepMqtt cfg r.sys (.thread i)) = false := by
        rw [hs']
        exact handsOver_false nofun
      rw [stepEchoRun_plain (e := .thread i) nofun hsucceeds hhands, hs']
      exact .keeps _ _ r.handed hsucceeds hinv'

/-! ### Every run -/

theorem timeoutOnce_step_iff (r : EchoRun) (e : MqttEvent) (h : HandedInv r ∧ TimeoutOnce r) :
    TimeoutOnce (stepEchoRun cfg r e) ↔ ThirdInTime r e := by
  obtain ⟨hinv, honce⟩ := h
  have hstep := stepEchoRun_stretch cfg r e
  generalize stepEchoRun cfg r e = r' at hstep ⊢
  cases hstep with
  | echo payload s hinv' => exact iff_of_true rfl nofun
  | keeps e s handed he hinv' =>
    rw [ThirdInTime, he]
    exact iff_of_true honce nofun
  | succeeds e s he hinv' =>
    rw [ThirdInTime, he, ← echoTimeout_iff hinv]
    rw [TimeoutOnce] at honce
    -- the publish counts one exactly if it is the third to succeed
    show r.timeouts + (if r.sys.vars.echoTimeout = true then 1 else 0)
      = (if 3 ≤ r.succeeded + 1 then 1 else 0) ↔ _
    rw [honce]
    cases r.sys.vars.echoTimeout with
    | true =>
      simp only [if_true, iff_true, forall_const]
      split
      · split
        · omega
        · omega
      · split
        · omega
        · omega
    | false =>
      simp only [Bool.false_eq_true, if_false, iff_false, forall_const]
      split
      · split
        · omega
        · omega
      · split
        · omega
        · omega

theorem handedInv_step (r : EchoRun) (e : MqttEvent) (hinv : HandedInv r) :
    HandedInv (stepEchoRun cfg r e) := by
  have hstep := stepEchoRun_stretch cfg r e
  generalize stepEchoRun cfg r e = r' at hstep ⊢
  cases hstep with
  | echo payload s hinv' => exact hinv'
  | succeeds e s he hinv' => exact hinv' hinv
  | keeps e s handed he hinv' => exact hinv' hinv

variable (cfg)

/-- **When the echo timeout is counted once.**  In a run of the client every stretch without an echo has
counted it once if three publishes have succeeded, and not at all otherwise, after every step, if and only
if every third success is the third message of its stretch, with a number above three, and every such
success the third. -/
theorem timeout_once_iff (es : List MqttEvent) :
    Runs.EachStep (stepEchoRun cfg) (fun r e => TimeoutOnce (stepEchoRun cfg r e)) EchoRun.boot es ↔
      Runs.EachStep (stepEchoRun cfg) ThirdInTime EchoRun.boot es := by
  have hboot : HandedInv EchoRun.boot ∧ TimeoutOnce EchoRun.boot := ⟨rfl, rfl⟩
  have hstep : ∀ r e, HandedInv r ∧ TimeoutOnce r → TimeoutOnce (stepEchoRun cfg r e) →
      HandedInv (stepEchoRun cfg r e) ∧ TimeoutOnce (stepEchoRun cfg r e) :=
    fun r e h honce => ⟨handedInv_step r e h.1, honce⟩
  exact Runs.eachStep_iff_of_invariant hstep timeoutOnce_step_iff es _ hboot

/-- **A timeout that is not counted.**  The first message is echoed, the next two are not, the fourth
fails and the fifth succeeds. -/
theorem failed_publish_hides_timeout :
    ¬ Runs.EachStep (stepEchoRun sampleConfig)
      (fun r e => TimeoutOnce (stepEchoRun sampleConfig r e)) EchoRun.boot
      (connectedClient ++ onePublish 0 ++ [.onMqttPublish [49]] ++ nextPublish ++ onePublish 0
        ++ nextPublish ++ onePublish 0 ++ nextPublish ++ onePublish (-5) ++ nextPublish
        ++ onePublish 0) := by
  decide +kernel

end WifiMemfault.MqttEchoTimeout
