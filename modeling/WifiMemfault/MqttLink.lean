import WifiMemfault.MqttThread

/-!
# The connection state while the link is down

`app_mqtt_client_notify_disconnected` ends a connection that is there.  An attempt that
`mqtt_helper_connect` has accepted is none yet, and the code does not record it: its CONNACK sets
`APP_MQTT_STATE_CONNECTED` whenever it comes.

`LinkSystem` runs the two notifications, `mqtt_do_connect` and the callbacks of the helper in any order,
each of them one statement on the shared variables after the other.
-/

namespace WifiMemfault.MqttLink

open MqttClient
open MqttThread (sampleConfig)

/-! ### The functions in steps -/

/-- `mqtt_do_connect` up to `current_state = APP_MQTT_STATE_CONNECTING`: none if it gets there. -/
def doConnectBegin (v : MqttVars) : Option ℤ × MqttVars :=
  match v.currentState with
  | .connected => (some 0, v)
  | .connecting => (some einprogress, v)
  | .disconnected => (none, { v with currentState := .connecting })

/-- From there up to its call of `mqtt_helper_connect`. -/
def doConnectPrepare (cfg : MqttConfig) (hwIdErr : ℤ) (clientId : List UInt8) (v : MqttVars) :
    Option ℤ × MqttVars :=
  let named : MqttVars := { v with clientId := clientId }
  if hwIdErr ≠ 0 then (some hwIdErr, { named with currentState := .disconnected })
  else
    let r := named.setupTopics cfg
    if r.1 ≠ 0 then (some r.1, { r.2 with currentState := .disconnected }) else (none, r.2)

/-- Run together the two steps are `mqttDoConnect`. -/
theorem mqttDoConnect_eq (cfg : MqttConfig) (v : MqttVars) (hwIdErr : ℤ) (clientId : List UInt8) :
    v.mqttDoConnect cfg hwIdErr clientId =
      match doConnectBegin v with
      | (some err, v') => (some err, v')
      | (none, v') => doConnectPrepare cfg hwIdErr clientId v' := by
  rw [MqttVars.mqttDoConnect, doConnectBegin]
  cases v.currentState with
  | disconnected => rfl
  | connecting => rfl
  | connected => rfl

/-- The first statement of `app_mqtt_client_notify_disconnected`. -/
def notifyDisconnectedBegin (v : MqttVars) : MqttVars := { v with networkReady := false }

/-- Its last one, after `mqtt_helper_disconnect`. -/
def notifyDisconnectedEnd (v : MqttVars) : MqttVars := { v with currentState := .disconnected }

/-- Run together the steps are `appMqttClientNotifyDisconnected`. -/
theorem notifyDisconnected_eq (v : MqttVars) :
    v.appMqttClientNotifyDisconnected =
      if (notifyDisconnectedBegin v).currentState = .connected then
        notifyDisconnectedEnd (notifyDisconnectedBegin v)
      else notifyDisconnectedBegin v :=
  rfl

/-! ### The system -/

/-- Where `mqtt_do_connect` is.  The CONNACK may come before `mqtt_helper_connect` has returned. -/
inductive ConnectPc where
  | idle
  | prepare
  | helperConnect (answered : Bool)
  deriving DecidableEq, Repr

/-- Where `app_mqtt_client_notify_disconnected` is. -/
inductive NotifyPc where
  | idle
  | stateTest
  | helperDisconnect
  | setDisconnected
  deriving DecidableEq, Repr

structure LinkSystem where
  vars : MqttVars
  connect : ConnectPc
  notify : NotifyPc
  /-- The accepted attempts whose CONNACK may still come. -/
  attempts : ℕ
  /-- A notify_disconnected has completed, and no notify_connected has come since. -/
  linkDown : Bool
  deriving DecidableEq, Repr

def LinkSystem.boot : LinkSystem := ⟨MqttVars.boot, .idle, .idle, 0, false⟩

inductive LinkEvent where
  | notifyConnected
  | notifyDisconnected
  | notifyStep
  | doConnect
  /-- The next step of `mqtt_do_connect`, with what `hw_id_get` and `mqtt_helper_connect` answer. -/
  | connectStep (hwIdErr : ℤ) (clientId : List UInt8) (helperErr : ℤ)
  /-- The CONNACK of an accepted attempt. -/
  | onMqttConnack (returnCode : ℕ)
  /-- The CONNACK of the attempt `mqtt_helper_connect` is still making. -/
  | onMqttConnackEarly (returnCode : ℕ)
  | onMqttDisconnect (result : ℤ)
  deriving DecidableEq, Repr

namespace LinkSystem

variable (cfg : MqttConfig) (s : LinkSystem)

/-- The next statement of `app_mqtt_client_notify_disconnected`. -/
def notifyStep : LinkSystem :=
  match s.notify with
  | .idle => s
  | .stateTest =>
    if s.vars.currentState = .connected then { s with notify := .helperDisconnect }
    else { s with notify := .idle, linkDown := true }
  | .helperDisconnect => { s with notify := .setDisconnected, attempts := 0 }
  | .setDisconnected =>
    { s with vars := notifyDisconnectedEnd s.vars, notify := .idle, linkDown := true }

/-- The next step of `mqtt_do_connect`. -/
def connectStep (hwIdErr : ℤ) (clientId : List UInt8) (helperErr : ℤ) : LinkSystem :=
  match s.connect with
  | .idle => s
  | .prepare =>
    match doConnectPrepare cfg hwIdErr clientId s.vars with
    | (some _, v) => { s with vars := v, connect := .idle }
    | (none, v) => { s with vars := v, connect := .helperConnect false }
  | .helperConnect answered =>
    { s with
      vars := s.vars.mqttHelperConnected helperErr
      connect := .idle
      attempts := if helperErr = 0 ∧ answered = false then s.attempts + 1 else s.attempts }

end LinkSystem

/-- One event.  The notifications come from one publisher, one after the other, and one thread connects. -/
def stepLink (cfg : MqttConfig) (s : LinkSystem) : LinkEvent → LinkSystem
  | .notifyConnected =>
    if s.notify = .idle then
      { s with vars := s.vars.appMqttClientNotifyConnected, linkDown := false }
    else s
  | .notifyDisconnected =>
    if s.notify = .idle then
      { s with vars := notifyDisconnectedBegin s.vars, notify := .stateTest }
    else s
  | .notifyStep => s.notifyStep
  | .doConnect =>
    if s.connect = .idle then
      match doConnectBegin s.vars with
      | (some _, v) => { s with vars := v }
      | (none, v) => { s with vars := v, connect := .prepare }
    else s
  | .connectStep hwIdErr clientId helperErr => s.connectStep cfg hwIdErr clientId helperErr
  | .onMqttConnack returnCode =>
    if 0 < s.attempts then
      { s with vars := s.vars.onMqttConnack returnCode, attempts := s.attempts - 1 }
    else s
  | .onMqttConnackEarly returnCode =>
    if s.connect = .helperConnect false then
      { s with vars := s.vars.onMqttConnack returnCode, connect := .helperConnect true }
    else s
  | .onMqttDisconnect result => { s with vars := s.vars.onMqttDisconnect result }

/-- While the link is down the client is not connected. -/
def DownNotConnected (s : LinkSystem) : Prop :=
  s.linkDown = true → s.vars.currentState ≠ .connected

instance (s : LinkSystem) : Decidable (DownNotConnected s) := inferInstanceAs (Decidable (_ → _))

/-- The event is a CONNACK that accepts an outstanding attempt. -/
def acceptsAttempt (s : LinkSystem) : LinkEvent → Bool
  | .onMqttConnack returnCode => 0 < s.attempts ∧ returnCode = 0
  | .onMqttConnackEarly returnCode => s.connect = .helperConnect false ∧ returnCode = 0
  | _ => false

/-- No attempt is accepted while the link is down. -/
def AnsweredWhileUp (s : LinkSystem) (e : LinkEvent) : Prop :=
  acceptsAttempt s e = true → s.linkDown = false

instance (s : LinkSystem) (e : LinkEvent) : Decidable (AnsweredWhileUp s e) :=
  inferInstanceAs (Decidable (_ → _))

/-! ### One step -/

theorem onMqttConnack_state (v : MqttVars) (returnCode : ℕ) :
    (v.onMqttConnack returnCode).currentState =
      if returnCode = 0 then .connected else .disconnected := by
  rw [MqttVars.onMqttConnack]
  by_cases h : returnCode = 0
  · rw [if_neg (not_not_intro h), if_pos h]
  · rw [if_pos h, if_neg h]

theorem doConnectPrepare_state (cfg : MqttConfig) (hwIdErr : ℤ) (clientId : List UInt8) (v : MqttVars)
    (h : v.currentState ≠ .connected) :
    (doConnectPrepare cfg hwIdErr clientId v).2.currentState ≠ .connected := by
  simp only [doConnectPrepare, MqttVars.setupTopics]
  split
  · exact nofun
  · split
    · exact nofun
    · exact h

theorem mqttHelperConnected_state (v : MqttVars) (err : ℤ) (h : v.currentState ≠ .connected) :
    (v.mqttHelperConnected err).currentState ≠ .connected := by
  rw [MqttVars.mqttHelperConnected]
  split
  · exact nofun
  · exact h

variable {cfg : MqttConfig}

theorem down_notifyStep (s : LinkSystem) (h : DownNotConnected s) : DownNotConnected s.notifyStep := by
  rw [LinkSystem.notifyStep]
  cases s.notify with
  | idle => exact h
  | stateTest =>
    simp only
    split
    · exact h
    · rename_i hstate
      exact fun _ => hstate
  | helperDisconnect => exact h
  | setDisconnected => exact fun _ => nofun

theorem down_connectStep (s : LinkSystem) (hwIdErr : ℤ) (clientId : List UInt8) (helperErr : ℤ)
    (h : DownNotConnected s) : DownNotConnected (s.connectStep cfg hwIdErr clientId helperErr) := by
  rw [LinkSystem.connectStep]
  cases s.connect with
  | idle => exact h
  | prepare =>
    have hstate : s.linkDown = true →
        (doConnectPrepare cfg hwIdErr clientId s.vars).2.currentState ≠ .connected :=
      fun hdown => doConnectPrepare_state cfg hwIdErr clientId s.vars (h hdown)
    simp only
    split
    · rename_i heq
      rw [heq] at hstate
      exact hstate
    · rename_i heq
      rw [heq] at hstate
      exact hstate
  | helperConnect answered => exact fun hdown => mqttHelperConnected_state s.vars helperErr (h hdown)

/-- **Only an accepted attempt connects.** -/
theorem down_step_iff (s : LinkSystem) (e : LinkEvent) (h : DownNotConnected s) :
    DownNotConnected (stepLink cfg s e) ↔ AnsweredWhileUp s e := by
  cases e with
  | notifyConnected =>
    refine iff_of_true ?_ nofun
    rw [stepLink]
    split
    · exact nofun
    · exact h
  | notifyDisconnected =>
    refine iff_of_true ?_ nofun
    rw [stepLink]
    split
    · exact h
    · exact h
  | notifyStep => exact iff_of_true (down_notifyStep s h) nofun
  | doConnect =>
    refine iff_of_true ?_ nofun
    rw [stepLink]
    split
    · simp only [doConnectBegin]
      cases hstate : s.vars.currentState with
      | disconnected => exact fun _ => nofun
      | connecting => exact h
      | connected => exact h
    · exact h
  | connectStep hwIdErr clientId helperErr =>
    exact iff_of_true (down_connectStep s hwIdErr clientId helperErr h) nofun
  | onMqttDisconnect result => exact iff_of_true (fun _ => nofun) nofun
  | onMqttConnack returnCode =>
    rw [stepLink, AnsweredWhileUp, acceptsAttempt, decide_eq_true_iff]
    by_cases hattempts : 0 < s.attempts
    · rw [if_pos hattempts, DownNotConnected]
      show (s.linkDown = true → (s.vars.onMqttConnack returnCode).currentState ≠ .connected) ↔ _
      rw [onMqttConnack_state]
      by_cases hcode : returnCode = 0
      · simp [hcode, hattempts]
      · simp [hcode]
    · rw [if_neg hattempts]
      exact iff_of_true h fun haccept => absurd haccept.1 hattempts
  | onMqttConnackEarly returnCode =>
    rw [stepLink, AnsweredWhileUp, acceptsAttempt, decide_eq_true_iff]
    by_cases hconnect : s.connect = .helperConnect false
    · rw [if_pos hconnect, DownNotConnected]
      show (s.linkDown = true → (s.vars.onMqttConnack returnCode).currentState ≠ .connected) ↔ _
      rw [onMqttConnack_state]
      by_cases hcode : returnCode = 0
      · simp [hcode, hconnect]
      · simp [hcode]
    · rw [if_neg hconnect]
      exact iff_of_true h fun haccept => absurd haccept.1 hconnect

/-! ### Every run -/

variable (cfg)

/-- **When a client without a link is not connected.**  After every step of a run it is not, if and only
if no CONNACK accepts an outstanding attempt while the link is down. -/
theorem down_not_connected_iff (es : List LinkEvent) :
    Runs.EachStep (stepLink cfg) (fun s e => DownNotConnected (stepLink cfg s e)) LinkSystem.boot es ↔
      Runs.EachStep (stepLink cfg) AnsweredWhileUp LinkSystem.boot es := by
  have hstep : ∀ s e, DownNotConnected s → DownNotConnected (stepLink cfg s e) →
      DownNotConnected (stepLink cfg s e) := fun _ _ _ h => h
  exact Runs.eachStep_iff_of_invariant hstep down_step_iff es _ nofun

/-- The link goes down with no attempt outstanding or under way, and none is begun until it is back. -/
def SettledWhileDown (s : LinkSystem) (e : LinkEvent) : Prop :=
  (stepLink cfg s e).linkDown = true →
    (stepLink cfg s e).attempts = 0 ∧ (stepLink cfg s e).connect = .idle

/-- Such a run meets the condition. -/
theorem answeredWhileUp_of_settled (es : List LinkEvent)
    (h : Runs.EachStep (stepLink cfg) (SettledWhileDown cfg) LinkSystem.boot es) :
    Runs.EachStep (stepLink cfg) AnsweredWhileUp LinkSystem.boot es := by
  have hstep : ∀ s e, (s.linkDown = true → s.attempts = 0 ∧ s.connect = .idle) →
      SettledWhileDown cfg s e →
      ((stepLink cfg s e).linkDown = true →
        (stepLink cfg s e).attempts = 0 ∧ (stepLink cfg s e).connect = .idle) :=
    fun _ _ _ hsettled => hsettled
  refine Runs.eachStep_of_invariant hstep ?_ es _ nofun h
  intro s e hinv _ haccept
  by_contra hdown
  obtain ⟨hattempts, hconnect⟩ := hinv (Bool.not_eq_false _ ▸ hdown)
  cases e with
  | onMqttConnack returnCode =>
    have h' := (of_decide_eq_true haccept).1
    rw [hattempts] at h'
    exact absurd h' (by decide)
  | onMqttConnackEarly returnCode =>
    have h' := (of_decide_eq_true haccept).1
    rw [hconnect] at h'
    cases h'
  | notifyConnected => cases haccept
  | notifyDisconnected => cases haccept
  | notifyStep => cases haccept
  | doConnect => cases haccept
  | connectStep hwIdErr clientId helperErr => cases haccept
  | onMqttDisconnect result => cases haccept

/-- **A late CONNACK.**  The link goes down between the accepted attempt and its CONNACK. -/
theorem late_connack_connects :
    ¬ Runs.EachStep (stepLink sampleConfig)
      (fun s e => DownNotConnected (stepLink sampleConfig s e)) LinkSystem.boot
      [.notifyConnected, .doConnect, .connectStep 0 [49] 0, .connectStep 0 [49] 0, .notifyDisconnected,
        .notifyStep, .onMqttConnack 0] := by
  decide

end WifiMemfault.MqttLink
