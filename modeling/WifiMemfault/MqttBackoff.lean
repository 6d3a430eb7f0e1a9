import WifiMemfault.MqttThread

/-!
# The wait between two connection attempts

The documented backoff counts consecutive failed attempts.  The thread counts those that `mqtt_do_connect`
reports to it; an attempt that `mqtt_helper_connect` has accepted resets its counter, and when a callback
reports the failure the thread is in its poll of 500 ms and tries again.

`AttemptLog` counts the failures as the documentation does, and `SyncFailures` is the condition under
which the thread waits as documented: every attempt fails before `mqtt_helper_connect` returns zero, and
the shift of `mqtt_backoff_sec` stays in range.
-/

namespace WifiMemfault.MqttBackoff

open MqttClient MqttThread

/-- The documented delay after the `k`-th consecutive failed attempt, in seconds. -/
def docBackoffSec (k : ℕ) : ℕ := if k ≤ 3 then 5 else min (30 * 2 ^ (k - 4)) 300

/-- The connection attempts so far.  One that fails before it reaches `mqtt_helper_connect` counts. -/
@[ext] structure AttemptLog where
  /-- The attempts that have failed since the last accepted CONNACK. -/
  failures : ℕ
  /-- When the last of them failed. -/
  failedAt : Option ℕ
  /-- An attempt has begun and not failed. -/
  pending : Bool
  deriving DecidableEq, Repr

def AttemptLog.fresh : AttemptLog := ⟨0, none, false⟩

def AttemptLog.fail (l : AttemptLog) (now : ℕ) : AttemptLog := ⟨l.failures + 1, some now, false⟩

/-- The record after a callback that reports a failure. -/
def AttemptLog.reported (l : AttemptLog) (now : ℕ) : AttemptLog :=
  if l.pending then l.fail now else l

/-- The device and the attempts it has made. -/
structure Watched where
  sys : MqttSystem
  log : AttemptLog

variable (cfg : MqttConfig)

/-- In this step the thread calls `mqtt_helper_connect`. -/
def callsConnect (s : MqttSystem) : MqttEvent → Bool
  | .thread i =>
    match s.pc with
    | .doConnect _ => (s.vars.mqttDoConnect cfg i.hwIdErr i.clientId).1 = none
    | _ => false
  | _ => false

/-- What one event does to the record of attempts. -/
def logAttempt (s : MqttSystem) (l : AttemptLog) : MqttEvent → AttemptLog
  | .thread i =>
    match s.pc with
    | .doConnect _ =>
      if s.vars.currentState ≠ .disconnected then l
      else if (s.vars.mqttDoConnect cfg i.hwIdErr i.clientId).1 = none then { l with pending := true }
      else l.fail s.now
    | .helperConnect _ => if i.helperErr ≠ 0 ∧ l.pending = true then l.fail s.now else l
    | _ => l
  | .onMqttConnack returnCode =>
    if returnCode = 0 then .fresh else l.reported s.now
  | .onMqttDisconnect _ => l.reported s.now
  | _ => l

def stepWatched (w : Watched) (e : MqttEvent) : Watched :=
  ⟨stepMqtt cfg w.sys e, logAttempt cfg w.sys w.log e⟩

def Watched.boot : Watched := ⟨MqttSystem.boot, .fresh⟩

/-- The network stays ready, and no CONNACK accepts the connection. -/
def NeverAccepted (_w : Watched) : MqttEvent → Prop
  | .notifyDisconnected => False
  | .onMqttConnack returnCode => returnCode ≠ 0
  | _ => True

/-- `mqtt_helper_connect` is called no earlier than the documented backoff after the last failure. -/
def WaitsBackoff (w : Watched) (e : MqttEvent) : Prop :=
  callsConnect cfg w.sys e = true →
    ∀ t ∈ w.log.failedAt, t + kSeconds (docBackoffSec w.log.failures) ≤ w.sys.now

/-- The attempts that the backoff of 32 bits is computed right for. -/
def maxFailures : ℕ := 34

/-- The thread is about to call `mqtt_do_connect`. -/
def atDoConnect : MqttPc → Bool
  | .doConnect _ => true
  | _ => false

def inHelperConnect : MqttPc → Bool
  | .helperConnect _ => true
  | _ => false

/-- The thread gets to see every failure: no error is `-EINPROGRESS`, and no callback reports the failure
of an attempt that `mqtt_helper_connect` has accepted.  It is not called after more than 34 failures. -/
def SyncFailures (w : Watched) : MqttEvent → Prop
  | .thread i =>
    (atDoConnect w.sys.pc = true → i.hwIdErr ≠ einprogress ∧
      (callsConnect cfg w.sys (.thread i) = true → w.log.failures ≤ maxFailures)) ∧
    (inHelperConnect w.sys.pc = true →
      i.helperErr ≠ einprogress ∧ (i.helperErr = 0 → w.log.pending = true))
  | .onMqttConnack _ | .onMqttDisconnect _ =>
    w.log.pending = true → inHelperConnect w.sys.pc = true
  | _ => True

instance (w : Watched) (e : MqttEvent) : Decidable (NeverAccepted w e) :=
  match e with
  | .notifyDisconnected => inferInstanceAs (Decidable False)
  | .onMqttConnack _ => inferInstanceAs (Decidable (_ ≠ _))
  | .elapse _ | .thread _ | .notifyConnected | .onMqttDisconnect _ | .onMqttPublish _
  | .onMqttSuback _ _ => inferInstanceAs (Decidable True)

instance (w : Watched) (e : MqttEvent) : Decidable (WaitsBackoff cfg w e) :=
  inferInstanceAs (Decidable (_ → ∀ t ∈ w.log.failedAt, _))

instance (w : Watched) (e : MqttEvent) : Decidable (SyncFailures cfg w e) :=
  match e with
  | .thread _ => inferInstanceAs (Decidable ((_ → _ ∧ (_ → _)) ∧ (_ → _ ∧ (_ → _))))
  | .onMqttConnack _ | .onMqttDisconnect _ => inferInstanceAs (Decidable (_ → _))
  | .elapse _ | .notifyConnected | .notifyDisconnected | .onMqttPublish _ | .onMqttSuback _ _ =>
    inferInstanceAs (Decidable True)

/-! ### The delay in 32 bits -/

/-- Up to 34 failures the delay is the documented one. -/
theorem mqttBackoffSec_doc (k : ℕ) (hk : k ≤ maxFailures) :
    ∃ d, mqttBackoffSec k = some d ∧ d.toNat = docBackoffSec k := by
  have hall : ∀ k < 35, (mqttBackoffSec k).map UInt32.toNat = some (docBackoffSec k) := by
    decide +kernel
  exact Option.map_eq_some_iff.mp (hall k (Nat.lt_succ_of_le hk))

/-! ### The invariant -/

/-- The thread is in its connect loop after `retryCount` failures, and may try again at `time`. -/
structure Waiting (w : Watched) (retryCount time : ℕ) : Prop where
  state : w.sys.vars.currentState = .disconnected
  pending : w.log.pending = false
  failures : w.log.failures = retryCount
  wait : retryCount ≤ maxFailures →
    ∀ t ∈ w.log.failedAt, t + kSeconds (docBackoffSec retryCount) ≤ time

/-- An attempt has been accepted and has not failed. -/
structure Accepted (w : Watched) : Prop where
  state : w.sys.vars.currentState = .connecting
  pending : w.log.pending = true

/-- The thread is in its connect loop. -/
def Connecting (w : Watched) (retryCount time : ℕ) : Prop :=
  w.sys.runs = true ∧ (Waiting w retryCount time ∨ Accepted w)

/-- The thread is in `mqtt_helper_connect` after `retryCount` failures.  A callback may have reported
another one. -/
structure Calling (w : Watched) (retryCount : ℕ) : Prop where
  runs : w.sys.runs = true
  state : w.sys.vars.currentState =
    if w.log.pending then .connecting else .disconnected
  failures : w.log.failures = if w.log.pending then retryCount else retryCount + 1
  past : w.log.pending = false → ∀ t ∈ w.log.failedAt, t ≤ w.sys.now

/-- The thread has not tried to connect yet. -/
def Untried (w : Watched) : Prop := w.sys.vars.currentState = .disconnected ∧ w.log = .fresh

/-- What the place of the thread says about the attempts. -/
inductive Stage where
  | untried
  | connecting (retryCount time : ℕ)
  | calling (retryCount : ℕ)
  /-- Without an accepted connection the thread never gets there. -/
  | never

def stage (now : ℕ) : MqttPc → Stage
  | .connectTest retryCount | .doConnect retryCount => .connecting retryCount now
  | .connectSleep retryCount wake => .connecting retryCount wake
  | .helperConnect retryCount => .calling retryCount
  | .publishTest | .publish | .helperPublish | .publishSleep _ | .brokerTest | .brokerSleep _ => .never
  | .helperInit | .semTake _ | .networkTest | .resolverSleep _ | .dnsTest _ | .dnsCheck _
  | .dnsSleep _ _ | .dnsDone | .initialSleep _ | .initialDone | .mainLoop | .mainExit | .exited =>
    .untried

def InvAt (w : Watched) : Stage → Prop
  | .untried => Untried w
  | .connecting retryCount time => Connecting w retryCount time
  | .calling retryCount => Calling w retryCount
  | .never => False

def BackoffInv (w : Watched) : Prop := InvAt w (stage w.sys.now w.sys.pc)

theorem backoffInv_boot : BackoffInv Watched.boot := ⟨rfl, rfl⟩

/-! ### The steps beside the thread -/

/-- The variables the connect loop looks at are the same. -/
structure SameConnection (v v' : MqttVars) : Prop where
  state : v'.currentState = v.currentState
  running : v'.mqttClientRunning = v.mqttClientRunning
  ready : v'.networkReady = v.networkReady

theorem onMqttPublish_same (v : MqttVars) (payload : List UInt8) :
    SameConnection v (v.onMqttPublish payload) := by
  simp only [MqttVars.onMqttPublish]
  split
  · exact ⟨rfl, rfl, rfl⟩
  · exact ⟨rfl, rfl, rfl⟩

theorem onMqttSuback_same (v : MqttVars) (messageId : ℕ) (result : ℤ) :
    SameConnection v (v.onMqttSuback messageId result) := by
  simp only [MqttVars.onMqttSuback]
  split
  · exact ⟨rfl, rfl, rfl⟩
  · exact ⟨rfl, rfl, rfl⟩

variable {cfg} {w : Watched}

/-- Nothing else of the variables matters. -/
theorem invAt_same {st : Stage} (hinv : InvAt w st) (v : MqttVars) (h : SameConnection w.sys.vars v) :
    InvAt ⟨{ w.sys with vars := v }, w.log⟩ st := by
  have hruns : MqttSystem.runs { w.sys with vars := v } = w.sys.runs := by
    simp only [MqttSystem.runs, h.running, h.ready]
  cases st with
  | untried => exact ⟨h.state.trans hinv.1, hinv.2⟩
  | connecting retryCount time =>
    obtain ⟨hr, hwait | hacc⟩ := hinv
    · exact ⟨hruns.trans hr,
        Or.inl ⟨h.state.trans hwait.state, hwait.pending, hwait.failures, hwait.wait⟩⟩
    · exact ⟨hruns.trans hr, Or.inr ⟨h.state.trans hacc.state, hacc.pending⟩⟩
  | calling retryCount =>
    exact ⟨hruns.trans hinv.runs, h.state.trans hinv.state, hinv.failures, hinv.past⟩
  | never => exact hinv

/-- WiFi connects: nothing changes once the network is ready. -/
theorem notifyConnected_inv {st : Stage} (hinv : InvAt w st) :
    InvAt ⟨{ w.sys with vars := w.sys.vars.appMqttClientNotifyConnected }, w.log⟩ st := by
  have hsame : w.sys.runs = true → w.sys.vars.appMqttClientNotifyConnected = w.sys.vars := by
    intro hr
    obtain ⟨-, hready⟩ : w.sys.vars.mqttClientRunning = true ∧ w.sys.vars.networkReady = true := by
      simpa [MqttSystem.runs] using hr
    simp [MqttVars.appMqttClientNotifyConnected, hready]
  cases st with
  | untried =>
    refine ⟨?_, hinv.2⟩
    show (w.sys.vars.appMqttClientNotifyConnected).currentState = _
    rw [MqttVars.appMqttClientNotifyConnected]
    split
    · exact hinv.1
    · exact hinv.1
  | connecting retryCount time =>
    rw [hsame hinv.1]
    exact hinv
  | calling retryCount =>
    rw [hsame hinv.runs]
    exact hinv
  | never => exact hinv

/-- A callback reports a failure: it is news only while the thread is in `mqtt_helper_connect`. -/
theorem reported_inv {st : Stage} (hinv : InvAt w st)
    (hsync : w.log.pending = true → ∃ retryCount, st = .calling retryCount) :
    InvAt ⟨{ w.sys with vars := { w.sys.vars with currentState := .disconnected } },
      w.log.reported w.sys.now⟩ st := by
  cases hp : w.log.pending with
  | false =>
    have hlog : w.log.reported w.sys.now = w.log := by
      rw [AttemptLog.reported, hp, if_neg Bool.false_ne_true]
    rw [hlog]
    cases st with
    | untried => exact ⟨rfl, hinv.2⟩
    | connecting retryCount time =>
      obtain ⟨hr, hwait | hacc⟩ := hinv
      · exact ⟨hr, Or.inl ⟨rfl, hwait.pending, hwait.failures, hwait.wait⟩⟩
      · rw [hacc.pending] at hp
        cases hp
    | calling retryCount =>
      refine ⟨hinv.runs, ?_, hinv.failures, hinv.past⟩
      show AppMqttClientState.disconnected = if w.log.pending then _ else _
      rw [hp, if_neg Bool.false_ne_true]
    | never => exact hinv
  | true =>
    obtain ⟨retryCount, rfl⟩ := hsync hp
    have hlog : w.log.reported w.sys.now = w.log.fail w.sys.now := by
      rw [AttemptLog.reported, hp, if_pos rfl]
    have hfail := hinv.failures
    rw [hp, if_pos rfl] at hfail
    rw [hlog]
    refine ⟨hinv.runs, rfl, congrArg (· + 1) hfail, fun _ t ht => ?_⟩
    cases ht
    exact Nat.le_refl _

/-- Only the two points before an attempt depend on the time. -/
theorem stage_later (now ms : ℕ) (pc : MqttPc) :
    stage (now + ms) pc = stage now pc ∨ ∃ retryCount,
      stage now pc = .connecting retryCount now ∧
        stage (now + ms) pc = .connecting retryCount (now + ms) := by
  cases pc with
  | connectTest retryCount => exact Or.inr ⟨retryCount, rfl, rfl⟩
  | doConnect retryCount => exact Or.inr ⟨retryCount, rfl, rfl⟩
  | _ => exact Or.inl rfl

/-- The same attempts, seen later. -/
theorem connecting_later {w w' : Watched} {retryCount time time' : ℕ} (htime : time ≤ time')
    (h : Connecting w retryCount time) (hvars : w'.sys.vars = w.sys.vars) (hlog : w'.log = w.log) :
    Connecting w' retryCount time' := by
  obtain ⟨hr, hwait | hacc⟩ := h
  · refine ⟨by rw [MqttSystem.runs, hvars]; exact hr, Or.inl ⟨?_, ?_, ?_, fun hmax t ht => ?_⟩⟩
    · rw [hvars]
      exact hwait.state
    · rw [hlog]
      exact hwait.pending
    · rw [hlog]
      exact hwait.failures
    · rw [hlog] at ht
      exact Nat.le_trans (hwait.wait hmax t ht) htime
  · refine ⟨by rw [MqttSystem.runs, hvars]; exact hr, Or.inr ⟨?_, ?_⟩⟩
    · rw [hvars]
      exact hacc.state
    · rw [hlog]
      exact hacc.pending

theorem invAt_later {st : Stage} (hinv : InvAt w st) (ms : ℕ) :
    InvAt ⟨{ w.sys with now := w.sys.now + ms }, w.log⟩ st := by
  cases st with
  | untried => exact hinv
  | connecting retryCount time => exact connecting_later (Nat.le_refl time) hinv rfl rfl
  | calling retryCount =>
    refine ⟨hinv.runs, hinv.state, hinv.failures, fun hp t ht => ?_⟩
    exact Nat.le_trans (hinv.past hp t ht) (Nat.le_add_right _ _)
  | never => exact hinv

/-- Time passes. -/
theorem elapse_inv (hinv : BackoffInv w) (ms : ℕ) :
    BackoffInv ⟨{ w.sys with now := w.sys.now + ms }, w.log⟩ := by
  rw [BackoffInv] at hinv ⊢
  show InvAt _ (stage (w.sys.now + ms) w.sys.pc)
  rcases stage_later w.sys.now ms w.sys.pc with hsame | ⟨retryCount, hbefore, hafter⟩
  · rw [hsame]
    exact invAt_later hinv ms
  · rw [hbefore] at hinv
    rw [hafter]
    exact connecting_later (Nat.le_add_right _ _) hinv rfl rfl

/-! ### The steps of the thread -/

theorem untried_at {now : ℕ} {v : MqttVars} {pc : MqttPc} {log : AttemptLog}
    (hv : v.currentState = .disconnected) (hlog : log = .fresh) (hpc : stage now pc = .untried) :
    BackoffInv ⟨⟨now, v, pc⟩, log⟩ := by
  show InvAt _ (stage now pc)
  rw [hpc]
  exact ⟨hv, hlog⟩

/-- Back at the head of the outer loop without an attempt. -/
theorem loopHead_inv {s : MqttSystem} {v : MqttVars} {log : AttemptLog}
    (hv : v.currentState = .disconnected) (hlog : log = .fresh) :
    BackoffInv ⟨s.loopHead cfg v, log⟩ := by
  refine untried_at hv hlog ?_
  cases v.mqttClientRunning with
  | true => rfl
  | false => rfl

theorem recordIfSeen_state (s : MqttSystem) :
    s.recordIfSeen.currentState = s.vars.currentState := by
  rw [MqttSystem.recordIfSeen]
  split
  · rfl
  · rfl

/-- The thread before its connect loop. -/
theorem untried_step (hun : Untried w) (hst : stage w.sys.now w.sys.pc = .untried) (i : ThreadInput) :
    BackoffInv (stepWatched cfg w (.thread i)) := by
  obtain ⟨⟨now, vars, pc⟩, log⟩ := w
  obtain ⟨hstate, hlog⟩ := hun
  cases pc with
  | connectTest retryCount => cases hst
  | doConnect retryCount => cases hst
  | connectSleep retryCount wake => cases hst
  | helperConnect retryCount => cases hst
  | publishTest => cases hst
  | publish => cases hst
  | helperPublish => cases hst
  | publishSleep wake => cases hst
  | brokerTest => cases hst
  | brokerSleep wake => cases hst
  | helperInit =>
    show BackoffInv ⟨if i.helperErr ≠ 0 then _ else _, log⟩
    split
    · exact untried_at hstate hlog rfl
    · exact loopHead_inv hstate hlog
  | semTake timeout =>
    show BackoffInv ⟨if _ then _ else _, log⟩
    split
    · exact untried_at hstate hlog rfl
    · refine untried_at hstate hlog ?_
      cases vars.mqttClientRunning with
      | true => rfl
      | false => rfl
  | networkTest =>
    show BackoffInv ⟨if _ then _ else _, log⟩
    split
    · exact untried_at hstate hlog rfl
    · exact loopHead_inv ((recordIfSeen_state _).trans hstate) hlog
  | resolverSleep wake =>
    show BackoffInv ⟨if _ then _ else _, log⟩
    split
    · exact untried_at hstate hlog rfl
    · exact untried_at hstate hlog rfl
  | dnsTest dnsWaitTime =>
    refine untried_at hstate hlog ?_
    cases vars.networkReady with
    | true => rfl
    | false => rfl
  | dnsCheck dnsWaitTime =>
    show BackoffInv ⟨if _ then _ else _, log⟩
    split
    · exact untried_at hstate hlog rfl
    · exact untried_at hstate hlog rfl
  | dnsSleep dnsWaitTime wake =>
    show BackoffInv ⟨if _ then _ else _, log⟩
    split
    · exact untried_at hstate hlog rfl
    · exact untried_at hstate hlog rfl
  | dnsDone =>
    show BackoffInv ⟨if _ then _ else _, log⟩
    split
    · exact loopHead_inv hstate hlog
    · refine untried_at hstate hlog ?_
      split
      · rfl
      · rfl
  | initialSleep wake =>
    show BackoffInv ⟨if _ then _ else _, log⟩
    split
    · exact untried_at hstate hlog rfl
    · exact untried_at hstate hlog rfl
  | initialDone =>
    show BackoffInv ⟨if _ then _ else _, log⟩
    split
    · exact loopHead_inv hstate hlog
    · exact untried_at hstate hlog rfl
  | mainLoop =>
    show BackoffInv ⟨⟨now, vars, if MqttSystem.runs ⟨now, vars, .mainLoop⟩ then _ else _⟩, log⟩
    split
    · rename_i hruns
      subst hlog
      refine ⟨hruns, Or.inl ⟨hstate, rfl, rfl, fun _ t ht => ?_⟩⟩
      cases ht
    · exact untried_at hstate hlog rfl
  | mainExit => exact loopHead_inv ((recordIfSeen_state _).trans hstate) hlog
  | exited => exact untried_at hstate hlog rfl

/-- The connect loop after an attempt that failed with a visible error. -/
theorem connectReturned_inv {s : MqttSystem} {v : MqttVars} {log : AttemptLog} {retryCount : ℕ}
    (i : ThreadInput) {err : ℤ} (hruns : MqttSystem.runs { s with vars := v } = true)
    (hv : v.currentState = .disconnected) (hpending : log.pending = false)
    (hfailures : log.failures = retryCount + 1) (hpast : ∀ t ∈ log.failedAt, t ≤ s.now)
    (hne : err ≠ 0) (hin : err ≠ einprogress) :
    BackoffInv ⟨s.connectReturned retryCount i err v, log⟩ := by
  rw [MqttSystem.connectReturned, if_neg hin, if_pos hne]
  refine ⟨hruns, Or.inl ⟨hv, hpending, hfailures, fun hmax t ht => ?_⟩⟩
  obtain ⟨d, hd, hdoc⟩ := mqttBackoffSec_doc (retryCount + 1) hmax
  have hle := hpast t ht
  rw [hd, Option.getD_some, hdoc]
  omega

/-- Where `mqtt_do_connect` gets to from a disconnected client. -/
structure DoConnectSpec (v : MqttVars) (hwIdErr : ℤ) (r : Option ℤ × MqttVars) : Prop where
  running : r.2.mqttClientRunning = v.mqttClientRunning
  ready : r.2.networkReady = v.networkReady
  calls : r.1 = none → r.2.currentState = .connecting
  fails : ∀ err, r.1 = some err →
    err ≠ 0 ∧ (hwIdErr ≠ einprogress → err ≠ einprogress) ∧ r.2.currentState = .disconnected

theorem mqttDoConnect_disconnected {v : MqttVars} (hv : v.currentState = .disconnected) (hwIdErr : ℤ)
    (clientId : List UInt8) : DoConnectSpec v hwIdErr (v.mqttDoConnect cfg hwIdErr clientId) := by
  rw [MqttVars.mqttDoConnect, hv]
  simp only [MqttVars.setupTopics]
  split
  · rename_i hhw
    refine ⟨rfl, rfl, nofun, fun err h => ?_⟩
    cases h
    exact ⟨hhw, id, rfl⟩
  · split
    · refine ⟨rfl, rfl, nofun, fun err h => ?_⟩
      cases h
      exact ⟨by decide, fun _ => by decide, rfl⟩
    · exact ⟨rfl, rfl, fun _ => rfl, fun err h => by cases h⟩

theorem doConnect_eq (now retryCount : ℕ) (v : MqttVars) (log : AttemptLog) (i : ThreadInput) :
    stepWatched cfg ⟨⟨now, v, .doConnect retryCount⟩, log⟩ (.thread i) =
      ⟨match v.mqttDoConnect cfg i.hwIdErr i.clientId with
        | (some err, v') => MqttSystem.connectReturned ⟨now, v, .doConnect retryCount⟩ retryCount i err v'
        | (none, v') => ⟨now, v', .helperConnect retryCount⟩,
      if v.currentState ≠ .disconnected then log
      else if (v.mqttDoConnect cfg i.hwIdErr i.clientId).1 = none then { log with pending := true }
      else log.fail now⟩ :=
  rfl

theorem doConnect_step {now retryCount : ℕ} {v : MqttVars} {log : AttemptLog} (i : ThreadInput)
    (hinv : BackoffInv ⟨⟨now, v, .doConnect retryCount⟩, log⟩) (hhw : i.hwIdErr ≠ einprogress) :
    BackoffInv (stepWatched cfg ⟨⟨now, v, .doConnect retryCount⟩, log⟩ (.thread i)) := by
  obtain ⟨hruns, ⟨hstate, hpending, hfailures, -⟩ | ⟨hstate, hpending⟩⟩ := hinv
  · have hv : v.currentState = .disconnected := hstate
    have hspec : DoConnectSpec v i.hwIdErr (v.mqttDoConnect cfg i.hwIdErr i.clientId) :=
      mqttDoConnect_disconnected hv i.hwIdErr i.clientId
    rw [doConnect_eq, if_neg (not_not.mpr hv)]
    generalize v.mqttDoConnect cfg i.hwIdErr i.clientId = r at hspec
    obtain ⟨o, v'⟩ := r
    have hruns' : ∀ pc, MqttSystem.runs ⟨now, v', pc⟩ = true := by
      intro pc
      have h : (v'.mqttClientRunning && v'.networkReady) = true := by
        rw [hspec.running, hspec.ready]
        exact hruns
      exact h
    cases o with
    | none => exact ⟨hruns' _, hspec.calls rfl, hfailures, nofun⟩
    | some err =>
      obtain ⟨hne, hin, hv'⟩ := hspec.fails err rfl
      refine connectReturned_inv i (hruns' _) hv' rfl (congrArg (· + 1) hfailures) (fun t ht => ?_) hne
        (hin hhw)
      cases ht
      exact Nat.le_refl _
  · have hv : v.currentState = .connecting := hstate
    have hdo : v.mqttDoConnect cfg i.hwIdErr i.clientId = (some einprogress, v) := by
      rw [MqttVars.mqttDoConnect, hv]
    rw [doConnect_eq, hdo, if_pos (by rw [hv]; exact nofun)]
    exact ⟨hruns, Or.inr ⟨hstate, hpending⟩⟩

theorem helperConnect_step {now retryCount : ℕ} {v : MqttVars} {log : AttemptLog} (i : ThreadInput)
    (hinv : BackoffInv ⟨⟨now, v, .helperConnect retryCount⟩, log⟩)
    (hin : i.helperErr ≠ einprogress) (hzero : i.helperErr = 0 → log.pending = true) :
    BackoffInv (stepWatched cfg ⟨⟨now, v, .helperConnect retryCount⟩, log⟩ (.thread i)) := by
  obtain ⟨hruns, hstate, hfailures, hpast⟩ := hinv
  show BackoffInv ⟨MqttSystem.connectReturned _ retryCount i i.helperErr (v.mqttHelperConnected i.helperErr),
    if i.helperErr ≠ 0 ∧ log.pending = true then log.fail now else log⟩
  by_cases herr : i.helperErr = 0
  · have hpending := hzero herr
    have hstate' : v.currentState = if log.pending then .connecting else .disconnected := hstate
    rw [hpending, if_pos rfl] at hstate'
    rw [herr, MqttSystem.connectReturned, if_neg (by decide), if_neg (by decide), if_neg (by simp),
      MqttVars.mqttHelperConnected, if_neg (by simp)]
    exact ⟨hruns, Or.inr ⟨hstate', hpending⟩⟩
  · rw [MqttVars.mqttHelperConnected, if_pos herr]
    cases hp : log.pending with
    | true =>
      have hf : log.failures = retryCount := by
        have h : log.failures = if log.pending then _ else _ := hfailures
        rw [hp, if_pos rfl] at h
        exact h
      rw [if_pos ⟨herr, rfl⟩]
      refine connectReturned_inv i hruns rfl rfl (congrArg (· + 1) hf) (fun t ht => ?_) herr hin
      cases ht
      exact Nat.le_refl _
    | false =>
      have hf : log.failures = retryCount + 1 := by
        have h : log.failures = if log.pending then _ else _ := hfailures
        rw [hp, if_neg Bool.false_ne_true] at h
        exact h
      rw [if_neg (fun h => Bool.false_ne_true h.2)]
      exact connectReturned_inv i hruns rfl hp hf (hpast hp) herr hin

theorem connecting_state {w : Watched} {retryCount time : ℕ} (h : Connecting w retryCount time) :
    w.sys.vars.currentState ≠ .connected := by
  obtain ⟨-, hwait | hacc⟩ := h
  · rw [hwait.state]
    exact nofun
  · rw [hacc.state]
    exact nofun

theorem thread_inv (w : Watched) (i : ThreadInput) (hinv : BackoffInv w)
    (hsync : SyncFailures cfg w (.thread i)) : BackoffInv (stepWatched cfg w (.thread i)) := by
  by_cases hst : stage w.sys.now w.sys.pc = .untried
  · have huntried : Untried w := by
      rw [BackoffInv, hst] at hinv
      exact hinv
    exact untried_step huntried hst i
  obtain ⟨⟨now, v, pc⟩, log⟩ := w
  cases pc with
  | connectTest retryCount =>
    have hconn : Connecting ⟨⟨now, v, .connectTest retryCount⟩, log⟩ retryCount now := hinv
    have hpc : MqttSystem.threadStep cfg ⟨now, v, .connectTest retryCount⟩ i
        = ⟨now, v, .doConnect retryCount⟩ := by
      show (⟨now, v, if _ then _ else _⟩ : MqttSystem) = _
      rw [if_pos ⟨hconn.1, connecting_state hconn⟩]
    show BackoffInv ⟨MqttSystem.threadStep cfg ⟨now, v, .connectTest retryCount⟩ i, log⟩
    rw [hpc]
    exact connecting_later (Nat.le_refl now) hconn rfl rfl
  | doConnect retryCount => exact doConnect_step i hinv (hsync.1 rfl).1
  | helperConnect retryCount =>
    obtain ⟨hin, hzero⟩ := hsync.2 rfl
    exact helperConnect_step i hinv hin hzero
  | connectSleep retryCount wake =>
    show BackoffInv ⟨if now < wake then _ else _, log⟩
    split
    · exact hinv
    · rename_i hwake
      have hconn : Connecting ⟨⟨now, v, .connectSleep retryCount wake⟩, log⟩ retryCount wake := hinv
      exact connecting_later (Nat.le_of_not_lt hwake) hconn rfl rfl
  | publishTest => exact hinv.elim
  | publish => exact hinv.elim
  | helperPublish => exact hinv.elim
  | publishSleep wake => exact hinv.elim
  | brokerTest => exact hinv.elim
  | brokerSleep wake => exact hinv.elim
  -- what is left comes before the connect loop
  | _ => exact absurd rfl hst

theorem calling_of_inHelperConnect {pc : MqttPc} (now : ℕ) (h : inHelperConnect pc = true) :
    ∃ retryCount, stage now pc = .calling retryCount := by
  cases pc with
  | helperConnect retryCount => exact ⟨retryCount, rfl⟩
  | _ => cases h

theorem backoffInv_step (w : Watched) (e : MqttEvent) (hinv : BackoffInv w)
    (hscope : NeverAccepted w e ∧ SyncFailures cfg w e) : BackoffInv (stepWatched cfg w e) := by
  obtain ⟨hnever, hsync⟩ := hscope
  cases e with
  | elapse ms => exact elapse_inv hinv ms
  | thread i => exact thread_inv w i hinv hsync
  | notifyConnected => exact notifyConnected_inv hinv
  | notifyDisconnected => exact hnever.elim
  | onMqttConnack returnCode =>
    have hne : returnCode ≠ 0 := hnever
    show BackoffInv ⟨{ w.sys with vars := w.sys.vars.onMqttConnack returnCode },
      if returnCode = 0 then .fresh else w.log.reported w.sys.now⟩
    rw [MqttVars.onMqttConnack, if_pos hne, if_neg hne]
    exact reported_inv hinv fun hp => calling_of_inHelperConnect _ (hsync hp)
  | onMqttDisconnect result =>
    exact reported_inv hinv fun hp => calling_of_inHelperConnect _ (hsync hp)
  | onMqttPublish payload => exact invAt_same hinv _ (onMqttPublish_same _ payload)
  | onMqttSuback messageId result => exact invAt_same hinv _ (onMqttSuback_same _ messageId result)

/-- At a call the wait is over. -/
theorem waits_of_inv (w : Watched) (e : MqttEvent) (hinv : BackoffInv w)
    (hscope : NeverAccepted w e ∧ SyncFailures cfg w e) : WaitsBackoff cfg w e := by
  obtain ⟨-, hsync⟩ := hscope
  intro hcall t ht
  cases e with
  | thread i =>
    obtain ⟨⟨now, v, pc⟩, log⟩ := w
    cases pc with
    | doConnect retryCount =>
      obtain ⟨-, hwait | hacc⟩ := hinv
      · have hmax := (hsync.1 rfl).2 hcall
        have hfailures := hwait.failures
        rw [hfailures] at hmax ⊢
        exact hwait.wait hmax t ht
      · have hv : v.currentState = .connecting := hacc.state
        have hnone : (v.mqttDoConnect cfg i.hwIdErr i.clientId).1 = none := of_decide_eq_true hcall
        rw [MqttVars.mqttDoConnect, hv] at hnone
        cases hnone
    | _ => cases hcall
  | _ => cases hcall

variable (cfg)

/-- `mqtt_helper_connect` returns an error. -/
def refusedInput : ThreadInput := { okInput with helperErr := -111 }

/-- The connect loop from one attempt to the next, `ms` milliseconds later. -/
def nextAttempt (ms : ℕ) : List MqttEvent :=
  [.elapse ms, .thread okInput, .thread okInput, .thread okInput]

/-- Two attempts that `mqtt_helper_connect` refuses, and a third. -/
def refusedAttempts : List MqttEvent :=
  firstAttempt ++ .thread refusedInput :: nextAttempt 5000 ++ .thread refusedInput :: nextAttempt 5000

/-- An attempt that is accepted and then rejected by the broker, and the next one half a second later. -/
def rejectedAttempt : List MqttEvent :=
  firstAttempt ++ .thread okInput :: .onMqttConnack 5 :: nextAttempt 500

end WifiMemfault.MqttBackoff
