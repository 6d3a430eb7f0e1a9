import Mathlib.Data.Int.Notation
import WifiMemfault.MemfaultCore

/-!
# The HTTPS client

The model of `app_https_client.c`: the variables the WiFi listener and the thread share, the two
notifications of the listener, and `app_https_client_thread` with its network wait, its certificate, its
DNS loop and its request loop.  Each statement of the thread or of a notification that reads or changes
shared variables is one event, so the other may come between any two of them.

What goes over the network in `send_http_request`, what `cert_provision` and `check_dns_ready` answer and
the random number are inputs.  A sleep carries the time it ends, in milliseconds.  The request counters are
unbounded here.
-/

namespace WifiMemfault.HttpsClient

open MemfaultCore (WifiMsgType)

def dnsCheckIntervalSec : ℕ := 10
def dnsTimeout : ℕ := 300

/-- `K_SECONDS`. -/
def kSeconds (s : ℕ) : ℕ := 1000 * s

/-- The configuration the client is built with. -/
structure HttpsConfig where
  requestIntervalSec : ℕ

@[ext] structure HttpsVars where
  httpsClientRunning : Bool
  networkReady : Bool
  hasSeenNetworkConnection : Bool
  httpsReqTotal : ℕ
  httpsReqFailures : ℕ
  /-- `app_https_req_total_count` and `app_https_req_fail_count`, as last reported. -/
  reqTotalMetric : ℕ
  reqFailMetric : ℕ
  httpsThreadSem : ℕ
  deriving DecidableEq, Repr

/-- After `app_https_client_init`. -/
def HttpsVars.boot : HttpsVars := ⟨true, false, false, 0, 0, 0, 0, 0⟩

namespace HttpsVars

variable (v : HttpsVars)

/-- `https_req_total++`, reported. -/
def countTotal : HttpsVars :=
  { v with httpsReqTotal := v.httpsReqTotal + 1, reqTotalMetric := v.httpsReqTotal + 1 }

/-- `https_req_failures++`, reported. -/
def countFailure : HttpsVars :=
  { v with httpsReqFailures := v.httpsReqFailures + 1, reqFailMetric := v.httpsReqFailures + 1 }

def httpsRecordFailedAttempt : HttpsVars := v.countTotal.countFailure

/-- The test of `app_https_client_notify_connected`. -/
def notifyConnectedTest : Bool := v.httpsClientRunning = true ∧ v.networkReady = false

def appHttpsClientNotifyDisconnected : HttpsVars := { v with networkReady := false }

end HttpsVars

/-- Where `app_https_client_notify_connected` is, once its test has succeeded. -/
inductive ListenerPc where
  | idle | setSeen | setReady | giveSem
  deriving DecidableEq, Repr

/-! ### The thread -/

/-- Where the thread is. -/
inductive HttpsPc where
  | start
  | semTake (timeout : ℕ)
  | networkTest
  /-- In `cert_provision`. -/
  | certProvision
  | dnsTest (dnsWaitTime : ℕ)
  | dnsCheck (dnsWaitTime : ℕ)
  | dnsSleep (dnsWaitTime wake : ℕ)
  | dnsDone
  | initialSleep (wake : ℕ)
  | initialDone
  | requestTest
  | sendRequest
  /-- In `send_http_request`, with the request counted. -/
  | requestRuns
  | requestSleep (wake : ℕ)
  | mainExit
  | exited
  deriving DecidableEq, Repr

structure HttpsSystem where
  now : ℕ
  vars : HttpsVars
  certProvisioned : Bool
  pc : HttpsPc
  listener : ListenerPc
  deriving DecidableEq, Repr

def HttpsSystem.boot : HttpsSystem := ⟨0, HttpsVars.boot, false, .start, .idle⟩

/-- What the functions outside this code answer to one step of the thread. -/
structure HttpsInput where
  /-- `cert_provision`. -/
  certErr : ℤ
  /-- `check_dns_ready`. -/
  dnsReady : Bool
  /-- `sys_rand32_get`. -/
  random : ℕ
  requestFailed : Bool
  deriving DecidableEq, Repr

variable (cfg : HttpsConfig)

def randomInitialDelaySec (random : ℕ) : ℕ := random % (cfg.requestIntervalSec + 1)

namespace HttpsSystem

variable (s : HttpsSystem)

/-- The head of the outer loop, and the wait for the network. -/
def loopHead (v : HttpsVars) : HttpsSystem :=
  { s with
    vars := v
    pc := if v.httpsClientRunning then .semTake (s.now + kSeconds cfg.requestIntervalSec)
      else .exited }

/-- `https_record_failed_attempt`, if there has been a connection. -/
def recordIfSeen : HttpsVars :=
  if s.vars.hasSeenNetworkConnection then s.vars.httpsRecordFailedAttempt else s.vars

/-- The next step of the thread calls `https_record_failed_attempt`. -/
def recordsAttempt : Bool :=
  s.vars.hasSeenNetworkConnection = true ∧
    ((s.pc = .networkTest ∧ s.vars.networkReady = false) ∨ s.pc = .mainExit)

/-- One step of `app_https_client_thread`. -/
def threadStep (i : HttpsInput) : HttpsSystem :=
  match s.pc with
  | .start => s.loopHead cfg s.vars
  | .semTake timeout =>
    if s.vars.httpsThreadSem = 0 ∧ s.now < timeout then s
    else
      { s with
        vars := { s.vars with httpsThreadSem := 0 }
        pc := if s.vars.httpsClientRunning then .networkTest else .exited }
  | .networkTest =>
    if s.vars.networkReady = false then s.loopHead cfg s.recordIfSeen
    else { s with pc := if s.certProvisioned then .dnsTest 0 else .certProvision }
  | .certProvision =>
    if i.certErr ≠ 0 then s.loopHead cfg { s.vars with networkReady := false }
    else { s with certProvisioned := true, pc := .dnsTest 0 }
  | .dnsTest dnsWaitTime =>
    { s with pc := if s.vars.networkReady then .dnsCheck dnsWaitTime else .dnsDone }
  | .dnsCheck dnsWaitTime =>
    if i.dnsReady = true ∨ dnsTimeout ≤ dnsWaitTime then { s with pc := .dnsDone }
    else { s with pc := .dnsSleep dnsWaitTime (s.now + kSeconds dnsCheckIntervalSec) }
  | .dnsSleep dnsWaitTime wake =>
    if s.now < wake then s else { s with pc := .dnsTest (dnsWaitTime + dnsCheckIntervalSec) }
  | .dnsDone =>
    if s.vars.networkReady = false then s.loopHead cfg s.vars
    else
      let initialDelay := randomInitialDelaySec cfg i.random
      { s with
        pc := if initialDelay > 0 then .initialSleep (s.now + kSeconds initialDelay)
          else .initialDone }
  | .initialSleep wake => if s.now < wake then s else { s with pc := .initialDone }
  | .initialDone =>
    if s.vars.networkReady = false then s.loopHead cfg s.vars else { s with pc := .requestTest }
  | .requestTest =>
    { s with
      pc := if s.vars.httpsClientRunning = true ∧ s.vars.networkReady = true then .sendRequest
        else .mainExit }
  | .sendRequest =>
    if s.vars.networkReady = false then
      { s with pc := .requestSleep (s.now + kSeconds cfg.requestIntervalSec) }
    else { s with vars := s.vars.countTotal, pc := .requestRuns }
  | .requestRuns =>
    { s with
      vars := if i.requestFailed then s.vars.countFailure else s.vars
      pc := .requestSleep (s.now + kSeconds cfg.requestIntervalSec) }
  | .requestSleep wake => if s.now < wake then s else { s with pc := .requestTest }
  | .mainExit => s.loopHead cfg s.recordIfSeen
  | .exited => s

/-- `app_https_wifi_listener`, for `app_https_client_notify_connected` up to its test. -/
def wifiListener : WifiMsgType → HttpsSystem
  | .wifiStaConnected => if s.vars.notifyConnectedTest then { s with listener := .setSeen } else s
  | .wifiStaDisconnected => { s with vars := s.vars.appHttpsClientNotifyDisconnected }
  | .other => s

/-- The next statement of `app_https_client_notify_connected`. -/
def listenerStep : HttpsSystem :=
  match s.listener with
  | .idle => s
  | .setSeen =>
    { s with vars := { s.vars with hasSeenNetworkConnection := true }, listener := .setReady }
  | .setReady => { s with vars := { s.vars with networkReady := true }, listener := .giveSem }
  | .giveSem => { s with vars := { s.vars with httpsThreadSem := 1 }, listener := .idle }

end HttpsSystem

inductive HttpsEvent where
  | elapse (ms : ℕ)
  | thread (i : HttpsInput)
  | wifiMsg (type : WifiMsgType)
  | listener
  deriving DecidableEq, Repr

/-- One event.  The messages come one after the other. -/
def stepHttps (s : HttpsSystem) : HttpsEvent → HttpsSystem
  | .elapse ms => { s with now := s.now + ms }
  | .thread i => s.threadStep cfg i
  | .wifiMsg type => if s.listener = .idle then s.wifiListener type else s
  | .listener => s.listenerStep

/-! ### What a step of the thread does -/

/-- The thread is between a wait for the network and the next head of the loop. -/
def HttpsPc.works : HttpsPc → Bool
  | .start => false
  | .semTake _ => false
  | .exited => false
  | _ => true

/-- The system after one step of the thread from `s`, by what the step does. -/
inductive Moves (cfg : HttpsConfig) (s : HttpsSystem) (i : HttpsInput) : HttpsSystem → Prop where
  | stays (hrec : s.recordsAttempt = false) : Moves cfg s i s
  | starts (hs : s.pc = .start) : Moves cfg s i (s.loopHead cfg s.vars)
  | takesSem (timeout : ℕ) (hs : s.pc = .semTake timeout)
      (hdue : s.vars.httpsThreadSem ≠ 0 ∨ timeout ≤ s.now) :
      Moves cfg s i
        { s with
          vars := { s.vars with httpsThreadSem := 0 }
          pc := if s.vars.httpsClientRunning then .networkTest else .exited }
  | goesOn (pc : HttpsPc) (provisioned : Bool) (hs : s.pc.works = true) (hpc : pc.works = true)
      (hrec : s.recordsAttempt = false) :
      Moves cfg s i { s with certProvisioned := provisioned, pc := pc }
  | counts (pc : HttpsPc) (v : HttpsVars) (hs : s.pc = .sendRequest ∨ s.pc = .requestRuns)
      (hpc : pc.works = true) (hv : v = s.vars.countTotal ∨ v = s.vars.countFailure) :
      Moves cfg s i { s with vars := v, pc := pc }
  | returns (hs : s.pc = .dnsDone ∨ s.pc = .initialDone) : Moves cfg s i (s.loopHead cfg s.vars)
  | records (hs : (s.pc = .networkTest ∧ s.vars.networkReady = false) ∨ s.pc = .mainExit) :
      Moves cfg s i (s.loopHead cfg s.recordIfSeen)
  | certFails (hs : s.pc = .certProvision) (herr : i.certErr ≠ 0) :
      Moves cfg s i (s.loopHead cfg { s.vars with networkReady := false })

variable {cfg} {s : HttpsSystem} {i : HttpsInput}

theorem moves_ite {p : Prop} [Decidable p] {a b : HttpsSystem} (ha : p → Moves cfg s i a)
    (hb : ¬ p → Moves cfg s i b) : Moves cfg s i (if p then a else b) := by
  split
  · rename_i h
    exact ha h
  · rename_i h
    exact hb h

/-- Only two program points record an attempt. -/
theorem recordsAttempt_eq_false (hnetwork : s.pc ≠ .networkTest) (hexit : s.pc ≠ .mainExit) :
    s.recordsAttempt = false := by
  rw [HttpsSystem.recordsAttempt, decide_eq_false_iff_not]
  rintro ⟨-, ⟨hpc, -⟩ | hpc⟩
  · exact hnetwork hpc
  · exact hexit hpc

/-- From any other program point that works, the thread goes on without a record. -/
theorem moves_goesOn (pc : HttpsPc) (hs : s.pc.works = true) (hpc : pc.works = true)
    (hnetwork : s.pc ≠ .networkTest) (hexit : s.pc ≠ .mainExit) : Moves cfg s i { s with pc := pc } :=
  .goesOn pc s.certProvisioned hs hpc (recordsAttempt_eq_false hnetwork hexit)

theorem works_ite {p : Prop} [Decidable p] {a b : HttpsPc} (ha : a.works = true)
    (hb : b.works = true) : (if p then a else b).works = true := by
  split
  · exact ha
  · exact hb

/-- **One step of the thread.** -/
theorem threadStep_moves (cfg : HttpsConfig) (s : HttpsSystem) (i : HttpsInput) :
    Moves cfg s i (s.threadStep cfg i) := by
  obtain ⟨now, v, provisioned, pc, listener⟩ := s
  cases pc with
  | start => exact .starts rfl
  | semTake timeout =>
    refine moves_ite (fun _ => .stays (recordsAttempt_eq_false nofun nofun)) fun hdue => ?_
    refine .takesSem timeout rfl ?_
    by_contra hwaits
    obtain ⟨hsem, hnow⟩ := not_or.mp hwaits
    exact hdue ⟨not_not.mp hsem, Nat.not_le.mp hnow⟩
  | networkTest =>
    refine moves_ite (fun hdown => .records (Or.inl ⟨rfl, hdown⟩)) fun hready => ?_
    refine .goesOn _ provisioned rfl (works_ite rfl rfl) ?_
    rw [HttpsSystem.recordsAttempt, decide_eq_false_iff_not]
    rintro ⟨-, ⟨-, hdown⟩ | hpc⟩
    · exact hready hdown
    · cases hpc
  | certProvision =>
    refine moves_ite (fun herr => .certFails rfl herr) fun _ => ?_
    exact .goesOn _ true rfl rfl (recordsAttempt_eq_false nofun nofun)
  | dnsTest dnsWaitTime => exact moves_goesOn _ rfl (works_ite rfl rfl) nofun nofun
  | dnsCheck dnsWaitTime =>
    exact moves_ite (fun _ => moves_goesOn _ rfl rfl nofun nofun)
      fun _ => moves_goesOn _ rfl rfl nofun nofun
  | dnsSleep dnsWaitTime wake =>
    exact moves_ite (fun _ => .stays (recordsAttempt_eq_false nofun nofun))
      fun _ => moves_goesOn _ rfl rfl nofun nofun
  | dnsDone =>
    exact moves_ite (fun _ => .returns (Or.inl rfl))
      fun _ => moves_goesOn _ rfl (works_ite rfl rfl) nofun nofun
  | initialSleep wake =>
    exact moves_ite (fun _ => .stays (recordsAttempt_eq_false nofun nofun))
      fun _ => moves_goesOn _ rfl rfl nofun nofun
  | initialDone =>
    exact moves_ite (fun _ => .returns (Or.inr rfl)) fun _ => moves_goesOn _ rfl rfl nofun nofun
  | requestTest => exact moves_goesOn _ rfl (works_ite rfl rfl) nofun nofun
  | sendRequest =>
    exact moves_ite (fun _ => moves_goesOn _ rfl rfl nofun nofun)
      fun _ => .counts _ _ (Or.inl rfl) rfl (Or.inl rfl)
  | requestRuns =>
    simp only [HttpsSystem.threadStep]
    split
    · exact .counts _ _ (Or.inr rfl) rfl (Or.inr rfl)
    · exact moves_goesOn _ rfl rfl nofun nofun
  | requestSleep wake =>
    exact moves_ite (fun _ => .stays (recordsAttempt_eq_false nofun nofun))
      fun _ => moves_goesOn _ rfl rfl nofun nofun
  | mainExit => exact .records (Or.inr rfl)
  | exited => exact .stays (recordsAttempt_eq_false nofun nofun)

end WifiMemfault.HttpsClient
