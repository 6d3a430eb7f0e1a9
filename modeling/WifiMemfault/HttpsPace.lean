import WifiMemfault.FailedAttempts
import WifiMemfault.Lib.Accounts
import WifiMemfault.Lib.Paced

/-!
# When the HTTPS client sends its requests

The requests of `app_https_client_thread` over whole runs, with the WiFi listener between any two statements
of the thread.  They are at least one interval apart, also where the network goes and comes back between
them; the two counters are the requests and the attempts recorded without a network; and as long as the
network stays ready, the thread gets to its next request.

The counters are unbounded here.  The `uint32_t` of the client are these numbers modulo `2^32`.
-/

namespace WifiMemfault.HttpsPace

open HttpsClient
open FailedAttempts (httpsCharges)
open MemfaultCore (WifiMsgType)

/-! ### The pace -/

def requestPhase : HttpsPc → PacePhase
  | .requestRuns => .acting
  | .requestSleep wake => .pausing wake
  | _ => .free

/-- The event starts a request: `send_http_request` gets past its test. -/
def startsRequest (s : HttpsSystem) : HttpsEvent → Bool
  | .thread _ => s.pc = .sendRequest ∧ s.vars.networkReady = true
  | _ => false

/-- The thread as a worker that sends requests. -/
def requestPace (cfg : HttpsConfig) : Paced HttpsSystem HttpsEvent where
  step := stepHttps cfg
  now s := s.now
  phase s := requestPhase s.pc
  interval := kSeconds cfg.requestIntervalSec
  acts := startsRequest

variable {cfg : HttpsConfig} {s : HttpsSystem} {i : HttpsInput}

theorem requestPhase_ite {p : Prop} [Decidable p] {a b : HttpsPc} (ha : requestPhase a = .free)
    (hb : requestPhase b = .free) : requestPhase (if p then a else b) = .free := by
  split
  · exact ha
  · exact hb

/-- A step from a free point to a free point. -/
theorem pace_free {pc : HttpsPc} (v : HttpsVars) (provisioned : Bool) (hs : requestPhase s.pc = .free)
    (hpc : requestPhase pc = .free) (hacts : startsRequest s (.thread i) = false) :
    (requestPace cfg).Moves s (.thread i)
      { s with vars := v, certProvisioned := provisioned, pc := pc } :=
  .other (hpc.trans hs.symm) (Nat.le_refl _) hacts

theorem pace_stays (hacts : startsRequest s (.thread i) = false) :
    (requestPace cfg).Moves s (.thread i) s :=
  .other rfl (Nat.le_refl _) hacts

theorem pace_loopHead (v : HttpsVars) (hs : requestPhase s.pc = .free)
    (hacts : startsRequest s (.thread i) = false) :
    (requestPace cfg).Moves s (.thread i) (s.loopHead cfg v) :=
  pace_free v s.certProvisioned hs (requestPhase_ite rfl rfl) hacts

/-- A step that does one of two things. -/
theorem pace_ite {p : Prop} [Decidable p] {e : HttpsEvent} {a b : HttpsSystem}
    (ha : p → (requestPace cfg).Moves s e a) (hb : ¬ p → (requestPace cfg).Moves s e b) :
    (requestPace cfg).Moves s e (if p then a else b) := by
  split
  · rename_i h
    exact ha h
  · rename_i h
    exact hb h

theorem pace_thread (cfg : HttpsConfig) (s : HttpsSystem) (i : HttpsInput) :
    (requestPace cfg).Moves s (.thread i) (s.threadStep cfg i) := by
  obtain ⟨now, v, provisioned, pc, listener⟩ := s
  cases pc with
  | start => exact pace_loopHead v rfl rfl
  | semTake timeout =>
    refine pace_ite (fun _ => pace_stays rfl) fun _ => ?_
    exact pace_free _ provisioned rfl (requestPhase_ite rfl rfl) rfl
  | networkTest =>
    refine pace_ite (fun _ => pace_loopHead _ rfl rfl) fun _ => ?_
    exact pace_free v provisioned rfl (requestPhase_ite rfl rfl) rfl
  | certProvision =>
    exact pace_ite (fun _ => pace_loopHead _ rfl rfl) fun _ => pace_free v true rfl rfl rfl
  | dnsTest dnsWaitTime => exact pace_free v provisioned rfl (requestPhase_ite rfl rfl) rfl
  | dnsCheck dnsWaitTime =>
    exact pace_ite (fun _ => pace_free v provisioned rfl rfl rfl)
      fun _ => pace_free v provisioned rfl rfl rfl
  | dnsSleep dnsWaitTime wake =>
    exact pace_ite (fun _ => pace_stays rfl) fun _ => pace_free v provisioned rfl rfl rfl
  | dnsDone =>
    refine pace_ite (fun _ => pace_loopHead v rfl rfl) fun _ => ?_
    exact pace_free v provisioned rfl (requestPhase_ite rfl rfl) rfl
  | initialSleep wake =>
    exact pace_ite (fun _ => pace_stays rfl) fun _ => pace_free v provisioned rfl rfl rfl
  | initialDone =>
    exact pace_ite (fun _ => pace_loopHead v rfl rfl) fun _ => pace_free v provisioned rfl rfl rfl
  | requestTest => exact pace_free v provisioned rfl (requestPhase_ite rfl rfl) rfl
  | sendRequest =>
    -- without a network `send_http_request` returns at once, and the thread sleeps all the same
    refine pace_ite (fun hdown => ?_) fun _ => .begins rfl rfl (Nat.le_refl _)
    refine .pauses (Or.inl rfl) rfl (Nat.le_refl _) ?_
    show decide (_ ∧ v.networkReady = true) = false
    simp [show v.networkReady = false from hdown]
  | requestRuns =>
    exact .pauses (Or.inr rfl) rfl (Nat.le_refl _) rfl
  | requestSleep wake =>
    refine pace_ite (fun _ => pace_stays rfl) fun hdue => ?_
    exact .wakes wake rfl rfl (Nat.not_lt.mp hdue) (Nat.le_refl _) rfl
  | mainExit => exact pace_loopHead _ rfl rfl
  | exited => exact pace_stays rfl

/-- The listener leaves the thread where it is. -/
theorem wifiListener_place (s : HttpsSystem) (type : WifiMsgType) :
    (s.wifiListener type).pc = s.pc ∧ (s.wifiListener type).now = s.now := by
  cases type with
  | wifiStaConnected =>
    simp only [HttpsSystem.wifiListener]
    split
    · exact ⟨rfl, rfl⟩
    · exact ⟨rfl, rfl⟩
  | wifiStaDisconnected => exact ⟨rfl, rfl⟩
  | other => exact ⟨rfl, rfl⟩

theorem listenerStep_place (s : HttpsSystem) : s.listenerStep.pc = s.pc ∧ s.listenerStep.now = s.now := by
  rw [HttpsSystem.listenerStep]
  cases s.listener with
  | idle => exact ⟨rfl, rfl⟩
  | setSeen => exact ⟨rfl, rfl⟩
  | setReady => exact ⟨rfl, rfl⟩
  | giveSem => exact ⟨rfl, rfl⟩

/-- An event that leaves the thread where it is. -/
theorem pace_place {e : HttpsEvent} {s' : HttpsSystem} (hplace : s'.pc = s.pc ∧ s'.now = s.now)
    (hacts : startsRequest s e = false) : (requestPace cfg).Moves s e s' :=
  .other (congrArg requestPhase hplace.1) (Nat.le_of_eq hplace.2.symm) hacts

theorem requestPace_lawful (cfg : HttpsConfig) : (requestPace cfg).Lawful := by
  intro s e
  cases e with
  | elapse ms => exact .other rfl (Nat.le_add_right _ _) rfl
  | thread i => exact pace_thread cfg s i
  | wifiMsg type =>
    exact pace_ite (fun _ => pace_place (wifiListener_place s type) rfl)
      fun _ => pace_place ⟨rfl, rfl⟩ rfl
  | listener => exact pace_place (listenerStep_place s) rfl

/-- **The requests are an interval apart.**  In every run from any state, two requests start at least
`CONFIG_APP_HTTPS_REQUEST_INTERVAL_SEC` apart, whatever the network does between them; so the run holds at
most as many requests as its time has intervals, and one. -/
theorem requests_interval_apart (cfg : HttpsConfig) (s : HttpsSystem) (es : List HttpsEvent) :
    let times := (requestPace cfg).actionTimes s es
    (times.Pairwise fun t t' => t + kSeconds cfg.requestIntervalSec ≤ t') ∧
      times.length * kSeconds cfg.requestIntervalSec
        ≤ (Runs.run (stepHttps cfg) s es).now - s.now + kSeconds cfg.requestIntervalSec := by
  have hlawful := requestPace_lawful cfg
  exact ⟨Paced.actionTimes_pairwise hlawful es s, Paced.actionTimes_length hlawful es s⟩

/-! ### The accounts -/

/-- The event ends a request that has failed. -/
def failsRequest (s : HttpsSystem) : HttpsEvent → Bool
  | .thread i => s.pc = .requestRuns ∧ i.requestFailed = true
  | _ => false

/-- The two metrics say what the counters say. -/
def Reported (v : HttpsVars) : Prop :=
  v.reqTotalMetric = v.httpsReqTotal ∧ v.reqFailMetric = v.httpsReqFailures

/-- `v'` has counted `total` more attempts than `v`, and `failures` more failures. -/
structure Counted (v v' : HttpsVars) (total failures : ℕ) : Prop where
  total_eq : v'.httpsReqTotal = v.httpsReqTotal + total
  failures_eq : v'.httpsReqFailures = v.httpsReqFailures + failures
  reported : Reported v → Reported v'

theorem counted_same {v v' : HttpsVars} (htotal : v'.httpsReqTotal = v.httpsReqTotal)
    (hfailures : v'.httpsReqFailures = v.httpsReqFailures)
    (htotalMetric : v'.reqTotalMetric = v.reqTotalMetric)
    (hfailMetric : v'.reqFailMetric = v.reqFailMetric) : Counted v v' 0 0 := by
  refine ⟨htotal, hfailures, fun h => ?_⟩
  rw [Reported, htotal, hfailures, htotalMetric, hfailMetric]
  exact h

theorem counted_total (v : HttpsVars) : Counted v v.countTotal 1 0 := ⟨rfl, rfl, fun h => ⟨rfl, h.2⟩⟩

theorem counted_failure (v : HttpsVars) : Counted v v.countFailure 0 1 := ⟨rfl, rfl, fun h => ⟨h.1, rfl⟩⟩

theorem counted_recordIfSeen (s : HttpsSystem) :
    Counted s.vars s.recordIfSeen s.vars.hasSeenNetworkConnection.toNat
      s.vars.hasSeenNetworkConnection.toNat := by
  rw [HttpsSystem.recordIfSeen]
  cases s.vars.hasSeenNetworkConnection with
  | false => exact counted_same rfl rfl rfl rfl
  | true => exact ⟨rfl, rfl, fun _ => ⟨rfl, rfl⟩⟩

/-- What one event adds to the counters. -/
def CountsEvent (s : HttpsSystem) (e : HttpsEvent) (s' : HttpsSystem) : Prop :=
  Counted s.vars s'.vars ((startsRequest s e).toNat + (httpsCharges s e).toNat)
    ((failsRequest s e).toNat + (httpsCharges s e).toNat)

/-- An event that is neither a request nor a record. -/
theorem countsEvent_none {e : HttpsEvent} {s' : HttpsSystem} (hstarts : startsRequest s e = false)
    (hfails : failsRequest s e = false) (hcharges : httpsCharges s e = false)
    (h : Counted s.vars s'.vars 0 0) : CountsEvent s e s' := by
  rw [CountsEvent, hstarts, hfails, hcharges]
  exact h

/-- A point at which the thread neither sends nor records. -/
def quiet : HttpsPc → Bool
  | .networkTest => false
  | .sendRequest => false
  | .requestRuns => false
  | .mainExit => false
  | _ => true

theorem quiet_ne {pc pc' : HttpsPc} (hs : quiet pc = true) (hpc : quiet pc' = false) : pc ≠ pc' := by
  rintro rfl
  rw [hs] at hpc
  cases hpc

/-- A step of the thread from a point where it neither sends nor records. -/
theorem countsEvent_quiet {s' : HttpsSystem} (hs : quiet s.pc = true) (h : Counted s.vars s'.vars 0 0) :
    CountsEvent s (.thread i) s' := by
  have hsend : s.pc ≠ .sendRequest := quiet_ne hs rfl
  have hruns : s.pc ≠ .requestRuns := quiet_ne hs rfl
  refine countsEvent_none ?_ ?_ ?_ h
  · simp [startsRequest, hsend]
  · simp [failsRequest, hruns]
  · exact recordsAttempt_eq_false (quiet_ne hs rfl) (quiet_ne hs rfl)

/-- A step of the thread that records an attempt if there has been a connection. -/
theorem countsEvent_records (hs : (s.pc = .networkTest ∧ s.vars.networkReady = false) ∨ s.pc = .mainExit) :
    CountsEvent s (.thread i) (s.loopHead cfg s.recordIfSeen) := by
  have hother : s.pc ≠ .sendRequest ∧ s.pc ≠ .requestRuns := by
    rcases hs with ⟨hs, -⟩ | hs
    · simp [hs]
    · simp [hs]
  have hcharges : httpsCharges s (.thread i) = s.vars.hasSeenNetworkConnection := by
    simp only [httpsCharges, HttpsSystem.recordsAttempt]
    simp [hs]
  rw [CountsEvent, hcharges]
  simpa [startsRequest, failsRequest, hother, HttpsSystem.loopHead] using counted_recordIfSeen s

theorem counted_ite {v : HttpsVars} {total failures : ℕ} {p : Prop} [Decidable p] {a b : HttpsSystem}
    (ha : Counted v a.vars total failures) (hb : Counted v b.vars total failures) :
    Counted v (if p then a else b).vars total failures := by
  split
  · exact ha
  · exact hb

theorem countsEvent_thread (cfg : HttpsConfig) (s : HttpsSystem) (i : HttpsInput) :
    CountsEvent s (.thread i) (s.threadStep cfg i) := by
  have hsame : ∀ v : HttpsVars, Counted v v 0 0 := fun v => counted_same rfl rfl rfl rfl
  obtain ⟨now, v, provisioned, pc, listener⟩ := s
  cases pc with
  | start => exact countsEvent_quiet rfl (hsame v)
  | semTake timeout =>
    refine countsEvent_quiet rfl (counted_ite (hsame v) ?_)
    exact counted_same rfl rfl rfl rfl
  | networkTest =>
    simp only [HttpsSystem.threadStep]
    split
    · rename_i hdown
      exact countsEvent_records (Or.inl ⟨rfl, hdown⟩)
    · rename_i hready
      refine countsEvent_none rfl ?_ ?_ (hsame v)
      · simp [failsRequest]
      · simp [httpsCharges, HttpsSystem.recordsAttempt, hready]
  | certProvision =>
    exact countsEvent_quiet rfl (counted_ite (counted_same rfl rfl rfl rfl) (hsame v))
  | dnsTest dnsWaitTime => exact countsEvent_quiet rfl (hsame v)
  | dnsCheck dnsWaitTime =>
    exact countsEvent_quiet rfl (counted_ite (hsame v) (hsame v))
  | dnsSleep dnsWaitTime wake =>
    exact countsEvent_quiet rfl (counted_ite (hsame v) (hsame v))
  | dnsDone => exact countsEvent_quiet rfl (counted_ite (hsame v) (hsame v))
  | initialSleep wake => exact countsEvent_quiet rfl (counted_ite (hsame v) (hsame v))
  | initialDone => exact countsEvent_quiet rfl (counted_ite (hsame v) (hsame v))
  | requestTest => exact countsEvent_quiet rfl (hsame v)
  | sendRequest =>
    by_cases hready : v.networkReady = true
    · simp only [HttpsSystem.threadStep, CountsEvent]
      simpa [startsRequest, failsRequest, httpsCharges, HttpsSystem.recordsAttempt, hready]
        using counted_total v
    · simp only [HttpsSystem.threadStep, CountsEvent]
      simpa [startsRequest, failsRequest, httpsCharges, HttpsSystem.recordsAttempt, hready]
        using hsame v
  | requestRuns =>
    simp only [HttpsSystem.threadStep, CountsEvent]
    cases hfailed : i.requestFailed with
    | false =>
      simpa [startsRequest, failsRequest, httpsCharges, HttpsSystem.recordsAttempt, hfailed] using hsame v
    | true =>
      simpa [startsRequest, failsRequest, httpsCharges, HttpsSystem.recordsAttempt, hfailed]
        using counted_failure v
  | requestSleep wake => exact countsEvent_quiet rfl (counted_ite (hsame v) (hsame v))
  | mainExit => exact countsEvent_records (Or.inr rfl)
  | exited => exact countsEvent_quiet rfl (hsame v)

theorem countsEvent_step (cfg : HttpsConfig) (s : HttpsSystem) (e : HttpsEvent) :
    CountsEvent s e (stepHttps cfg s e) := by
  cases e with
  | elapse ms => exact countsEvent_none rfl rfl rfl (counted_same rfl rfl rfl rfl)
  | thread i => exact countsEvent_thread cfg s i
  | wifiMsg type =>
    refine countsEvent_none rfl rfl rfl (counted_ite ?_ (counted_same rfl rfl rfl rfl))
    cases type with
    | wifiStaConnected => exact counted_ite (counted_same rfl rfl rfl rfl) (counted_same rfl rfl rfl rfl)
    | wifiStaDisconnected => exact counted_same rfl rfl rfl rfl
    | other => exact counted_same rfl rfl rfl rfl
  | listener =>
    refine countsEvent_none rfl rfl rfl ?_
    simp only [stepHttps, HttpsSystem.listenerStep]
    cases s.listener with
    | idle => exact counted_same rfl rfl rfl rfl
    | setSeen => exact counted_same rfl rfl rfl rfl
    | setReady => exact counted_same rfl rfl rfl rfl
    | giveSem => exact counted_same rfl rfl rfl rfl

/-- How many events of the run are a `turn`. -/
def count (cfg : HttpsConfig) (s : HttpsSystem) (es : List HttpsEvent)
    (turn : HttpsSystem → HttpsEvent → Bool) : ℕ :=
  Runs.countSteps (stepHttps cfg) turn s es

/-- What `https_req_total` and `https_req_failures` count. -/
def requestColumns : List (HttpsSystem → HttpsEvent → Bool) := [startsRequest, httpsCharges]

def failureColumns : List (HttpsSystem → HttpsEvent → Bool) := [failsRequest, httpsCharges]

theorem total_run (cfg : HttpsConfig) (es : List HttpsEvent) (s : HttpsSystem) :
    (Runs.run (stepHttps cfg) s es).vars.httpsReqTotal
      = s.vars.httpsReqTotal + Runs.account (stepHttps cfg) requestColumns s es :=
  Runs.run_account (fun s => s.vars.httpsReqTotal) (fun s e => (countsEvent_step cfg s e).total_eq) es s

theorem failures_run (cfg : HttpsConfig) (es : List HttpsEvent) (s : HttpsSystem) :
    (Runs.run (stepHttps cfg) s es).vars.httpsReqFailures
      = s.vars.httpsReqFailures + Runs.account (stepHttps cfg) failureColumns s es :=
  Runs.run_account (fun s => s.vars.httpsReqFailures) (fun s e => (countsEvent_step cfg s e).failures_eq) es s

/-- **The counters are the requests and the recorded attempts.**  At any moment of any run,
`https_req_total` is the number of requests that have started and of attempts that were recorded without a
network, `https_req_failures` the number of those requests that have failed and of these attempts, and the
two metrics report just these numbers. -/
theorem request_counters_exact (cfg : HttpsConfig) (es : List HttpsEvent) :
    let v := (Runs.run (stepHttps cfg) HttpsSystem.boot es).vars
    let counted := count cfg HttpsSystem.boot es
    v.httpsReqTotal = counted startsRequest + counted httpsCharges ∧
      v.httpsReqFailures = counted failsRequest + counted httpsCharges ∧
      v.reqTotalMetric = v.httpsReqTotal ∧ v.reqFailMetric = v.httpsReqFailures := by
  intro v counted
  have hreported : Reported v :=
    Runs.run_invariant_always (fun s e => (countsEvent_step cfg s e).reported) es HttpsSystem.boot ⟨rfl, rfl⟩
  refine ⟨?_, ?_, hreported⟩
  · exact (total_run cfg es HttpsSystem.boot).trans (Nat.zero_add _)
  · exact (failures_run cfg es HttpsSystem.boot).trans (Nat.zero_add _)

/-! ### The next request comes -/

/-- The thread waits, and neither the time nor a token has come. -/
def asleep (s : HttpsSystem) : Bool :=
  match s.pc with
  | .semTake timeout => s.vars.httpsThreadSem = 0 ∧ s.now < timeout
  | .dnsSleep _ wake => s.now < wake
  | .initialSleep wake => s.now < wake
  | .requestSleep wake => s.now < wake
  | _ => false

/-- The thread takes a step, and does not sleep through it. -/
def takesStep (s : HttpsSystem) : HttpsEvent → Bool
  | .thread _ => !asleep s
  | _ => false

/-- The checks for the resolver that may still wait. -/
def checksLeft (dnsWaitTime : ℕ) : ℕ := Runs.pollsLeft dnsTimeout dnsCheckIntervalSec dnsWaitTime

/-- The steps until a request starts, if the network stays ready. -/
def stepsLeft : HttpsPc → ℕ
  | .sendRequest => 1
  | .requestTest => 2
  | .requestSleep _ => 3
  | .initialDone => 3
  | .requestRuns => 4
  | .initialSleep _ => 4
  | .dnsDone => 5
  | .dnsCheck dnsWaitTime => 3 * checksLeft dnsWaitTime + 6
  | .dnsTest dnsWaitTime => 3 * checksLeft dnsWaitTime + 7
  | .dnsSleep dnsWaitTime _ => 3 * checksLeft (dnsWaitTime + dnsCheckIntervalSec) + 8
  | .certProvision => 98
  | .networkTest => 99
  | .semTake _ => 100
  | .start => 101
  | .mainExit => 101
  | .exited => 102

theorem checksLeft_le (dnsWaitTime : ℕ) : checksLeft dnsWaitTime ≤ 30 :=
  Runs.pollsLeft_le dnsTimeout dnsCheckIntervalSec dnsWaitTime

theorem checksLeft_waited {dnsWaitTime : ℕ} (h : ¬ dnsTimeout ≤ dnsWaitTime) :
    checksLeft (dnsWaitTime + dnsCheckIntervalSec) + 1 = checksLeft dnsWaitTime :=
  Runs.pollsLeft_waited (by decide) (Nat.not_le.mp h)

/-- The thread runs, as it does from the boot on: nothing stops the client. -/
structure Running (s : HttpsSystem) : Prop where
  running : s.vars.httpsClientRunning = true
  not_exited : s.pc ≠ .exited

theorem stepsLeft_le (h : s.pc ≠ .exited) : stepsLeft s.pc ≤ 101 := by
  cases hpc : s.pc with
  | dnsTest d =>
    have hd := checksLeft_le d
    simp only [stepsLeft]
    omega
  | dnsCheck d =>
    have hd := checksLeft_le d
    simp only [stepsLeft]
    omega
  | dnsSleep d wake =>
    have hd := checksLeft_le (d + dnsCheckIntervalSec)
    simp only [stepsLeft]
    omega
  | exited => exact absurd hpc h
  | _ => simp only [stepsLeft]; omega

theorem stepsLeft_pos (pc : HttpsPc) : 0 < stepsLeft pc := by
  cases pc <;> simp only [stepsLeft] <;> omega

theorem running_loopHead {v : HttpsVars} (h : v.httpsClientRunning = true) :
    Running (s.loopHead cfg v) := by
  rw [HttpsSystem.loopHead, if_pos h]
  exact ⟨h, by simp⟩

theorem recordIfSeen_running (s : HttpsSystem) :
    s.recordIfSeen.httpsClientRunning = s.vars.httpsClientRunning := by
  rw [HttpsSystem.recordIfSeen]
  split
  · rfl
  · rfl

theorem running_thread (h : Running s) (i : HttpsInput) : Running (s.threadStep cfg i) := by
  have hrun := h.running
  have hmoves := threadStep_moves cfg s i
  generalize s.threadStep cfg i = s' at hmoves ⊢
  cases hmoves with
  | stays hrec => exact h
  | starts hs => exact running_loopHead hrun
  | takesSem timeout hs hdue => exact ⟨hrun, by simp [hrun]⟩
  | goesOn pc provisioned hs hpc hrec =>
    refine ⟨hrun, ?_⟩
    rintro rfl
    cases hpc
  | counts pc v hs hpc hv =>
    refine ⟨?_, ?_⟩
    · rcases hv with rfl | rfl
      · exact hrun
      · exact hrun
    · rintro rfl
      cases hpc
  | returns hs => exact running_loopHead hrun
  | records hs => exact running_loopHead ((recordIfSeen_running s).trans hrun)
  | certFails hs herr => exact running_loopHead hrun

theorem running_step (cfg : HttpsConfig) (s : HttpsSystem) (e : HttpsEvent) (h : Running s) :
    Running (stepHttps cfg s e) := by
  obtain ⟨hrun, hexit⟩ := h
  cases e with
  | elapse ms => exact ⟨hrun, hexit⟩
  | thread i => exact running_thread ⟨hrun, hexit⟩ i
  | wifiMsg type =>
    simp only [stepHttps]
    split
    · refine ⟨?_, by rw [(wifiListener_place s type).1]; exact hexit⟩
      cases type with
      | wifiStaConnected =>
        simp only [HttpsSystem.wifiListener]
        split
        · exact hrun
        · exact hrun
      | wifiStaDisconnected => exact hrun
      | other => exact hrun
    · exact ⟨hrun, hexit⟩
  | listener =>
    refine ⟨?_, by rw [stepHttps, (listenerStep_place s).1]; exact hexit⟩
    simp only [stepHttps, HttpsSystem.listenerStep]
    cases s.listener with
    | idle => exact hrun
    | setSeen => exact hrun
    | setReady => exact hrun
    | giveSem => exact hrun

/-- The network is ready before and after the event. -/
def StaysReady (cfg : HttpsConfig) (s : HttpsSystem) (e : HttpsEvent) : Prop :=
  s.vars.networkReady = true ∧ (stepHttps cfg s e).vars.networkReady = true

instance (s : HttpsSystem) (e : HttpsEvent) : Decidable (StaysReady cfg s e) :=
  inferInstanceAs (Decidable (_ ∧ _))

/-- A sleep: the thread stays until the time has come. -/
theorem stepsLeft_sleep {p : Prop} [Decidable p] {s s' : HttpsSystem}
    (hless : stepsLeft s'.pc < stepsLeft s.pc) (hasleep : asleep s = decide p) :
    stepsLeft (if p then s else s').pc + (!asleep s).toNat ≤ stepsLeft s.pc := by
  rw [hasleep]
  split
  · rename_i hwaits
    simp [hwaits]
  · rename_i hdue
    simpa [hdue] using Nat.succ_le_of_lt hless

/-- A step of the thread brings it nearer to its request, or it is asleep and stays. -/
theorem stepsLeft_thread (h : Running s) (hready : s.vars.networkReady = true)
    (hafter : (s.threadStep cfg i).vars.networkReady = true) (hsend : s.pc ≠ .sendRequest) :
    stepsLeft (s.threadStep cfg i).pc + (!asleep s).toNat ≤ stepsLeft s.pc := by
  obtain ⟨hrun, hexit⟩ := h
  obtain ⟨now, v, provisioned, pc, listener⟩ := s
  change v.httpsClientRunning = true at hrun
  change v.networkReady = true at hready
  have hchecks : checksLeft 0 = 30 := rfl
  cases pc with
  | start => simp [HttpsSystem.threadStep, HttpsSystem.loopHead, hrun, stepsLeft, asleep]
  | semTake timeout =>
    refine stepsLeft_sleep (?_ : stepsLeft (if v.httpsClientRunning then _ else _) < _) rfl
    simp [hrun, stepsLeft]
  | networkTest =>
    cases provisioned with
    | false => simp [HttpsSystem.threadStep, hready, stepsLeft, asleep]
    | true => simp [HttpsSystem.threadStep, hready, stepsLeft, asleep, hchecks]
  | certProvision =>
    simp only [HttpsSystem.threadStep] at hafter ⊢
    split
    · rename_i herr
      simp [herr, HttpsSystem.loopHead] at hafter
    · simp [stepsLeft, asleep, hchecks]
  | dnsTest d => simp [HttpsSystem.threadStep, hready, stepsLeft, asleep]
  | dnsCheck d =>
    simp only [HttpsSystem.threadStep]
    split
    · simp [stepsLeft, asleep]
    · rename_i hwaits
      have hwaited := checksLeft_waited (not_or.mp hwaits).2
      simp only [stepsLeft, asleep, Bool.not_false, Bool.toNat_true]
      omega
  | dnsSleep d wake => exact stepsLeft_sleep (Nat.lt_succ_self _) rfl
  | dnsDone =>
    simp only [HttpsSystem.threadStep, hready, Bool.true_eq_false, if_false]
    split
    · simp [stepsLeft, asleep]
    · simp [stepsLeft, asleep]
  | initialSleep wake => exact stepsLeft_sleep (Nat.lt_succ_self _) rfl
  | initialDone => simp [HttpsSystem.threadStep, hready, stepsLeft, asleep]
  | requestTest => simp [HttpsSystem.threadStep, hready, hrun, stepsLeft, asleep]
  | sendRequest => exact absurd rfl hsend
  | requestRuns => simp [HttpsSystem.threadStep, stepsLeft, asleep]
  | requestSleep wake => exact stepsLeft_sleep (Nat.lt_succ_self _) rfl
  | mainExit =>
    have hrec := (recordIfSeen_running ⟨now, v, provisioned, .mainExit, listener⟩).trans hrun
    simp [HttpsSystem.threadStep, HttpsSystem.loopHead, hrec, stepsLeft, asleep]
  | exited => exact absurd rfl hexit

/-- The number of steps shows that the thread gets to its request. -/
theorem request_variant (cfg : HttpsConfig) :
    Runs.Variant (stepHttps cfg) Running (StaysReady cfg) (fun s e => startsRequest s e = true)
      takesStep (fun s => stepsLeft s.pc) := by
  refine ⟨fun s _ => stepsLeft_pos s.pc, fun s e hinv hready hgoal => ?_⟩
  refine ⟨running_step cfg s e hinv, ?_⟩
  cases e with
  | elapse ms => exact Nat.le_refl _
  | thread i =>
    refine stepsLeft_thread hinv hready.1 hready.2 fun hsend => hgoal ?_
    simp [startsRequest, hsend, hready.1]
  | wifiMsg type =>
    simp only [stepHttps, takesStep]
    split
    · rw [(wifiListener_place s type).1]
      exact Nat.le_refl _
    · exact Nat.le_refl _
  | listener =>
    simp only [stepHttps, takesStep]
    rw [(listenerStep_place s).1]
    exact Nat.le_refl _

/-- **The client gets to its next request.**  From every reachable state, once the thread has taken 101
steps, sleeping apart, a request has started, as long as the network stays ready. -/
theorem request_comes (cfg : HttpsConfig) (es fs : List HttpsEvent) :
    let s := Runs.run (stepHttps cfg) HttpsSystem.boot es
    Runs.EachStep (stepHttps cfg) (StaysReady cfg) s fs →
      101 ≤ Runs.countSteps (stepHttps cfg) takesStep s fs →
      Runs.Happens (stepHttps cfg) (fun s e => startsRequest s e = true) s fs := by
  intro s hready hsteps
  have hrunning : Running s :=
    Runs.run_invariant_always (running_step cfg) es _ ⟨rfl, by simp [HttpsSystem.boot]⟩
  refine (request_variant cfg).happens fs s hrunning hready ?_
  exact Nat.le_trans (stepsLeft_le hrunning.not_exited) hsteps

/-- A client with an interval of five minutes. -/
def sampleConfig : HttpsConfig := ⟨300⟩

/-- The first connect, processed to its end. -/
def firstConnect : List HttpsEvent := .wifiMsg .wifiStaConnected :: List.replicate 3 .listener

/-- The functions outside succeed at once, and every sleep of the thread is over before its next step. -/
def steadySteps : List HttpsEvent :=
  (List.replicate 101 [HttpsEvent.thread ⟨0, true, 0, false⟩, .elapse 300000]).flatten

theorem request_comes_first :
    Runs.Happens (stepHttps sampleConfig) (fun s e => startsRequest s e = true)
      (Runs.run (stepHttps sampleConfig) HttpsSystem.boot firstConnect) steadySteps :=
  request_comes sampleConfig firstConnect steadySteps (by decide +kernel) (by decide +kernel)

end WifiMemfault.HttpsPace
