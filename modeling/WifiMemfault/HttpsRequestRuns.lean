import WifiMemfault.HttpsAccounts
import WifiMemfault.Lib.CallBound
import WifiMemfault.Lib.Interference
import WifiMemfault.Lib.Simulation

/-!
# The HTTPS client with its requests call by call

`HttpsClient` takes a request in two steps and is told how it has ended; `HttpsRequest` has the calls of a
request, alone with its world.  Here the thread runs `send_http_request` itself, one call at a time, with the
clock, the messages and the listener between any two of its calls, so `network_ready` and the semaphore may
change under a running request, and `k_sleep` takes its time.

This client is a run of the one in `HttpsClient`, in which a request starts when it reads `network_ready` and
ends when it returns.  No call of it is undefined, whatever comes between, and between two requests every
socket is closed and every address list freed.
-/

namespace WifiMemfault.HttpsRequestRuns

open EffectProgram CString Runs
open HttpsClient HttpsRequest
open MemfaultCore (WifiMsgType)

/-! ### The model -/

structure RequestRuns where
  sys : HttpsSystem
  /-- What is left of `send_http_request`, while it runs. -/
  left : Option (RequestProg Unit)
  /-- When the `k_sleep` of the request ends. -/
  wake : Option ℕ
  recvBuf : CArray recvBufSize
  statusLine : CArray statusLineSize
  /-- Of the last request. -/
  log : List LogLine
  ledger : Ledger
  /-- A call went outside its array, or took bytes for a string that are none. -/
  undefined : Bool

def RequestRuns.boot : RequestRuns :=
  ⟨HttpsSystem.boot, none, none, CArray.zeros recvBufSize, CArray.zeros statusLineSize, [], Ledger.empty, false⟩

inductive RequestEvent where
  | elapse (ms : ℕ)
  | thread (i : HttpsInput) (answers : Answers)
  | wifiMsg (type : WifiMsgType)
  | listener

/-- The time a call sleeps. -/
def sleepTime : RequestOp → Option ℕ
  | .net (.kSleep ms) => some ms
  | _ => none

namespace RequestRuns

variable (s : RequestRuns)

/-- The world of the request. -/
def world : RequestWorld := ⟨s.sys.vars, s.recvBuf, s.statusLine, s.log, s.ledger⟩

def withWorld (w : RequestWorld) : RequestRuns :=
  { s with
    sys := { s.sys with vars := w.vars }
    wake := none
    recvBuf := w.recvBuf
    statusLine := w.statusLine
    log := w.log
    ledger := w.ledger }

/-- The thread calls `send_http_request`. -/
def calls (hostname : List UInt8) : RequestRuns :=
  { s with left := some (sendHttpRequest hostname), wake := none, log := [], ledger := Ledger.empty }

/-- `send_http_request` returns to the `k_sleep` of the thread. -/
def returns (cfg : HttpsConfig) : RequestRuns :=
  { s with
    sys := { s.sys with pc := .requestSleep (s.sys.now + kSeconds cfg.requestIntervalSec) }
    left := none }

/-- The request goes on to its next call, or returns. -/
def goesOn (cfg : HttpsConfig) (p : RequestProg Unit) : RequestRuns :=
  match p with
  | .ret _ => s.returns cfg
  | .call _ _ => { s with left := some p }

/-- The request is in a `k_sleep`. -/
def sleeps : Bool := s.wake.any fun wake => s.sys.now < wake

/-- The next call of the request. -/
def callStep (cfg : HttpsConfig) (hostname : List UInt8) (answers : Answers) (op : RequestOp)
    (next : op.Ans → RequestProg Unit) : RequestRuns :=
  match sleepTime op, s.wake with
  | some ms, none => { s with wake := some (s.sys.now + ms) }
  | _, _ =>
    if s.sleeps then s
    else
      match (anyStack hostname).step op answers s.world with
      | (some x, w) => (s.withWorld w).goesOn cfg (next x)
      | (none, w) => { s.withWorld w with undefined := true }

def threadStep (cfg : HttpsConfig) (hostname : List UInt8) (i : HttpsInput) (answers : Answers) :
    RequestRuns :=
  match s.left with
  | none =>
    if s.sys.pc = .sendRequest then s.calls hostname else { s with sys := s.sys.threadStep cfg i }
  | some (.ret _) => s.returns cfg
  | some (.call op next) => s.callStep cfg hostname answers op next

end RequestRuns

def stepRequests (cfg : HttpsConfig) (hostname : List UInt8) (s : RequestRuns) : RequestEvent → RequestRuns
  | .elapse ms => { s with sys := stepHttps cfg s.sys (.elapse ms) }
  | .thread i answers => s.threadStep cfg hostname i answers
  | .wifiMsg type => { s with sys := stepHttps cfg s.sys (.wifiMsg type) }
  | .listener => { s with sys := stepHttps cfg s.sys .listener }

/-- The request is about to read `network_ready`. -/
def readsReady (s : RequestRuns) : Bool :=
  match s.left with
  | some (.call (.loc .networkReady) _) => true
  | _ => false

/-- The event of `HttpsClient` that the event is, if it is one. -/
def clientSees (cfg : HttpsConfig) (hostname : List UInt8) (s : RequestRuns) : RequestEvent → Option HttpsEvent
  | .elapse ms => some (.elapse ms)
  | .wifiMsg type => some (.wifiMsg type)
  | .listener => some .listener
  | .thread i answers =>
    let s' := s.threadStep cfg hostname i answers
    if s.left.isNone then
      if s.sys.pc = .sendRequest then none else some (.thread i)
    else if readsReady s || s'.left.isNone then
      some (.thread { i with requestFailed := s'.ledger.requestFailed })
    else none

/-! ### What the listener changes under a request -/

/-- The variables a request shares with the listener. -/
structure HttpsLink where
  httpsClientRunning : Bool
  networkReady : Bool
  hasSeenNetworkConnection : Bool
  httpsThreadSem : ℕ

def link (v : HttpsVars) : HttpsLink :=
  ⟨v.httpsClientRunning, v.networkReady, v.hasSeenNetworkConnection, v.httpsThreadSem⟩

def setLink (l : HttpsLink) (v : HttpsVars) : HttpsVars :=
  { v with
    httpsClientRunning := l.httpsClientRunning
    networkReady := l.networkReady
    hasSeenNetworkConnection := l.hasSeenNetworkConnection
    httpsThreadSem := l.httpsThreadSem }

def linkWorld (l : HttpsLink) (w : RequestWorld) : RequestWorld := { w with vars := setLink l w.vars }

@[simp] theorem link_setLink (l : HttpsLink) (v : HttpsVars) : link (setLink l v) = l := rfl

/-- The call does not look at `network_ready`. -/
def NotReading : RequestOp → Prop
  | .loc .networkReady => False
  | _ => True

/-- A call within bounds, and one that is not. -/
theorem netStep_ite (hostname : List UInt8) (w : RequestWorld) (op : NetOp) (x : op.Ans) :
    (∃ h : op.InBounds hostname, w.netStep hostname op x
        = (some x, { w with recvBuf := w.recvBufAfter hostname op x h, ledger := w.ledger.record op x })) ∨
      (¬ op.InBounds hostname ∧ w.netStep hostname op x = (none, w)) := by
  by_cases h : op.InBounds hostname
  · exact Or.inl ⟨h, dif_pos h⟩
  · exact Or.inr ⟨h, dif_neg h⟩

/-- What the calls do to the counters and the arrays does not depend on the link. -/
theorem calls_commute (hostname : List UInt8) (l : HttpsLink) :
    Commutes (anyStack hostname) NotReading (linkWorld l) := by
  intro op answers w hop
  cases op with
  | net op =>
    show (linkWorld l w).netStep hostname op (answers op) = _
    rcases netStep_ite hostname w op (answers op) with ⟨hbounds, hstep⟩ | ⟨hbounds, hstep⟩
    · rw [show (anyStack hostname).step (.net op) answers w = _ from hstep]
      exact dif_pos hbounds
    · rw [show (anyStack hostname).step (.net op) answers w = _ from hstep]
      exact dif_neg hbounds
  | loc op =>
    show (linkWorld l w).locStep op = ((w.locStep op).1, linkWorld l (w.locStep op).2)
    cases op with
    | networkReady => exact hop.elim
    | storeRecvBuf i b =>
      simp only [RequestWorld.locStep]
      split
      · rfl
      · rfl
    | strstr needle =>
      by_cases h : w.recvBuf.Terminated <;> simp [RequestWorld.locStep, linkWorld, h]
    | copyStatusLine len =>
      by_cases h : len ≤ recvBufSize ∧ len ≤ statusLineSize <;> simp [RequestWorld.locStep, linkWorld, h]
    | storeStatusLine i b =>
      simp only [RequestWorld.locStep]
      split
      · rfl
      · rfl
    | readStatusLine =>
      by_cases h : w.statusLine.Terminated <;> simp [RequestWorld.locStep, linkWorld, h]
    | _ => rfl

/-- No call writes the link. -/
theorem link_step (hostname : List UInt8) (op : RequestOp) (answers : Answers) (w : RequestWorld) :
    link ((anyStack hostname).step op answers w).2.vars = link w.vars := by
  cases op with
  | net op =>
    show link (w.netStep hostname op (answers op)).2.vars = link w.vars
    rcases netStep_ite hostname w op (answers op) with ⟨hbounds, hstep⟩ | ⟨-, hstep⟩
    · rw [hstep]
    · rw [hstep]
  | loc op =>
    show link (w.locStep op).2.vars = link w.vars
    cases op with
    | storeRecvBuf i b =>
      simp only [RequestWorld.locStep]
      split
      · rfl
      · rfl
    | strstr needle =>
      simp only [RequestWorld.locStep]
      split
      · rfl
      · rfl
    | copyStatusLine len =>
      simp only [RequestWorld.locStep]
      split
      · rfl
      · rfl
    | storeStatusLine i b =>
      simp only [RequestWorld.locStep]
      split
      · rfl
      · rfl
    | readStatusLine =>
      simp only [RequestWorld.locStep]
      split
      · rfl
      · rfl
    | _ => rfl

/-! ### A request reads `network_ready` once -/

theorem net_notReading (op : NetOp) : (net op).Calls NotReading := Prog.calls_perform trivial

theorem resolve_notReading : resolve.Calls NotReading := by
  refine Prog.calls_bind (net_notReading _) fun a => ?_
  cases a with
  | error err ne =>
    exact Prog.calls_ite (Prog.calls_bind (net_notReading _) fun _ => net_notReading _) trivial
  | found res => exact trivial

theorem tlsSetup_notReading (fd : ℤ) : (tlsSetup fd).Calls NotReading := by
  refine Prog.calls_bind (net_notReading _) fun _ => Prog.calls_ite trivial ?_
  exact Prog.calls_bind (net_notReading _) fun _ => Prog.calls_ite trivial (net_notReading _)

theorem sendLoop_notReading (hostname : List UInt8) (fd : ℤ) (off : ℕ) :
    (sendLoop hostname fd off).Calls NotReading := by
  induction off using sendLoop.induct hostname with
  | case1 off ih =>
    rw [sendLoop]
    refine Prog.calls_bind (net_notReading _) fun a => ?_
    cases a with
    | error bytes neg => exact trivial
    | sent bytes pos le =>
      simp only
      split
      · rename_i hmore
        exact ih bytes pos le hmore
      · exact trivial

theorem recvLoop_notReading (fd : ℤ) (off : ℕ) : (recvLoop fd off).Calls NotReading := by
  induction off using recvLoop.induct with
  | case1 off ih =>
    rw [recvLoop]
    refine Prog.calls_bind (net_notReading _) fun a => ?_
    cases a with
    | error bytes neg => exact trivial
    | received data le =>
      simp only
      split
      · rename_i hmore
        exact ih data le hmore
      · exact trivial

theorem extractStatusLine_notReading : extractStatusLine.Calls NotReading := by
  refine Prog.calls_bind (Prog.calls_perform trivial) fun p => ?_
  cases p with
  | none => exact trivial
  | some p => exact Prog.calls_bind (Prog.calls_perform trivial) fun _ => Prog.calls_perform trivial

theorem receiveResponse_notReading (fd : ℤ) : (receiveResponse fd).Calls NotReading := by
  refine Prog.calls_bind (recvLoop_notReading fd 0) fun r => ?_
  cases r with
  | none => exact trivial
  | some off =>
    refine Prog.calls_bind (Prog.calls_ite (Prog.calls_perform trivial) (Prog.calls_perform trivial)) ?_
    exact fun _ => Prog.calls_bind extractStatusLine_notReading fun _ => trivial

theorem exchange_notReading (hostname : List UInt8) (fd : ℤ) (res : ℕ) :
    (exchange hostname fd res).Calls NotReading := by
  refine Prog.calls_bind (net_notReading _) fun _ => Prog.calls_bind (net_notReading _) fun _ => ?_
  refine Prog.calls_bind (tlsSetup_notReading fd) fun _ => Prog.calls_ite trivial ?_
  refine Prog.calls_bind (net_notReading _) fun _ => Prog.calls_ite trivial ?_
  exact Prog.calls_bind (sendLoop_notReading hostname fd 0) fun _ =>
    Prog.calls_ite (receiveResponse_notReading fd) trivial

theorem cleanUp_notReading (failed : Bool) (fd : ℤ) (res : Option ℕ) :
    (cleanUp failed fd res).Calls NotReading := by
  have hloc : ∀ op : LocalOp, NotReading (.loc op) → (loc op).Calls NotReading :=
    fun op hop => Prog.calls_perform hop
  refine Prog.calls_bind (Prog.calls_ite (hloc _ trivial) trivial) fun _ => ?_
  refine Prog.calls_bind (Prog.calls_ite trivial (Prog.calls_bind (hloc _ trivial) fun _ => trivial)) ?_
  refine fun _ => Prog.calls_bind (hloc _ trivial) fun _ => Prog.calls_bind (hloc _ trivial) fun _ => ?_
  refine Prog.calls_bind (Prog.calls_ite ?_ trivial) fun _ => ?_
  · exact Prog.calls_bind (net_notReading _) fun _ => Prog.calls_bind (net_notReading _) fun _ => net_notReading _
  · cases res with
    | none => exact trivial
    | some res => exact net_notReading _

/-- A request from its read of `network_ready` on. -/
def reading (counted : Unit → RequestProg Unit) : RequestProg Unit :=
  .call (.loc .networkReady) fun ready => if ready = true then .call (.loc .countTotal) counted else .ret ()

/-- The request clears its array, reads `network_ready`, counts itself, and does not read it again. -/
structure Begins (hostname : List UInt8) (counted : Unit → RequestProg Unit) : Prop where
  eq : sendHttpRequest hostname = .call (.loc .initStatusLine) fun _ => reading counted
  calls : (counted ()).Calls NotReading

theorem sendHttpRequest_begins (hostname : List UInt8) : ∃ counted, Begins hostname counted := by
  refine ⟨_, rfl, ?_⟩
  refine Prog.calls_bind trivial fun _ => Prog.calls_bind resolve_notReading fun a => ?_
  cases a with
  | error err ne => exact cleanUp_notReading true (-1) none
  | found res =>
    refine Prog.calls_bind (net_notReading _) fun fd => Prog.calls_ite (cleanUp_notReading _ _ _) ?_
    exact Prog.calls_bind (exchange_notReading hostname fd.1 res) fun failed => cleanUp_notReading _ _ _

/-! ### What a running request owes -/

/-- A request that was counted in `v` has ended. -/
structure RequestDone (v : HttpsVars) (w : RequestWorld) : Prop where
  vars_eq : w.vars = countedResult w.ledger.requestFailed v
  closed : w.ledger.closed = w.ledger.opened
  freed : w.ledger.freed = w.ledger.obtained

/-- Whatever the stack answers, the rest of the request is defined and ends so. -/
def Owes (hostname : List UInt8) (v : HttpsVars) (p : RequestProg Unit) (w : RequestWorld) : Prop :=
  Always (anyStack hostname) (fun _ w' => RequestDone v w') (fun _ => False) p w

variable {cfg : HttpsConfig} {hostname : List UInt8} {s : RequestRuns} {a : HttpsSystem}

theorem RequestDone.linked {v : HttpsVars} {w : RequestWorld} (h : RequestDone v w) (l : HttpsLink) :
    RequestDone (setLink l v) (linkWorld l w) := by
  refine ⟨?_, h.closed, h.freed⟩
  show setLink l w.vars = countedResult w.ledger.requestFailed (setLink l v)
  rw [h.vars_eq]
  cases w.ledger.requestFailed with
  | false => rfl
  | true => rfl

/-- The listener may change the link under a request. -/
theorem Owes.linked {v : HttpsVars} {p : RequestProg Unit} {w : RequestWorld} (hp : p.Calls NotReading)
    (h : Owes hostname v p w) (l : HttpsLink) : Owes hostname (setLink l v) p (linkWorld l w) :=
  always_changed (calls_commute hostname l) (fun _ _ hdone => hdone.linked l) (fun _ => id) hp h

/-- The world in which a request reads `network_ready`. -/
structure Fresh (w : RequestWorld) : Prop where
  statusLine : w.statusLine = CArray.zeros statusLineSize
  log : w.log = []
  ledger : w.ledger = Ledger.empty

/-- A request that has found the network ready. -/
theorem owes_of_ready {counted : Unit → RequestProg Unit} (hbegins : Begins hostname counted)
    {w : RequestWorld} (hfresh : Fresh w) (hready : w.vars.networkReady = true) :
    Owes hostname w.vars.countTotal (.call (.loc .countTotal) counted) w := by
  obtain ⟨vars, recvBuf, statusLine, log, ledger⟩ := w
  obtain ⟨rfl, rfl, rfl⟩ : _ ∧ _ ∧ _ := ⟨hfresh.statusLine, hfresh.log, hfresh.ledger⟩
  have hrequest : Always (anyStack hostname) (fun _ w' => RequestEnds (fun _ => True) vars w')
      (fun _ => False) (sendHttpRequest hostname) (.start vars recvBuf (CArray.zeros statusLineSize)) :=
    sendHttpRequest_ensures (receiveResponse_ensures hostname _) hready recvBuf _
  rw [hbegins.eq] at hrequest
  -- the array is cleared, and the network is read
  have hcounted : Always (anyStack hostname) (fun _ w' => RequestEnds (fun _ => True) vars w')
      (fun _ => False) (if vars.networkReady = true then .call (.loc .countTotal) counted else .ret ())
      ⟨vars, recvBuf, CArray.zeros statusLineSize, [], Ledger.empty⟩ := hrequest okAnswers okAnswers
  rw [if_pos hready] at hcounted
  exact always_mono hcounted (fun _ _ h => ⟨h.vars_eq, h.closed, h.freed⟩) fun _ => id

/-! ### The refinement -/

/-- The client of `HttpsClient` that `s` stands for. -/
inductive StandsFor (hostname : List UInt8) : RequestRuns → HttpsSystem → Prop where
  | outside (s : RequestRuns) (hleft : s.left = none) (hdefined : s.undefined = false)
      (hclosed : s.ledger.closed = s.ledger.opened) (hfreed : s.ledger.freed = s.ledger.obtained) :
      StandsFor hostname s s.sys
  | called (s : RequestRuns) (hleft : s.left = some (sendHttpRequest hostname))
      (hpc : s.sys.pc = .sendRequest) (hwake : s.wake = none) (hdefined : s.undefined = false)
      (hlog : s.log = []) (hledger : s.ledger = Ledger.empty) : StandsFor hostname s s.sys
  | reads (s : RequestRuns) (counted : Unit → RequestProg Unit) (hbegins : Begins hostname counted)
      (hleft : s.left = some (reading counted)) (hpc : s.sys.pc = .sendRequest) (hwake : s.wake = none)
      (hdefined : s.undefined = false) (hfresh : Fresh s.world) : StandsFor hostname s s.sys
  /-- The request has been counted in `v`. -/
  | runs (s : RequestRuns) (v : HttpsVars) (p : RequestProg Unit) (hleft : s.left = some p)
      (hcalls : p.Calls NotReading) (howes : Owes hostname v p s.world) (hlink : link v = link s.sys.vars)
      (hdefined : s.undefined = false) :
      StandsFor hostname s { s.sys with vars := v, pc := .requestRuns }

/-! The clock and the listener -/

/-- The event is a step of the thread. -/
def isThread : HttpsEvent → Bool
  | .thread _ => true
  | _ => false

theorem setLink_of_link {v : HttpsVars} {l : HttpsLink} (h : link v = l) : setLink l v = v := by
  rw [← h]
  rfl

/-- Whatever a message and the listener write depends on the link only. -/
theorem wifiListener_outer (s : HttpsSystem) (type : WifiMsgType) :
    ∃ l listener, ∀ v pc, link v = link s.vars →
      HttpsSystem.wifiListener { s with vars := v, pc := pc } type
        = { s with vars := setLink l v, pc := pc, listener := listener } := by
  cases type with
  | wifiStaConnected =>
    refine ⟨link s.vars, if s.vars.notifyConnectedTest then .setSeen else s.listener, fun v pc hlink => ?_⟩
    have htest : v.notifyConnectedTest = s.vars.notifyConnectedTest := by
      simp only [HttpsVars.notifyConnectedTest, show v.httpsClientRunning = s.vars.httpsClientRunning from
        congrArg HttpsLink.httpsClientRunning hlink, show v.networkReady = s.vars.networkReady from
        congrArg HttpsLink.networkReady hlink]
    rw [setLink_of_link hlink]
    simp only [HttpsSystem.wifiListener, htest]
    split
    · rfl
    · rfl
  | wifiStaDisconnected =>
    refine ⟨{ link s.vars with networkReady := false }, s.listener, fun v pc hlink => ?_⟩
    rw [← hlink]
    rfl
  | other =>
    refine ⟨link s.vars, s.listener, fun v pc hlink => ?_⟩
    rw [setLink_of_link hlink]
    rfl

theorem listenerStep_outer (s : HttpsSystem) :
    ∃ l listener, ∀ v pc, link v = link s.vars →
      HttpsSystem.listenerStep { s with vars := v, pc := pc }
        = { s with vars := setLink l v, pc := pc, listener := listener } := by
  obtain ⟨now, vars, provisioned, pc, listener⟩ := s
  cases listener with
  | idle =>
    refine ⟨link vars, .idle, fun v pc hlink => ?_⟩
    rw [setLink_of_link hlink]
    rfl
  | setSeen =>
    refine ⟨{ link vars with hasSeenNetworkConnection := true }, .setReady, fun v pc hlink => ?_⟩
    rw [← hlink]
    rfl
  | setReady =>
    refine ⟨{ link vars with networkReady := true }, .giveSem, fun v pc hlink => ?_⟩
    rw [← hlink]
    rfl
  | giveSem =>
    refine ⟨{ link vars with httpsThreadSem := 1 }, .idle, fun v pc hlink => ?_⟩
    rw [← hlink]
    rfl

theorem stepHttps_outer (cfg : HttpsConfig) (s : HttpsSystem) (e : HttpsEvent) (he : isThread e = false) :
    ∃ now l listener, ∀ v pc, link v = link s.vars →
      stepHttps cfg { s with vars := v, pc := pc } e
        = { s with now := now, vars := setLink l v, pc := pc, listener := listener } := by
  cases e with
  | thread i => cases he
  | elapse ms =>
    refine ⟨s.now + ms, link s.vars, s.listener, fun v pc hlink => ?_⟩
    rw [setLink_of_link hlink]
    rfl
  | wifiMsg type =>
    by_cases hidle : s.listener = .idle
    · obtain ⟨l, listener, hstep⟩ := wifiListener_outer s type
      refine ⟨s.now, l, listener, fun v pc hlink => ?_⟩
      exact (if_pos hidle).trans (hstep v pc hlink)
    · refine ⟨s.now, link s.vars, s.listener, fun v pc hlink => ?_⟩
      rw [setLink_of_link hlink]
      exact if_neg hidle
  | listener =>
    obtain ⟨l, listener, hstep⟩ := listenerStep_outer s
    exact ⟨s.now, l, listener, hstep⟩

/-- What comes between two calls keeps the request and what it owes. -/
theorem standsFor_outer (cfg : HttpsConfig) {e : HttpsEvent} (he : isThread e = false)
    (h : StandsFor hostname s a) :
    StandsFor hostname { s with sys := stepHttps cfg s.sys e } (stepHttps cfg a e) := by
  obtain ⟨now, l, listener, hstep⟩ := stepHttps_outer cfg s.sys e he
  have hsys := hstep s.sys.vars s.sys.pc rfl
  change stepHttps cfg s.sys e = _ at hsys
  cases h with
  | outside hleft hdefined hclosed hfreed => exact .outside _ hleft hdefined hclosed hfreed
  | called hleft hpc hwake hdefined hlog hledger =>
    refine .called { s with sys := stepHttps cfg s.sys e } hleft ?_ hwake hdefined hlog hledger
    rw [hsys]
    exact hpc
  | reads counted hbegins hleft hpc hwake hdefined hfresh =>
    refine .reads { s with sys := stepHttps cfg s.sys e } counted hbegins hleft ?_ hwake hdefined
      ⟨hfresh.statusLine, hfresh.log, hfresh.ledger⟩
    rw [hsys]
    exact hpc
  | runs v p hleft hcalls howes hlink hdefined =>
    rw [hstep v .requestRuns hlink, hsys]
    exact .runs { s with sys := { s.sys with now := now, vars := setLink l s.sys.vars, listener := listener } }
      (setLink l v) p hleft hcalls (howes.linked hcalls l) rfl hdefined

/-! The calls -/

/-- The call is answered. -/
def answered (cfg : HttpsConfig) (hostname : List UInt8) (s : RequestRuns) (answers : Answers) (op : RequestOp)
    (next : op.Ans → RequestProg Unit) : RequestRuns :=
  match (anyStack hostname).step op answers s.world with
  | (some x, w) => (s.withWorld w).goesOn cfg (next x)
  | (none, w) => { s.withWorld w with undefined := true }

/-- A call begins to sleep, sleeps on, or is answered. -/
theorem callStep_eq (cfg : HttpsConfig) (hostname : List UInt8) (s : RequestRuns) (answers : Answers)
    (op : RequestOp) (next : op.Ans → RequestProg Unit) :
    (s.wake = none ∧ ∃ wake, s.callStep cfg hostname answers op next = { s with wake := some wake }) ∨
      (s.sleeps = true ∧ s.callStep cfg hostname answers op next = s) ∨
      (s.sleeps = false ∧ s.callStep cfg hostname answers op next = answered cfg hostname s answers op next) := by
  simp only [RequestRuns.callStep]
  split
  · rename_i hwake
    exact Or.inl ⟨hwake, _, rfl⟩
  · split
    · rename_i hsleeps
      exact Or.inr (Or.inl ⟨hsleeps, rfl⟩)
    · rename_i hawake
      exact Or.inr (Or.inr ⟨Bool.not_eq_true _ ▸ hawake, rfl⟩)

/-- A call that is no `k_sleep` is answered at once. -/
theorem callStep_answered {op : RequestOp} (hop : sleepTime op = none) (hwake : s.wake = none)
    (answers : Answers) (next : op.Ans → RequestProg Unit) :
    s.callStep cfg hostname answers op next = answered cfg hostname s answers op next := by
  simp [RequestRuns.callStep, hop, hwake, RequestRuns.sleeps, answered]

/-- One event of the thread, as the client of `HttpsClient` sees it. -/
def Follows (cfg : HttpsConfig) (hostname : List UInt8) (s : RequestRuns) (e : RequestEvent) (a : HttpsSystem) :
    Prop :=
  StandsFor hostname (stepRequests cfg hostname s e)
    (match clientSees cfg hostname s e with
      | some d => stepHttps cfg a d
      | none => a)

/-- A step within a request that the client does not see. -/
theorem follows_unseen {i : HttpsInput} {answers : Answers} (hleft : s.left.isNone = false)
    (hreads : readsReady s = false) (hgoes : (s.threadStep cfg hostname i answers).left.isNone = false)
    (h : StandsFor hostname (s.threadStep cfg hostname i answers) a) :
    Follows cfg hostname s (.thread i answers) a := by
  rw [Follows, clientSees]
  simp only [hleft, hreads, hgoes, Bool.false_or, Bool.false_eq_true, if_false]
  exact h

/-- A step within a request that the client sees. -/
theorem follows_seen {i : HttpsInput} {answers : Answers} (hleft : s.left.isNone = false)
    (hseen : (readsReady s || (s.threadStep cfg hostname i answers).left.isNone) = true)
    (h : StandsFor hostname (s.threadStep cfg hostname i answers)
      (a.threadStep cfg { i with
        requestFailed := (s.threadStep cfg hostname i answers).ledger.requestFailed })) :
    Follows cfg hostname s (.thread i answers) a := by
  rw [Follows, clientSees]
  simp only [hleft, hseen, Bool.false_eq_true, if_false, if_true]
  exact h

/-- The thread outside a request. -/
theorem follows_outside {i : HttpsInput} {answers : Answers} (hleft : s.left = none)
    (hdefined : s.undefined = false) (hclosed : s.ledger.closed = s.ledger.opened)
    (hfreed : s.ledger.freed = s.ledger.obtained) :
    Follows cfg hostname s (.thread i answers) s.sys := by
  have hstep : stepRequests cfg hostname s (.thread i answers)
      = if s.sys.pc = .sendRequest then s.calls hostname else { s with sys := s.sys.threadStep cfg i } := by
    simp only [stepRequests, RequestRuns.threadStep, hleft]
  rw [Follows, hstep, clientSees]
  simp only [hleft, Option.isNone_none, if_true]
  split
  · rename_i hpc
    exact .called (s.calls hostname) rfl hpc rfl hdefined rfl rfl
  · exact .outside { s with sys := s.sys.threadStep cfg i, left := none } rfl hdefined hclosed hfreed

/-- The first call clears the array. -/
theorem follows_called {i : HttpsInput} {answers : Answers} (hleft : s.left = some (sendHttpRequest hostname))
    (hpc : s.sys.pc = .sendRequest) (hwake : s.wake = none) (hdefined : s.undefined = false)
    (hlog : s.log = []) (hledger : s.ledger = Ledger.empty) :
    Follows cfg hostname s (.thread i answers) s.sys := by
  obtain ⟨counted, hbegins⟩ := sendHttpRequest_begins hostname
  rw [hbegins.eq] at hleft
  have hstep : s.threadStep cfg hostname i answers
      = { s.withWorld { s.world with statusLine := CArray.zeros statusLineSize } with
          left := some (reading counted) } := by
    simp only [RequestRuns.threadStep, hleft]
    exact callStep_answered rfl hwake answers _
  refine follows_unseen (by rw [hleft]; rfl) (by rw [readsReady, hleft]) (by rw [hstep]; rfl) ?_
  rw [hstep]
  exact .reads _ counted hbegins rfl hpc rfl hdefined ⟨rfl, hlog, hledger⟩

/-- The read of `network_ready` starts the request, or ends it. -/
theorem follows_reads {i : HttpsInput} {answers : Answers} {counted : Unit → RequestProg Unit}
    (hbegins : Begins hostname counted) (hleft : s.left = some (reading counted))
    (hpc : s.sys.pc = .sendRequest) (hwake : s.wake = none) (hdefined : s.undefined = false)
    (hfresh : Fresh s.world) : Follows cfg hostname s (.thread i answers) s.sys := by
  have hstep : s.threadStep cfg hostname i answers = (s.withWorld s.world).goesOn cfg
      (if s.sys.vars.networkReady = true then .call (.loc .countTotal) counted else .ret ()) := by
    simp only [RequestRuns.threadStep, hleft]
    exact callStep_answered rfl hwake answers _
  have hreads : readsReady s = true := by
    rw [readsReady, hleft]
    rfl
  refine follows_seen (by rw [hleft]; rfl) (by rw [hreads, Bool.true_or]) ?_
  rw [hstep]
  by_cases hready : s.sys.vars.networkReady = true
  · have hstart : ∀ i', s.sys.threadStep cfg i'
        = { s.sys with vars := s.sys.vars.countTotal, pc := .requestRuns } := by
      intro i'
      simp [HttpsSystem.threadStep, hpc, hready]
    rw [if_pos hready, hstart]
    exact .runs { s.withWorld s.world with left := some (.call (.loc .countTotal) counted) }
      s.sys.vars.countTotal _ rfl ⟨trivial, fun _ => hbegins.calls⟩ (owes_of_ready hbegins hfresh hready)
      rfl hdefined
  · have hskips : ∀ i', s.sys.threadStep cfg i' = ((s.withWorld s.world).returns cfg).sys := by
      intro i'
      simp [HttpsSystem.threadStep, hpc, Bool.not_eq_true _ ▸ hready, RequestRuns.returns,
        RequestRuns.withWorld, RequestRuns.world]
    rw [if_neg hready, hskips]
    have hledger : s.ledger = Ledger.empty := hfresh.ledger
    refine .outside ((s.withWorld s.world).returns cfg) rfl hdefined ?_ ?_
    · show s.ledger.closed = s.ledger.opened
      rw [hledger]
      rfl
    · show s.ledger.freed = s.ledger.obtained
      rw [hledger]
      rfl

/-- The request returns. -/
theorem standsFor_returned {v : HttpsVars} (hdone : RequestDone v s.world) (hdefined : s.undefined = false)
    (i : HttpsInput) :
    StandsFor hostname (s.returns cfg) (HttpsSystem.threadStep cfg { s.sys with vars := v, pc := .requestRuns }
      { i with requestFailed := s.ledger.requestFailed }) := by
  have hvars : s.sys.vars = countedResult s.ledger.requestFailed v := hdone.vars_eq
  have hstep : HttpsSystem.threadStep cfg { s.sys with vars := v, pc := .requestRuns }
      { i with requestFailed := s.ledger.requestFailed } = (s.returns cfg).sys := by
    simp only [RequestRuns.returns, hvars]
    rfl
  rw [hstep]
  exact .outside (s.returns cfg) rfl hdefined hdone.closed hdone.freed

theorem readsReady_of_calls {p : RequestProg Unit} (hleft : s.left = some p) (hcalls : p.Calls NotReading) :
    readsReady s = false := by
  rw [readsReady, hleft]
  cases p with
  | ret u => rfl
  | call op next =>
    cases op with
    | net op => rfl
    | loc op =>
      cases op with
      | networkReady => exact hcalls.1.elim
      | _ => rfl

/-- A counted request goes on, or returns. -/
theorem follows_runs {i : HttpsInput} {answers : Answers} {v : HttpsVars} {p : RequestProg Unit}
    (hleft : s.left = some p) (hcalls : p.Calls NotReading) (howes : Owes hostname v p s.world)
    (hlink : link v = link s.sys.vars) (hdefined : s.undefined = false) :
    Follows cfg hostname s (.thread i answers) { s.sys with vars := v, pc := .requestRuns } := by
  have hreads : readsReady s = false := readsReady_of_calls hleft hcalls
  have hbusy : s.left.isNone = false := by
    rw [hleft]
    rfl
  cases p with
  | ret u =>
    have hstep : s.threadStep cfg hostname i answers = s.returns cfg := by
      simp only [RequestRuns.threadStep, hleft]
    refine follows_seen hbusy (by rw [hstep, hreads]; rfl) ?_
    rw [hstep]
    exact standsFor_returned howes hdefined i
  | call op next =>
    have hthread : s.threadStep cfg hostname i answers = s.callStep cfg hostname answers op next := by
      simp only [RequestRuns.threadStep, hleft]
    rcases callStep_eq cfg hostname s answers op next with ⟨-, wake, hbegins⟩ | ⟨-, hsleeps⟩ | ⟨-, hanswered⟩
    · rw [hbegins] at hthread
      refine follows_unseen hbusy hreads (by rw [hthread]; exact hbusy) ?_
      rw [hthread]
      exact .runs { s with wake := some wake } v _ hleft hcalls howes hlink hdefined
    · rw [hsleeps] at hthread
      refine follows_unseen hbusy hreads (by rw [hthread]; exact hbusy) ?_
      rw [hthread]
      exact .runs s v _ hleft hcalls howes hlink hdefined
    · rw [hanswered, answered] at hthread
      have hends := howes answers
      have hkept := link_step hostname op answers s.world
      generalize (anyStack hostname).step op answers s.world = r at hends hkept hthread
      obtain ⟨x | x, w⟩ := r
      · exact hends.elim
      have hrest : Owes hostname v (next x) w := hends
      have hrestCalls := hcalls.2 x
      simp only at hthread
      cases hnext : next x with
      | ret u =>
        rw [hnext] at hthread hrest
        change s.threadStep cfg hostname i answers = (s.withWorld w).returns cfg at hthread
        refine follows_seen hbusy (by rw [hthread, hreads]; rfl) ?_
        rw [hthread]
        exact standsFor_returned (s := s.withWorld w) hrest hdefined i
      | call op' next' =>
        rw [hnext] at hthread hrest hrestCalls
        change s.threadStep cfg hostname i answers
          = { s.withWorld w with left := some (.call op' next') } at hthread
        refine follows_unseen hbusy hreads (by rw [hthread]; rfl) ?_
        rw [hthread]
        exact .runs { s.withWorld w with left := some (.call op' next') } v _ rfl hrestCalls hrest
          (hlink.trans hkept.symm) hdefined

theorem follows_step (cfg : HttpsConfig) (s : RequestRuns) (e : RequestEvent) (a : HttpsSystem)
    (h : StandsFor hostname s a) : Follows cfg hostname s e a := by
  cases e with
  | elapse ms => exact standsFor_outer cfg rfl h
  | wifiMsg type => exact standsFor_outer cfg rfl h
  | listener => exact standsFor_outer cfg rfl h
  | thread i answers =>
    cases h with
    | outside hleft hdefined hclosed hfreed => exact follows_outside hleft hdefined hclosed hfreed
    | called hleft hpc hwake hdefined hlog hledger =>
      exact follows_called hleft hpc hwake hdefined hlog hledger
    | reads counted hbegins hleft hpc hwake hdefined hfresh =>
      exact follows_reads hbegins hleft hpc hwake hdefined hfresh
    | runs v p hleft hcalls howes hlink hdefined => exact follows_runs hleft hcalls howes hlink hdefined

theorem requests_simulate (cfg : HttpsConfig) (hostname : List UInt8) :
    Simulates (stepRequests cfg hostname) (stepHttps cfg) (clientSees cfg hostname) (StandsFor hostname) := by
  constructor
  · intro s a e d h hsees
    have hfollows := follows_step cfg s e a h
    rw [Follows, hsees] at hfollows
    exact hfollows
  · intro s a e h hsees
    have hfollows := follows_step cfg s e a h
    rw [Follows, hsees] at hfollows
    exact hfollows

/-- **The client with its requests is the client.**  Every run with the requests call by call, whatever the
network stack answers and whatever the listener does between two calls, goes with a run of `HttpsClient` over
the same time, messages and steps of the listener.  Outside a request the two are in the same state, every
socket of the last request has been closed and its addresses freed; under a request they agree on the time
and on everything the request shares with the listener.  No call has been undefined. -/
theorem requests_refine (cfg : HttpsConfig) (hostname : List UInt8) (es : List RequestEvent) :
    let s := run (stepRequests cfg hostname) RequestRuns.boot es
    let a := run (stepHttps cfg) HttpsSystem.boot
      (seen (stepRequests cfg hostname) (clientSees cfg hostname) RequestRuns.boot es)
    s.undefined = false ∧ a.now = s.sys.now ∧ a.listener = s.sys.listener ∧
      link a.vars = link s.sys.vars ∧
      (s.left.isNone = true → a = s.sys ∧ s.ledger.closed = s.ledger.opened ∧
        s.ledger.freed = s.ledger.obtained) := by
  intro s a
  have h : StandsFor hostname s a :=
    (requests_simulate cfg hostname).run es RequestRuns.boot HttpsSystem.boot (.outside _ rfl rfl rfl rfl)
  clear_value s a
  cases h with
  | outside hleft hdefined hclosed hfreed => exact ⟨hdefined, rfl, rfl, rfl, fun _ => ⟨rfl, hclosed, hfreed⟩⟩
  | called hleft hpc hwake hdefined hlog hledger =>
    exact ⟨hdefined, rfl, rfl, rfl, fun hnone => by simp [hleft] at hnone⟩
  | reads counted hbegins hleft hpc hwake hdefined hfresh =>
    exact ⟨hdefined, rfl, rfl, rfl, fun hnone => by simp [hleft] at hnone⟩
  | runs v p hleft hcalls howes hlink hdefined =>
    exact ⟨hdefined, rfl, rfl, hlink, fun hnone => by simp [hleft] at hnone⟩

/-! ### A request returns -/

theorem net_atMost (op : NetOp) (n : ℕ) : (net op).AtMost (n + 1) := Prog.atMost_perform _ n

theorem loc_atMost (op : LocalOp) (n : ℕ) : (loc op).AtMost (n + 1) := Prog.atMost_perform _ n

theorem resolve_atMost : resolve.AtMost 3 := by
  intro a
  cases a with
  | error err ne => exact Prog.atMost_ite (fun _ => net_atMost _ 0) trivial
  | found res => exact trivial

theorem tlsSetup_atMost (fd : ℤ) : (tlsSetup fd).AtMost 3 :=
  fun _ => Prog.atMost_ite trivial fun _ => Prog.atMost_ite trivial (net_atMost _ 0)

/-- Every `send` moves a byte. -/
theorem sendLoop_atMost (hostname : List UInt8) (fd : ℤ) (off : ℕ) (hoff : off < httpHeadLen hostname) :
    (sendLoop hostname fd off).AtMost (httpHeadLen hostname - off) := by
  induction off using sendLoop.induct hostname with
  | case1 off ih =>
    rw [sendLoop]
    refine Prog.AtMost.mono (m := httpHeadLen hostname - off - 1 + 1) ?_ (by omega)
    refine Prog.AtMost.perform_bind fun a => ?_
    cases a with
    | error bytes neg => exact Prog.atMost_ret _ _
    | sent bytes pos le =>
      simp only
      split
      · rename_i hmore
        exact (ih bytes pos le hmore hmore).mono (by omega)
      · exact Prog.atMost_ret _ _

/-- Every `recv` but the last stores a byte. -/
theorem recvLoop_atMost (fd : ℤ) (off : ℕ) : (recvLoop fd off).AtMost (recvBufSize - off + 1) := by
  induction off using recvLoop.induct with
  | case1 off ih =>
    rw [recvLoop]
    refine Prog.AtMost.perform_bind fun a => ?_
    cases a with
    | error bytes neg => exact Prog.atMost_ret _ _
    | received data le =>
      simp only
      split
      · rename_i hmore
        exact (ih data le hmore).mono (by omega)
      · exact Prog.atMost_ret _ _

theorem extractStatusLine_atMost : extractStatusLine.AtMost 3 := by
  intro p
  cases p with
  | none => exact trivial
  | some p => exact fun _ => loc_atMost _ 0

theorem receiveResponse_atMost (fd : ℤ) : (receiveResponse fd).AtMost (recvBufSize + 1 + 4) := by
  refine (recvLoop_atMost fd 0).bind fun r => ?_
  cases r with
  | none => exact trivial
  | some off =>
    have hterminate : (terminateRecvBuf off).AtMost 1 :=
      Prog.atMost_ite (loc_atMost _ 0) (loc_atMost _ 0)
    exact hterminate.bind fun _ => extractStatusLine_atMost.bind fun _ => Prog.atMost_ret _ 0

/-- The most calls an exchange makes. -/
def exchangeCalls (hostname : List UInt8) : ℕ := 3 + (httpHeadLen hostname + (recvBufSize + 1 + 4) + 1) + 1 + 1

theorem exchange_atMost (hostname : List UInt8) (fd : ℤ) (res : ℕ) :
    (exchange hostname fd res).AtMost (exchangeCalls hostname) := by
  refine Prog.AtMost.perform_bind fun _ => Prog.AtMost.perform_bind fun _ => ?_
  refine (tlsSetup_atMost fd).bind fun _ => Prog.atMost_ite (Prog.atMost_ret _ _) ?_
  refine Prog.AtMost.perform_bind fun _ => Prog.atMost_ite (Prog.atMost_ret _ _) ?_
  refine (sendLoop_atMost hostname fd 0 (httpHeadLen_pos hostname)).bind fun _ => ?_
  exact Prog.atMost_ite (receiveResponse_atMost fd) (Prog.atMost_ret _ _)

theorem cleanUp_atMost (failed : Bool) (fd : ℤ) (res : Option ℕ) : (cleanUp failed fd res).AtMost 8 := by
  have hcount : (countResult failed).AtMost 1 := by
    cases failed with
    | false => exact Prog.atMost_ret _ _
    | true => exact loc_atMost _ 0
  have htext : (resultText failed).AtMost 1 := by
    cases failed with
    | false => exact fun _ => Prog.atMost_ret _ _
    | true => exact Prog.atMost_ret _ _
  have hclose : (closeSocket fd).AtMost 3 :=
    Prog.atMost_ite (fun _ _ => net_atMost _ 0) (Prog.atMost_ret _ _)
  have hfree : (freeAddresses res).AtMost 1 := by
    cases res with
    | none => exact Prog.atMost_ret _ _
    | some res => exact net_atMost _ 0
  exact (hcount.bind fun _ => htext.bind fun _ => Prog.AtMost.perform_bind fun _ =>
    Prog.AtMost.perform_bind fun _ => hclose.bind fun _ => hfree : Prog.AtMost _ (1 + (1 + (3 + 1 + 1 + 1))))

/-- The most calls a request makes. -/
def requestCalls (hostname : List UInt8) : ℕ := 3 + (exchangeCalls hostname + 8 + 1) + 1 + 1 + 1

theorem sendHttpRequest_atMost (hostname : List UInt8) :
    (sendHttpRequest hostname).AtMost (requestCalls hostname) := by
  refine Prog.AtMost.perform_bind fun _ => Prog.AtMost.perform_bind fun _ => ?_
  refine Prog.atMost_ite (Prog.AtMost.perform_bind fun _ => ?_) (Prog.atMost_ret _ _)
  refine resolve_atMost.bind fun a => ?_
  cases a with
  | error err ne => exact (cleanUp_atMost true (-1) none).mono (by omega)
  | found res =>
    refine Prog.AtMost.perform_bind fun fd => Prog.atMost_ite ?_ ?_
    · exact (cleanUp_atMost _ _ _).mono (by omega)
    · exact (exchange_atMost hostname fd.1 res).bind fun failed => cleanUp_atMost _ _ _

/-- The step is one of the thread, and no `k_sleep` of the request is slept through. -/
def takesTurn (s : RequestRuns) : RequestEvent → Bool
  | .thread _ _ => !s.sleeps
  | _ => false

/-- `send_http_request` returns in the step. -/
def requestReturns (cfg : HttpsConfig) (hostname : List UInt8) (s : RequestRuns) (e : RequestEvent) : Prop :=
  s.left.isSome = true ∧ (stepRequests cfg hostname s e).left.isNone = true

/-- A request runs, and `n` turns of the thread are enough for the rest of it.  A `k_sleep` takes two. -/
def TurnsLeft (n : ℕ) (s : RequestRuns) : Prop :=
  ∃ p calls, s.left = some p ∧ p.AtMost calls ∧ 2 * calls + s.wake.isNone.toNat + 1 ≤ n

/-- A turn of the thread within a request takes a call off what is left, or the beginning of a `k_sleep`. -/
theorem turnsLeft_thread {n : ℕ} {i : HttpsInput} {answers : Answers} (h : TurnsLeft n s)
    (hdefined : (s.threadStep cfg hostname i answers).undefined = false)
    (hruns : (s.threadStep cfg hostname i answers).left.isNone = false) :
    TurnsLeft (n - (!s.sleeps).toNat) (s.threadStep cfg hostname i answers) := by
  obtain ⟨p, calls, hleft, hcalls, hn⟩ := h
  cases p with
  | ret u => simp [RequestRuns.threadStep, hleft, RequestRuns.returns] at hruns
  | call op next =>
    have hthread : s.threadStep cfg hostname i answers = s.callStep cfg hostname answers op next := by
      simp only [RequestRuns.threadStep, hleft]
    rcases callStep_eq cfg hostname s answers op next with
      ⟨hwake, wake, hbegins⟩ | ⟨hsleeps, hsleepsOn⟩ | ⟨hawake, hanswered⟩
    · have hawake : s.sleeps = false := by simp [RequestRuns.sleeps, hwake]
      rw [hthread, hbegins, hawake]
      rw [hwake] at hn
      simp only [Option.isNone_none, Bool.toNat_true] at hn
      refine ⟨_, calls, hleft, hcalls, ?_⟩
      simp only [Option.isNone_some, Bool.toNat_false, Bool.not_false, Bool.toNat_true]
      omega
    · rw [hthread, hsleepsOn, hsleeps]
      exact ⟨_, calls, hleft, hcalls, hn⟩
    · rw [hthread, hanswered, answered] at hdefined hruns ⊢
      generalize (anyStack hostname).step op answers s.world = r at hdefined hruns ⊢
      obtain ⟨x | x, w⟩ := r
      · cases hdefined
      simp only at hruns ⊢
      cases hnext : next x with
      | ret u =>
        rw [hnext] at hruns
        cases hruns
      | call op' next' =>
        cases calls with
        | zero => exact hcalls.elim
        | succ calls =>
          have hrest := hcalls x
          rw [hnext] at hrest
          refine ⟨_, calls, rfl, hrest, ?_⟩
          simp only [RequestRuns.goesOn, RequestRuns.withWorld, hawake, Option.isNone_none, Bool.toNat_true,
            Bool.not_false]
          omega

/-- What is left of a request is no longer than a request. -/
def ShortEnough (hostname : List UInt8) (s : RequestRuns) : Prop :=
  ∀ p, s.left = some p → p.AtMost (requestCalls hostname)

theorem shortEnough_thread (i : HttpsInput) (answers : Answers) (h : ShortEnough hostname s) :
    ShortEnough hostname (s.threadStep cfg hostname i answers) := by
  rw [RequestRuns.threadStep]
  split
  · rename_i hleft
    split
    · intro p hp
      obtain rfl : sendHttpRequest hostname = p := Option.some.inj hp
      exact sendHttpRequest_atMost hostname
    · intro p hp
      simp [hleft] at hp
  · intro p hp
    cases hp
  · rename_i op next hleft
    rcases callStep_eq cfg hostname s answers op next with ⟨-, wake, hbegins⟩ | ⟨-, hsleeps⟩ | ⟨-, hanswered⟩
    · rw [hbegins]
      exact h
    · rw [hsleeps]
      exact h
    · rw [hanswered, answered]
      generalize (anyStack hostname).step op answers s.world = r
      obtain ⟨x | x, w⟩ := r
      · exact h
      have hrest : (next x).AtMost (requestCalls hostname) :=
        Prog.AtMost.mono (h _ hleft x) (Nat.le_succ _)
      simp only
      cases hnext : next x with
      | ret u =>
        intro p hp
        cases hp
      | call op' next' =>
        rw [hnext] at hrest
        intro p hp
        obtain rfl : _ = p := Option.some.inj hp
        exact hrest

theorem shortEnough_step (cfg : HttpsConfig) (hostname : List UInt8) (s : RequestRuns) (e : RequestEvent)
    (h : ShortEnough hostname s) : ShortEnough hostname (stepRequests cfg hostname s e) := by
  cases e with
  | thread i answers => exact shortEnough_thread i answers h
  | _ => exact h

theorem standsFor_defined (h : StandsFor hostname s a) : s.undefined = false := by
  cases h with
  | outside _ hdefined _ _ => exact hdefined
  | called _ _ _ hdefined _ _ => exact hdefined
  | reads _ _ _ _ _ hdefined _ => exact hdefined
  | runs _ _ _ _ _ _ hdefined => exact hdefined

/-- **Every request returns.**  Whatever the network stack answers and whatever comes between, a request that
runs has returned once its thread has taken two turns for each of its calls, and two more.  The calls are at
most one for each byte of the request and of `recv_buf`, and a fixed number. -/
theorem request_returns (cfg : HttpsConfig) (hostname : List UInt8) (es fs : List RequestEvent) :
    let step := stepRequests cfg hostname
    let s := run step RequestRuns.boot es
    s.left.isSome = true → 2 * requestCalls hostname + 2 ≤ countSteps step takesTurn s fs →
      Happens step (requestReturns cfg hostname) s fs := by
  intro step s hruns hturns
  have hshort : ShortEnough hostname s :=
    run_invariant_always (shortEnough_step cfg hostname) es RequestRuns.boot fun p hp => by cases hp
  have hstands : ∃ a, StandsFor hostname s a :=
    ⟨_, (requests_simulate cfg hostname).run es RequestRuns.boot _ (.outside _ rfl rfl rfl rfl)⟩
  obtain ⟨p, hleft⟩ := Option.isSome_iff_exists.mp hruns
  have hinit : TurnsLeft (2 * requestCalls hostname + 2) s := by
    refine ⟨p, _, hleft, hshort p hleft, ?_⟩
    have hwake := Bool.toNat_le s.wake.isNone
    omega
  refine happens_of_near (R := fun _ _ => True)
    (N := fun n s => (∃ a, StandsFor hostname s a) ∧ TurnsLeft n s) ?_ ?_ fs _ s ⟨hstands, hinit⟩ ?_ hturns
  · rintro s ⟨-, p, calls, -, -, hn⟩
    exact absurd hn (by omega)
  · rintro n s e ⟨⟨a, hstands⟩, hleft⟩ - hgoal
    have hafter : ∃ a', StandsFor hostname (step s e) a' := ⟨_, follows_step cfg s e a hstands⟩
    refine ⟨hafter, ?_⟩
    cases e with
    | thread i answers =>
      obtain ⟨a', hstands'⟩ := hafter
      refine turnsLeft_thread hleft (standsFor_defined hstands') ?_
      obtain ⟨p, calls, hp, -⟩ := hleft
      by_contra hnone
      exact hgoal ⟨by rw [hp]; rfl, Bool.not_eq_false _ ▸ hnone⟩
    | _ => exact hleft
  · exact eachStep_of_forall (fun _ _ => trivial) fs s

/-- The resolver has no address. -/
def noAddress : Answers
  | .getaddrinfo => .error (-2) (by decide)
  | op => okAnswers op

def unresolved : RequestEvent := .thread ⟨0, true, 0, false⟩ noAddress

/-- From boot into the first request, and to its return. -/
def firstRequest : List RequestEvent :=
  [unresolved, .wifiMsg .wifiStaConnected, .listener, .listener, .listener] ++ List.replicate 9 unresolved

def firstReturn : List RequestEvent := List.replicate 7 unresolved

/-- In its `k_sleep` between two requests the thread stays where it is. -/
theorem thread_dozes {wake : ℕ} (hleft : s.left = none) (hpc : s.sys.pc = .requestSleep wake)
    (hnow : s.sys.now < wake) (i : HttpsInput) (answers : Answers) :
    stepRequests cfg hostname s (.thread i answers) = s := by
  have hsys : s.sys.threadStep cfg i = s.sys := by simp [HttpsSystem.threadStep, hpc, hnow]
  have hbetween : s.sys.pc ≠ .sendRequest := by simp [hpc]
  obtain ⟨sys, left, wake', recvBuf, statusLine, log, ledger, undefined⟩ := s
  cases hleft
  refine (if_neg hbetween).trans ?_
  rw [hsys]

theorem firstReturn_turns :
    2 * requestCalls (ascii "example.com") + 2 ≤
      countSteps (stepRequests ⟨60⟩ (ascii "example.com")) takesTurn
        (run (stepRequests ⟨60⟩ (ascii "example.com")) RequestRuns.boot firstRequest)
        (firstReturn ++ List.replicate 4265 unresolved) := by
  have hstays : ∀ s : RequestRuns, s.left.isNone = true → s.sys.pc = .requestSleep 60000 → s.sys.now < 60000 →
      stepRequests ⟨60⟩ (ascii "example.com") s unresolved = s :=
    fun s hleft hpc hnow => thread_dozes (Option.isNone_iff_eq_none.mp hleft) hpc hnow _ _
  rw [countSteps_append, countSteps_replicate (hstays _ ?_ ?_ ?_)]
  · decide +kernel
  · decide +kernel
  · decide +kernel
  · decide +kernel
  · decide +kernel

theorem request_returns_unresolved :
    Happens (stepRequests ⟨60⟩ (ascii "example.com")) (requestReturns ⟨60⟩ (ascii "example.com"))
      (run (stepRequests ⟨60⟩ (ascii "example.com")) RequestRuns.boot firstRequest)
      (firstReturn ++ List.replicate 4265 unresolved) :=
  request_returns ⟨60⟩ (ascii "example.com") firstRequest _ (by decide +kernel) firstReturn_turns

end WifiMemfault.HttpsRequestRuns
