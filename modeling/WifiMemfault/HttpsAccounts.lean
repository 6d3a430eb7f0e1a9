import WifiMemfault.HttpsRequestSpec
import WifiMemfault.Lib.Runs

/-!
# The accounts of the HTTPS client

A request is counted when it starts, and its failure when it ends.  `send_http_request` is the two steps
`sendRequest` and `requestRuns` of the thread, so between them one failure may still be owed; apart from
that no failure is counted without its request.
-/

namespace WifiMemfault.HttpsRequest

open EffectProgram CString HttpsClient

/-- The two steps of the thread do to the variables what the request does. -/
theorem request_two_steps (cfg : HttpsConfig) {s : HttpsSystem} (hpc : s.pc = .sendRequest)
    (hready : s.vars.networkReady = true) {L : List UInt8 → Prop} {w : RequestWorld}
    (h : RequestEnds L s.vars w) (i i' : HttpsInput) (hi : i'.requestFailed = w.ledger.requestFailed) :
    ((s.threadStep cfg i).threadStep cfg i').vars = w.vars := by
  have hstart : s.threadStep cfg i = { s with vars := s.vars.countTotal, pc := .requestRuns } := by
    obtain ⟨now, v, provisioned, pc, listener⟩ := s
    subst hpc
    apply if_neg
    rw [hready]
    exact Bool.noConfusion
  rw [hstart, h.vars_eq, ← hi]
  rfl

/-! ### Every run of the client -/

section Counters

variable {cfg : HttpsConfig} {s : HttpsSystem}

/-- A failure the request that runs may still add. -/
def owedFailure : HttpsPc → ℕ
  | .requestRuns => 1
  | _ => 0

/-- No failure is counted without its request. -/
def CountsAgree (s : HttpsSystem) : Prop :=
  s.vars.httpsReqFailures + owedFailure s.pc ≤ s.vars.httpsReqTotal

theorem CountsAgree.le (h : CountsAgree s) : s.vars.httpsReqFailures ≤ s.vars.httpsReqTotal :=
  (Nat.le_add_right _ _).trans h

theorem counts_ite {p : Prop} [Decidable p] {a b : HttpsSystem} (ha : CountsAgree a)
    (hb : CountsAgree b) : CountsAgree (if p then a else b) := by
  split
  · exact ha
  · exact hb

theorem counts_loopHead {v : HttpsVars} (h : v.httpsReqFailures ≤ v.httpsReqTotal) :
    CountsAgree (s.loopHead cfg v) := by
  have howed : owedFailure (s.loopHead cfg v).pc = 0 := by
    rw [HttpsSystem.loopHead]
    split <;> rfl
  rw [CountsAgree, howed]
  exact h

theorem counts_recordIfSeen (h : s.vars.httpsReqFailures ≤ s.vars.httpsReqTotal) :
    s.recordIfSeen.httpsReqFailures ≤ s.recordIfSeen.httpsReqTotal := by
  rw [HttpsSystem.recordIfSeen]
  split
  · exact Nat.succ_le_succ h
  · exact h

theorem owedFailure_ite {p : Prop} [Decidable p] {a b : HttpsPc} (ha : owedFailure a = 0)
    (hb : owedFailure b = 0) : owedFailure (if p then a else b) = 0 := by
  split
  · exact ha
  · exact hb

/-- A step that leaves the counters alone and starts no request. -/
theorem CountsAgree.keep {s' : HttpsSystem} (h : CountsAgree s)
    (htotal : s'.vars.httpsReqTotal = s.vars.httpsReqTotal)
    (hfailures : s'.vars.httpsReqFailures = s.vars.httpsReqFailures) (hpc : owedFailure s'.pc = 0) :
    CountsAgree s' := by
  rw [CountsAgree, htotal, hfailures, hpc]
  exact h.le

theorem counts_thread (cfg : HttpsConfig) (i : HttpsInput) (h : CountsAgree s) :
    CountsAgree (s.threadStep cfg i) := by
  have hle := h.le
  obtain ⟨now, v, provisioned, pc, listener⟩ := s
  cases pc with
  | start => exact counts_loopHead hle
  | semTake timeout => exact counts_ite h (h.keep rfl rfl (owedFailure_ite rfl rfl))
  | networkTest =>
    exact counts_ite (counts_loopHead (counts_recordIfSeen hle)) (h.keep rfl rfl (owedFailure_ite rfl rfl))
  | certProvision => exact counts_ite (counts_loopHead hle) (h.keep rfl rfl rfl)
  | dnsTest dnsWaitTime => exact h.keep rfl rfl (owedFailure_ite rfl rfl)
  | dnsCheck dnsWaitTime => exact counts_ite (h.keep rfl rfl rfl) (h.keep rfl rfl rfl)
  | dnsSleep dnsWaitTime wake => exact counts_ite h (h.keep rfl rfl rfl)
  | dnsDone => exact counts_ite (counts_loopHead hle) (h.keep rfl rfl (owedFailure_ite rfl rfl))
  | initialSleep wake => exact counts_ite h (h.keep rfl rfl rfl)
  | initialDone => exact counts_ite (counts_loopHead hle) (h.keep rfl rfl rfl)
  | requestTest => exact h.keep rfl rfl (owedFailure_ite rfl rfl)
  | sendRequest => exact counts_ite (h.keep rfl rfl rfl) (Nat.succ_le_succ hle)
  | requestRuns =>
    -- the failure that was owed is counted, or it is not
    show (if i.requestFailed then v.countFailure else v).httpsReqFailures + 0
      ≤ (if i.requestFailed then v.countFailure else v).httpsReqTotal
    split
    · exact h
    · exact hle
  | requestSleep wake => exact counts_ite h (h.keep rfl rfl rfl)
  | mainExit => exact counts_loopHead (counts_recordIfSeen hle)
  | exited => exact h

theorem counts_step (cfg : HttpsConfig) (s : HttpsSystem) (e : HttpsEvent) (h : CountsAgree s) :
    CountsAgree (stepHttps cfg s e) := by
  cases e with
  | elapse ms => exact h
  | thread i => exact counts_thread cfg i h
  | wifiMsg type =>
    refine counts_ite ?_ h
    cases type with
    | wifiStaConnected => exact counts_ite h h
    | wifiStaDisconnected => exact h
    | other => exact h
  | listener =>
    obtain ⟨now, v, provisioned, pc, listener⟩ := s
    cases listener with
    | idle => exact h
    | setSeen => exact h
    | setReady => exact h
    | giveSem => exact h

theorem counts_run (cfg : HttpsConfig) (es : List HttpsEvent) :
    CountsAgree (Runs.run (stepHttps cfg) .boot es) :=
  Runs.run_invariant_always (counts_step cfg) es .boot (Nat.le_refl 0)

end Counters

/-- **The accounts of a request, and of the client.**  Whatever the stack answers, a request that finds the
network ready ends, with every access inside its array; it is counted once, and as a failure exactly if one
of its calls has failed; the socket is closed once if it was opened and the address list freed once if it was
obtained.  In no run of the client there are more failures than requests. -/
theorem request_accounts (hostname : List UInt8) :
    (∀ (vars : HttpsVars) (recvBuf : CArray recvBufSize) (statusLine : CArray statusLineSize)
        (os : ℕ → Answers), vars.networkReady = true →
      ∃ w, (anyStack hostname).exec (sendHttpRequest hostname) os (.start vars recvBuf statusLine)
          = (some (), w) ∧
        w.vars.httpsReqTotal = vars.httpsReqTotal + 1 ∧
        w.vars.httpsReqFailures
          = vars.httpsReqFailures + (if w.ledger.requestFailed = true then 1 else 0) ∧
        w.ledger.closed = w.ledger.opened ∧ w.ledger.opened.length ≤ 1 ∧
        w.ledger.freed = w.ledger.obtained ∧ w.ledger.obtained.length ≤ 1) ∧
    ∀ (cfg : HttpsConfig) (es : List HttpsEvent),
      (Runs.run (stepHttps cfg) .boot es).vars.httpsReqFailures
        ≤ (Runs.run (stepHttps cfg) .boot es).vars.httpsReqTotal := by
  constructor
  · intro vars recvBuf statusLine os hready
    have hends := sendHttpRequest_ensures (receiveResponse_ensures hostname fun (o : Answers) _ => o)
      hready recvBuf statusLine
    obtain ⟨_, w, hrun, h⟩ := always_returns hends os
    refine ⟨w, hrun, ?_, ?_, h.closed, h.opened_le, h.freed, h.obtained_le⟩
    · rw [h.vars_eq, countedResult]
      split <;> rfl
    · rw [h.vars_eq, countedResult]
      split <;> rfl
  · intro cfg es
    exact (counts_run cfg es).le

/-- On a stack where everything succeeds. -/
theorem request_accounts_ok :
    ∃ w, (anyStack (ascii "example.com")).exec (sendHttpRequest (ascii "example.com"))
        (fun _ => okAnswers) (.start connectedVars (.zeros _) (.zeros _)) = (some (), w) ∧
      w.vars.httpsReqTotal = 1 ∧
      w.vars.httpsReqFailures = 0 + (if w.ledger.requestFailed = true then 1 else 0) ∧
      w.ledger.closed = w.ledger.opened ∧ w.ledger.opened.length ≤ 1 ∧
      w.ledger.freed = w.ledger.obtained ∧ w.ledger.obtained.length ≤ 1 :=
  (request_accounts (ascii "example.com")).1 _ _ _ _ rfl

end WifiMemfault.HttpsRequest
