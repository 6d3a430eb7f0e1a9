import WifiMemfault.HttpsRequest

/-!
# What a request keeps

The eight ways into `clean_up` hold different resources, but the label sees only three of them: the
descriptor, the address list and the flag.  Each part of `send_http_request` gets one rule that says
what it does to the ledger; `Responded` is what the response part has to keep, and what it makes of the
response is left open there.  From these rules, whatever the stack answers, a request ends, counts
itself, and gives back what it has taken.
-/

namespace WifiMemfault.HttpsRequest

open EffectProgram CString HttpsClient

/-- Whatever the stack answers, `p` returns, within bounds all along, and `Q` holds then. -/
abbrev Ensures (hostname : List UInt8) {Ω α : Type} (answer : Ω → Ledger → Answers)
    (Q : α → RequestWorld → Prop) : RequestProg α → RequestWorld → Prop :=
  Always (requestDevice hostname answer) Q fun _ => False

section Rules

variable {hostname : List UInt8} {Ω α β : Type} {answer : Ω → Ledger → Answers}
variable {Q : α → RequestWorld → Prop} {w : RequestWorld}

theorem ensures_mono {Q' : α → RequestWorld → Prop} {p : RequestProg α} (h : Ensures hostname answer Q p w)
    (hQ : ∀ a w', Q a w' → Q' a w') : Ensures hostname answer Q' p w :=
  always_mono h hQ fun _ => id

theorem ensures_seq {R : β → RequestWorld → Prop} {p : RequestProg β} {f : β → RequestProg α}
    (hp : Ensures hostname answer R p w)
    (hf : ∀ b w', R b w' → Ensures hostname answer Q (f b) w') :
    Ensures hostname answer Q (p >>= f) w :=
  (always_bind _ _ _ p f w).mpr (ensures_mono hp hf)

/-- A call within bounds, by the answers the stack gives here. -/
theorem ensures_answer {op : NetOp} {next : op.Ans → RequestProg α} (hbounds : op.InBounds hostname)
    (h : ∀ o, Ensures hostname answer Q (next (answer o w.ledger op))
      { w with
        recvBuf := w.recvBufAfter hostname op (answer o w.ledger op) hbounds
        ledger := w.ledger.record op (answer o w.ledger op) }) :
    Ensures hostname answer Q (net op >>= next) w := by
  intro o
  show Ends _ _ (w.netStep hostname op (answer o w.ledger op))
  rw [RequestWorld.netStep, dif_pos hbounds]
  exact h o

/-- The same for every answer. -/
theorem ensures_net {op : NetOp} {next : op.Ans → RequestProg α} (hbounds : op.InBounds hostname)
    (h : ∀ a, Ensures hostname answer Q (next a)
      { w with recvBuf := w.recvBufAfter hostname op a hbounds, ledger := w.ledger.record op a }) :
    Ensures hostname answer Q (net op >>= next) w :=
  ensures_answer hbounds fun o => h (answer o w.ledger op)

/-- A call at the end. -/
theorem ensures_net_last {op : NetOp} {Q : op.Ans → RequestWorld → Prop} (hbounds : op.InBounds hostname)
    (h : ∀ a, Q a
      { w with recvBuf := w.recvBufAfter hostname op a hbounds, ledger := w.ledger.record op a }) :
    Ensures hostname answer Q (net op) w := by
  show Ensures hostname answer Q (net op >>= pure) w
  exact ensures_net hbounds h

theorem ensures_loc {op : LocalOp} {next : op.Ans → RequestProg α} {a : op.Ans} {w' : RequestWorld}
    (hstep : w.locStep op = (some a, w')) (h : Ensures hostname answer Q (next a) w') :
    Ensures hostname answer Q (loc op >>= next) w := by
  intro o
  show Ends _ _ (w.locStep op)
  rw [hstep]
  exact h

theorem ensures_loc_last {op : LocalOp} {Q : op.Ans → RequestWorld → Prop} {a : op.Ans}
    {w' : RequestWorld} (hstep : w.locStep op = (some a, w')) (h : Q a w') :
    Ensures hostname answer Q (loc op) w := by
  show Ensures hostname answer Q (loc op >>= pure) w
  exact ensures_loc hstep h

theorem ensures_ite {p : Prop} [Decidable p] {a b : RequestProg α}
    (ha : p → Ensures hostname answer Q a w) (hb : ¬ p → Ensures hostname answer Q b w) :
    Ensures hostname answer Q (if p then a else b) w := by
  split
  · rename_i h
    exact ha h
  · rename_i h
    exact hb h

end Rules

/-! ### The ledger -/

namespace Ledger

variable (l : Ledger)

@[simp] theorem fails_false : l.fails false = l := by
  rw [fails, Bool.or_false]

def withReceived (n : ℕ) : Ledger := { l with received := n }

/-- Only the last lookup counts. -/
theorem record_lookup_error (err : ℤ) (ne : err ≠ 0) (a : Lookup) :
    (l.record .getaddrinfo (.error err ne)).record .getaddrinfo a = l.record .getaddrinfo a := by
  cases a with
  | error err' ne' => rfl
  | found res => rfl

end Ledger

/-- The world with another ledger. -/
def RequestWorld.withLedger (w : RequestWorld) (l : Ledger) : RequestWorld := { w with ledger := l }

/-! ### The parts before the response -/

section Parts

variable (hostname : List UInt8) {Ω : Type} (answer : Ω → Ledger → Answers) (w : RequestWorld)

theorem resolve_ensures :
    Ensures hostname answer (fun a w' => w' = w.withLedger (w.ledger.record .getaddrinfo a)) resolve w := by
  refine ensures_net trivial ?_
  intro a
  cases a with
  | found res => exact rfl
  | error err ne =>
    apply ensures_ite
    · -- cancelled: the second lookup decides
      intro _
      refine ensures_net trivial ?_
      intro _
      refine ensures_net_last trivial ?_
      intro a
      show _ = RequestWorld.withLedger w _
      rw [← Ledger.record_lookup_error w.ledger err ne a]
      rfl
    · intro _
      exact rfl

theorem tlsSetup_ensures (fd : ℤ) :
    Ensures hostname answer (fun err w' => w' = w.withLedger (w.ledger.fails (err != 0)))
      (tlsSetup fd) w := by
  refine ensures_net trivial ?_
  intro verify
  apply ensures_ite
  · intro _
    exact rfl
  intro hverify
  obtain rfl : verify = 0 := not_not.mp hverify
  refine ensures_net trivial ?_
  intro tag
  apply ensures_ite
  · intro _
    show RequestWorld.withLedger w ((w.ledger.fails false).fails (tag != 0)) = _
    rw [Ledger.fails_false]
  intro htag
  obtain rfl : tag = 0 := not_not.mp htag
  refine ensures_net_last trivial ?_
  intro name
  show RequestWorld.withLedger w (((w.ledger.fails false).fails false).fails (name != 0)) = _
  rw [Ledger.fails_false, Ledger.fails_false]

theorem sendLoop_ensures (fd : ℤ) (off : ℕ) (hoff : off < httpHeadLen hostname) :
    Ensures hostname answer (fun ok w' => w' = w.withLedger (w.ledger.fails (!ok)))
      (sendLoop hostname fd off) w := by
  induction off using sendLoop.induct hostname with
  | case1 off ih =>
    have hbounds : off + (httpHeadLen hostname - off) ≤ (sendBuf hostname).length := by
      have hlen : httpHeadLen hostname = (sendBuf hostname).length - 1 := rfl
      omega
    rw [sendLoop]
    refine ensures_net hbounds ?_
    intro a
    cases a with
    | error bytes neg => exact rfl
    | sent bytes pos le =>
      apply ensures_ite
      · intro hmore
        exact ih bytes pos le hmore hmore
      · intro _
        show w = w.withLedger (w.ledger.fails false)
        rw [Ledger.fails_false]
        rfl

/-- What the loop around `recv` keeps. -/
structure ReceiveEnds (w : RequestWorld) (r : Option ℕ) (w' : RequestWorld) : Prop where
  vars : w'.vars = w.vars
  statusLine : w'.statusLine = w.statusLine
  log : w'.log = w.log
  ledger : ∃ n, w'.ledger = (w.ledger.fails r.isNone).withReceived n

variable {w} in
/-- One more chunk before the rest of the loop. -/
theorem ReceiveEnds.chunk {buf : CArray recvBufSize} {n : ℕ} {r : Option ℕ} {w' : RequestWorld}
    (h : ReceiveEnds { w with recvBuf := buf, ledger := w.ledger.withReceived n } r w') :
    ReceiveEnds w r w' := by
  obtain ⟨m, hledger⟩ := h.ledger
  exact ⟨h.vars, h.statusLine, h.log, m, hledger⟩

variable {w} in
/-- The last chunk. -/
theorem ReceiveEnds.closed {buf : CArray recvBufSize} {off : ℕ} (n : ℕ) :
    ReceiveEnds w (some off) { w with recvBuf := buf, ledger := w.ledger.withReceived n } := by
  refine ⟨rfl, rfl, rfl, n, ?_⟩
  show w.ledger.withReceived n = (w.ledger.fails false).withReceived n
  rw [Ledger.fails_false]

theorem recvLoop_ensures (fd : ℤ) (off : ℕ) (hoff : off ≤ recvBufSize) :
    Ensures hostname answer (ReceiveEnds w) (recvLoop fd off) w := by
  induction off using recvLoop.induct generalizing w with
  | case1 off ih =>
    have hbounds : NetOp.InBounds hostname (.recv fd off (recvBufSize - off)) := by
      show off + (recvBufSize - off) ≤ recvBufSize
      omega
    rw [recvLoop]
    apply ensures_net hbounds
    intro a
    cases a with
    | error bytes neg => exact ⟨rfl, rfl, rfl, w.ledger.received, rfl⟩
    | received data le =>
      have hnext : off + data.length ≤ recvBufSize := by omega
      apply ensures_ite
      · intro hmore
        apply ensures_mono (ih data le hmore _ hnext)
        intro r w' h
        exact h.chunk
      · intro _
        exact ReceiveEnds.closed (w.ledger.received + data.length)

theorem terminateRecvBuf_ensures (off : ℕ) :
    Ensures hostname answer
      (fun _ w' => ∃ buf : CArray recvBufSize, buf.Terminated ∧
        buf.text = textOf (w.recvBuf.bytes.take (min off (recvBufSize - 1))) ∧
        w' = { w with recvBuf := buf })
      (terminateRecvBuf off) w := by
  have hstore : ∀ i, (h : i + [(0 : UInt8)].length ≤ recvBufSize) → i = min off (recvBufSize - 1) →
      Ensures hostname answer
        (fun _ w' => ∃ buf : CArray recvBufSize, buf.Terminated ∧
          buf.text = textOf (w.recvBuf.bytes.take (min off (recvBufSize - 1))) ∧
          w' = { w with recvBuf := buf })
        (loc (.storeRecvBuf i 0)) w := by
    intro i h hi
    refine ensures_loc_last (dif_pos h) ?_
    refine ⟨_, CArray.store_nul_terminated _ h, ?_, rfl⟩
    rw [CArray.text_store_nul _ h, hi]
  apply ensures_ite
  · intro hlt
    exact hstore off hlt (by omega)
  · -- the buffer is full: its last byte goes
    intro hfull
    exact hstore (recvBufSize - 1) (by decide) (by omega)

/-- The status line taken from a response text, `old` being what it was. -/
def statusLineText (response old : List UInt8) : List UInt8 :=
  match findText crlf response with
  | none => old
  | some p => response.take (min p (statusLineSize - 1))

theorem extractStatusLine_ensures (hbuf : w.recvBuf.Terminated) (hline : w.statusLine.Terminated) :
    Ensures hostname answer
      (fun _ w' => ∃ line : CArray statusLineSize, line.Terminated ∧
        line.text = statusLineText w.recvBuf.text w.statusLine.text ∧ w' = { w with statusLine := line })
      extractStatusLine w := by
  refine ensures_loc (if_pos hbuf) ?_
  cases hfind : findText crlf w.recvBuf.text with
  | none => exact ⟨w.statusLine, hline, by rw [statusLineText, hfind], rfl⟩
  | some p =>
    have htext : statusLineText w.recvBuf.text w.statusLine.text
        = w.recvBuf.text.take (min p (statusLineSize - 1)) := by
      rw [statusLineText, hfind]
    rw [htext]
    have hslen : (if p ≥ statusLineSize then statusLineSize - 1 else p) = min p (statusLineSize - 1) := by
      split <;> omega
    have hlt : min p (statusLineSize - 1) < statusLineSize := by
      have hsize : statusLineSize = 64 := rfl
      omega
    show Ensures hostname answer _
      (loc (.copyStatusLine (if p ≥ statusLineSize then statusLineSize - 1 else p)) >>= fun _ =>
        loc (.storeStatusLine (if p ≥ statusLineSize then statusLineSize - 1 else p) 0)) w
    rw [hslen]
    generalize min p (statusLineSize - 1) = slen at hlt
    have hcopy : slen ≤ recvBufSize ∧ slen ≤ statusLineSize := by
      have hsize : statusLineSize = 64 := rfl
      have hbuf : recvBufSize = 2048 := rfl
      omega
    refine ensures_loc (dif_pos hcopy) ?_
    refine ensures_loc_last (dif_pos hlt) ⟨_, CArray.store_nul_terminated _ hlt, ?_, rfl⟩
    have hlen : 0 + (w.recvBuf.bytes.take slen).length = slen := by
      rw [Nat.zero_add, List.length_take, w.recvBuf.size_eq]
      omega
    rw [CArray.text_store_nul _ hlt, CArray.take_store w.statusLine (hlen.trans_le hcopy.2) hlen,
      List.take_zero, List.nil_append]
    exact textOf_take w.recvBuf.bytes slen

end Parts

/-! ### The whole request -/

/-- What the response part does to the world, and to the status line if it does not fail. -/
structure Responded (L : List UInt8 → Prop) (w : RequestWorld) (failed : Bool) (w' : RequestWorld) :
    Prop where
  vars : w'.vars = w.vars
  log : w'.log = w.log
  terminated : w'.statusLine.Terminated
  ledger : ∃ n, w'.ledger = (w.ledger.fails failed).withReceived n
  line : failed = false → L w'.statusLine.text

/-- Nothing has been received, and the status line is empty. -/
structure AwaitsResponse (w : RequestWorld) : Prop where
  received : w.ledger.received = 0
  statusLine : w.statusLine = CArray.zeros statusLineSize

theorem AwaitsResponse.terminated {w : RequestWorld} (h : AwaitsResponse w) : w.statusLine.Terminated := by
  rw [h.statusLine]
  exact CArray.zeros_terminated (by decide)

/-- The response part from the loop on: what the loop leaves in `recv_buf` decides the status line. -/
theorem receiveResponse_of_loop {hostname : List UInt8} {Ω : Type} {answer : Ω → Ledger → Answers}
    {L : List UInt8 → Prop} {fd : ℤ} {w : RequestWorld} (hw : AwaitsResponse w)
    (hloop : Ensures hostname answer
      (fun r w' => ReceiveEnds w r w' ∧
        ∀ off ∈ r, L (statusLineText (textOf (w'.recvBuf.bytes.take (min off (recvBufSize - 1)))) []))
      (recvLoop fd 0) w) :
    Ensures hostname answer (Responded L w) (receiveResponse fd) w := by
  apply ensures_seq hloop
  rintro r w' ⟨hends, htaken⟩
  obtain ⟨n, hledger⟩ := hends.ledger
  have hline : w'.statusLine = CArray.zeros statusLineSize := hends.statusLine.trans hw.statusLine
  have hterm : w'.statusLine.Terminated := by
    rw [hends.statusLine]
    exact hw.terminated
  cases r with
  | none => exact ⟨hends.vars, hends.log, hterm, ⟨n, hledger⟩, nofun⟩
  | some off =>
    apply ensures_seq (terminateRecvBuf_ensures hostname answer w' off)
    rintro - w'' ⟨buf, hbuf, htext, rfl⟩
    refine ensures_seq (extractStatusLine_ensures hostname answer _ hbuf hterm) ?_
    rintro - w'' ⟨line, hterminated, hlinetext, rfl⟩
    refine ⟨hends.vars, hends.log, hterminated, ⟨n, hledger⟩, fun _ => ?_⟩
    rw [hlinetext]
    show L (statusLineText buf.text w'.statusLine.text)
    rw [htext, hline, CArray.zeros_text]
    exact htaken off rfl

/-- Of a stack that answers anything the response part keeps what it has to. -/
theorem receiveResponse_ensures (hostname : List UInt8) {Ω : Type} (answer : Ω → Ledger → Answers)
    (fd : ℤ) (w : RequestWorld) (hw : AwaitsResponse w) :
    Ensures hostname answer (Responded (fun _ => True) w) (receiveResponse fd) w :=
  receiveResponse_of_loop hw
    (ensures_mono (recvLoop_ensures hostname answer w fd 0 (Nat.zero_le _))
      fun _ _ h => ⟨h, fun _ _ => trivial⟩)

section Whole

variable {hostname : List UInt8} {Ω : Type} {answer : Ω → Ledger → Answers} {L : List UInt8 → Prop}
variable {w : RequestWorld}

theorem httpHeadLen_pos (hostname : List UInt8) : 0 < httpHeadLen hostname := by
  have hhead : 0 < (ascii "HEAD / HTTP/1.1\r\n").length := by decide
  simp only [httpHeadLen, sendBuf, httpHead, List.length_append, List.length_singleton]
  omega

/-- A failed call ends the exchange. -/
theorem responded_fails {w : RequestWorld} (hw : AwaitsResponse w) :
    Responded L w true (w.withLedger (w.ledger.fails true)) :=
  ⟨rfl, rfl, hw.terminated, ⟨w.ledger.received, rfl⟩, nofun⟩

/-- A call that ends the exchange if it fails. -/
theorem ensures_unless_failed (hw : AwaitsResponse w) {err : ℤ} {next : RequestProg Bool}
    (h : Ensures hostname answer (Responded L w) next w) :
    Ensures hostname answer (Responded L w) (if err ≠ 0 then pure true else next)
      (w.withLedger (w.ledger.fails (err != 0))) := by
  apply ensures_ite
  · intro herr
    show Responded L w true (w.withLedger (w.ledger.fails (err != 0)))
    rw [bne_iff_ne.mpr herr]
    exact responded_fails hw
  · intro herr
    obtain rfl : err = 0 := not_not.mp herr
    show Ensures hostname answer _ _ (w.withLedger (w.ledger.fails false))
    rw [Ledger.fails_false]
    exact h

theorem exchange_ensures
    (hresponse : ∀ fd w, AwaitsResponse w →
      Ensures hostname answer (Responded L w) (receiveResponse fd) w)
    (fd : ℤ) (res : ℕ) (hw : AwaitsResponse w) :
    Ensures hostname answer (Responded L w) (exchange hostname fd res) w := by
  -- the two timeouts may fail
  refine ensures_net trivial ?_
  intro _
  refine ensures_net trivial ?_
  intro _
  show Ensures hostname answer _ _ (w.withLedger ((w.ledger.fails false).fails false))
  rw [Ledger.fails_false, Ledger.fails_false]
  apply ensures_seq (tlsSetup_ensures hostname answer w fd)
  rintro err w' rfl
  apply ensures_unless_failed hw
  refine ensures_net trivial ?_
  intro err
  apply ensures_unless_failed hw
  apply ensures_seq (sendLoop_ensures hostname answer w fd 0 (httpHeadLen_pos hostname))
  rintro ok w' rfl
  apply ensures_ite
  · intro hok
    subst hok
    show Ensures hostname answer _ _ (w.withLedger (w.ledger.fails false))
    rw [Ledger.fails_false]
    exact hresponse fd w hw
  · intro hok
    obtain rfl : ok = false := eq_false_of_ne_true hok
    exact responded_fails hw

/-! `clean_up` -/

/-- What the log names as the result of a request with this status line. -/
def shownResult (line : List UInt8) : List UInt8 := if line = [] then ascii "OK" else line

/-- The two lines in the log. -/
def resultLines (result : List UInt8) (ok : Bool) (v : HttpsVars) : List LogLine :=
  [.get result v.httpsReqTotal v.httpsReqFailures,
    .test ok (v.httpsReqTotal - v.httpsReqFailures) v.httpsReqTotal]

def countedResult (failed : Bool) (v : HttpsVars) : HttpsVars := if failed then v.countFailure else v

/-- The world after `clean_up`. -/
def RequestWorld.cleanedUp (w : RequestWorld) (failed : Bool) (fd : ℤ) (res : Option ℕ) :
    RequestWorld :=
  { w with
    vars := countedResult failed w.vars
    log := w.log ++ resultLines (if failed then ascii "FAILED" else shownResult w.statusLine.text)
      (!failed) (countedResult failed w.vars)
    ledger := { w.ledger with
      closed := w.ledger.closed ++ if fd ≥ 0 then [fd] else []
      freed := w.ledger.freed ++ res.toList } }

theorem countResult_ensures (failed : Bool) (w : RequestWorld) :
    Ensures hostname answer (fun _ w' => w' = { w with vars := countedResult failed w.vars })
      (countResult failed) w := by
  cases failed with
  | false => exact rfl
  | true => exact ensures_loc_last rfl rfl

theorem resultText_ensures (failed : Bool) (hline : w.statusLine.Terminated) :
    Ensures hostname answer
      (fun result w' =>
        result = (if failed then ascii "FAILED" else shownResult w.statusLine.text) ∧ w' = w)
      (resultText failed) w := by
  cases failed with
  | true => exact ⟨rfl, rfl⟩
  | false => exact ensures_loc (if_pos hline) ⟨rfl, rfl⟩

theorem closeSocket_ensures (fd : ℤ) (w : RequestWorld) :
    Ensures hostname answer
      (fun _ w' => w' =
        w.withLedger { w.ledger with closed := w.ledger.closed ++ if fd ≥ 0 then [fd] else [] })
      (closeSocket fd) w := by
  apply ensures_ite
  · intro hfd
    refine ensures_net trivial ?_
    intro _
    refine ensures_net trivial ?_
    intro _
    refine ensures_net_last trivial ?_
    intro _
    rw [if_pos hfd]
    rfl
  · intro hfd
    rw [if_neg hfd, List.append_nil]
    rfl

theorem freeAddresses_ensures (res : Option ℕ) (w : RequestWorld) :
    Ensures hostname answer
      (fun _ w' => w' = w.withLedger { w.ledger with freed := w.ledger.freed ++ res.toList })
      (freeAddresses res) w := by
  cases res with
  | none =>
    rw [Option.toList_none, List.append_nil]
    exact rfl
  | some res => exact ensures_net_last trivial fun _ => rfl

theorem cleanUp_ensures (failed : Bool) (fd : ℤ) (res : Option ℕ) (hline : w.statusLine.Terminated) :
    Ensures hostname answer (fun _ w' => w' = w.cleanedUp failed fd res) (cleanUp failed fd res) w := by
  apply ensures_seq (countResult_ensures failed w)
  rintro - w' rfl
  refine ensures_seq (resultText_ensures failed hline) ?_
  rintro result w' ⟨rfl, rfl⟩
  refine ensures_loc rfl (ensures_loc rfl ?_)
  apply ensures_seq (closeSocket_ensures fd _)
  rintro - w' rfl
  apply ensures_mono (freeAddresses_ensures res _)
  rintro - w' rfl
  simp only [RequestWorld.withLedger, RequestWorld.cleanedUp, resultLines, List.append_assoc,
    List.cons_append, List.nil_append]

/-- What holds when a request has ended. -/
structure RequestEnds (L : List UInt8 → Prop) (vars : HttpsVars) (w : RequestWorld) : Prop where
  vars_eq : w.vars = countedResult w.ledger.requestFailed vars.countTotal
  closed : w.ledger.closed = w.ledger.opened
  opened_le : w.ledger.opened.length ≤ 1
  freed : w.ledger.freed = w.ledger.obtained
  obtained_le : w.ledger.obtained.length ≤ 1
  line : w.ledger.requestFailed = false → L w.statusLine.text
  log : w.ledger.requestFailed = false →
    w.log = resultLines (shownResult w.statusLine.text) true w.vars

/-- What holds at `clean_up`: the descriptor and the address list are all there is to give back. -/
structure AtCleanUp (L : List UInt8 → Prop) (vars : HttpsVars) (failed : Bool) (fd : ℤ)
    (res : Option ℕ) (w : RequestWorld) : Prop where
  vars_eq : w.vars = vars.countTotal
  log : w.log = []
  requestFailed : w.ledger.requestFailed = failed
  opened : w.ledger.opened = if fd ≥ 0 then [fd] else []
  closed : w.ledger.closed = []
  obtained : w.ledger.obtained = res.toList
  freed : w.ledger.freed = []
  line : failed = false → L w.statusLine.text
  terminated : w.statusLine.Terminated

theorem AtCleanUp.cleanUp_ensures {vars : HttpsVars} {failed : Bool} {fd : ℤ} {res : Option ℕ}
    (h : AtCleanUp L vars failed fd res w) :
    Ensures hostname answer (fun _ w' => RequestEnds L vars w') (cleanUp failed fd res) w := by
  apply ensures_mono (HttpsRequest.cleanUp_ensures failed fd res h.terminated)
  rintro - w' rfl
  have hfailed : (w.cleanedUp failed fd res).ledger.requestFailed = failed := h.requestFailed
  refine ⟨?_, ?_, ?_, ?_, ?_, ?_, ?_⟩
  · rw [hfailed, ← h.vars_eq]
    rfl
  · show w.ledger.closed ++ _ = w.ledger.opened
    rw [h.closed, h.opened, List.nil_append]
  · show w.ledger.opened.length ≤ 1
    rw [h.opened]
    split
    · simp
    · simp
  · show w.ledger.freed ++ _ = w.ledger.obtained
    rw [h.freed, h.obtained, List.nil_append]
  · show w.ledger.obtained.length ≤ 1
    rw [h.obtained]
    cases res with
    | none => simp
    | some res => simp
  · rw [hfailed]
    exact h.line
  · rw [hfailed]
    rintro rfl
    show w.log ++ _ = _
    rw [h.log]
    rfl

/-- **Every request ends**, within bounds, counted once, and with everything given back. -/
theorem sendHttpRequest_ensures
    (hresponse : ∀ fd w, AwaitsResponse w →
      Ensures hostname answer (Responded L w) (receiveResponse fd) w)
    {vars : HttpsVars} (hready : vars.networkReady = true) (recvBuf : CArray recvBufSize)
    (statusLine : CArray statusLineSize) :
    Ensures hostname answer (fun _ w' => RequestEnds L vars w') (sendHttpRequest hostname)
      (.start vars recvBuf statusLine) := by
  refine ensures_loc rfl (ensures_loc rfl ?_)
  refine ensures_ite ?_ fun h => absurd hready h
  intro _
  refine ensures_loc rfl (ensures_seq (resolve_ensures hostname answer _) ?_)
  have hline : (CArray.zeros statusLineSize).Terminated := CArray.zeros_terminated (by decide)
  rintro a w rfl
  cases a with
  | error err ne =>
    exact AtCleanUp.cleanUp_ensures ⟨rfl, rfl, rfl, rfl, rfl, rfl, rfl, nofun, hline⟩
  | found res =>
    refine ensures_net trivial ?_
    intro fd
    apply ensures_ite
    · -- no descriptor: only the addresses are given back
      intro hfd
      have hrecord (l : Ledger) : l.record (.socket res) fd = l.fails true := if_pos hfd
      rw [hrecord]
      exact AtCleanUp.cleanUp_ensures ⟨rfl, rfl, rfl, rfl, rfl, rfl, rfl, nofun, hline⟩
    · intro hfd
      have hrecord (l : Ledger) :
          l.record (.socket res) fd = { l with opened := l.opened ++ [fd.1] } := if_neg hfd
      have hopen : fd.1 ≥ 0 := by
        have hrange := fd.2
        omega
      rw [hrecord]
      apply ensures_seq (exchange_ensures hresponse fd.1 res ⟨rfl, rfl⟩)
      intro failed w h
      obtain ⟨n, hledger⟩ := h.ledger
      refine AtCleanUp.cleanUp_ensures ⟨h.vars, h.log, ?_, ?_, ?_, ?_, ?_, h.line, h.terminated⟩
      · rw [hledger]
        rfl
      · rw [hledger, if_pos hopen]
        rfl
      · rw [hledger]
        rfl
      · rw [hledger]
        rfl
      · rw [hledger]
        rfl

end Whole

end WifiMemfault.HttpsRequest
