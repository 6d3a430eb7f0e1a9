import WifiMemfault.HttpsRequestSpec

/-!
# The status line of a response

A peer that sends a stream of bytes and closes.  However the stream is cut into chunks, the loop around
`recv` takes its first 2048 bytes and no more, the terminator leaves the first 2047 of them as a string, and
the status line is what this string has before its first line end, if it has one.  Nothing an earlier
response left in `recv_buf` is read.

The response plays no part in the result: a request whose calls all succeed is reported as a success, also
when the peer has sent nothing.
-/

namespace WifiMemfault.HttpsRequest

open EffectProgram CString HttpsClient

/-- What `recv` answers: `chunk` bytes of the stream, as far as so many are asked for and left, and at
least one if any is. -/
def peerChunk (stream : List UInt8) (received chunk len : ℕ) : Received len :=
  .received ((stream.drop received).take (min len (max 1 chunk)))
    ((List.length_take_le _ _).trans (Nat.min_le_left _ _))

/-- Every chunk a request for `len` bytes may be answered with is one of these. -/
theorem peerChunk_any (stream : List UInt8) (received : ℕ) {k len : ℕ} (hpos : 0 < k) (hlen : k ≤ len) :
    ∃ le, peerChunk stream received k len = .received ((stream.drop received).take k) le := by
  have hk : min len (max 1 k) = k := by omega
  refine ⟨(List.length_take_le _ _).trans hlen, ?_⟩
  simp only [peerChunk, hk]

/-- The peer sends the stream and closes; each `recv` comes with a chunk size. -/
def peerAnswers (stream : List UInt8) (o : Answers × ℕ) (l : Ledger) : Answers
  | .recv _ _ len => peerChunk stream l.received o.2 len
  | op => o.1 op

def peerStack (hostname stream : List UInt8) : Device requestSig (Answers × ℕ) RequestWorld :=
  requestDevice hostname (peerAnswers stream)

/-- The string `recv_buf` holds in the end. -/
def responseText (stream : List UInt8) : List UInt8 := textOf (stream.take (recvBufSize - 1))

/-! ### The loop around `recv` -/

/-- The loop has the first `off` bytes of the stream. -/
structure HasReceived (stream : List UInt8) (off : ℕ) (w : RequestWorld) : Prop where
  received : w.ledger.received = off
  le_size : off ≤ recvBufSize
  le_stream : off ≤ stream.length
  bytes : w.recvBuf.bytes.take off = stream.take off

theorem take_append_chunk (stream : List UInt8) (off n : ℕ) :
    stream.take off ++ (stream.drop off).take n = stream.take (off + ((stream.drop off).take n).length) := by
  rw [List.take_add, List.length_take]
  congr 1
  rcases Nat.le_total n (stream.drop off).length with h | h
  · rw [Nat.min_eq_left h]
  · rw [Nat.min_eq_right h, List.take_length, List.take_of_length_le h]

/-- Storing the next bytes of the stream. -/
theorem HasReceived.store {stream data : List UInt8} {off : ℕ} {w : RequestWorld}
    (hw : HasReceived stream off w) (hdata : stream.take off ++ data = stream.take (off + data.length))
    (hstream : off + data.length ≤ stream.length) (hfit : off + data.length ≤ recvBufSize) :
    HasReceived stream (off + data.length)
      { w with
        recvBuf := w.recvBuf.store off data hfit
        ledger := w.ledger.withReceived (w.ledger.received + data.length) } := by
  refine ⟨?_, hfit, hstream, ?_⟩
  · show w.ledger.received + data.length = _
    rw [hw.received]
  · show (w.recvBuf.store off data hfit).bytes.take _ = _
    rw [CArray.take_store _ hfit rfl, hw.bytes, hdata]

/-- What the peer answers the loop: the next bytes of the stream, and none only if nothing is left or there
is no space. -/
theorem peerAnswers_recv {stream : List UInt8} {off : ℕ} {w : RequestWorld}
    (hw : HasReceived stream off w) (o : Answers × ℕ) (fd : ℤ) :
    ∃ data le, peerAnswers stream o w.ledger (.recv fd off (recvBufSize - off)) = .received data le ∧
      stream.take off ++ data = stream.take (off + data.length) ∧
      off + data.length ≤ stream.length ∧
      (data.length = 0 → off = min recvBufSize stream.length) := by
  obtain ⟨rfl, hsize, hstream, -⟩ := hw
  have hlen (off : ℕ) : ((stream.drop off).take (min (recvBufSize - off) (max 1 o.2))).length
      = min (min (recvBufSize - off) (max 1 o.2)) (stream.length - off) := by
    rw [List.length_take, List.length_drop]
  refine ⟨_, _, rfl, take_append_chunk stream _ _, ?_, ?_⟩
  · rw [hlen]
    omega
  · rw [hlen]
    omega

/-- **The loop takes the whole stream, or as much as fits.** -/
theorem recvLoop_peer (hostname stream : List UInt8) (fd : ℤ) (off : ℕ) (w : RequestWorld)
    (hw : HasReceived stream off w) :
    Ensures hostname (peerAnswers stream)
      (fun r w' => ReceiveEnds w r w' ∧
        ∃ n, r = some n ∧ n = min recvBufSize stream.length ∧ HasReceived stream n w')
      (recvLoop fd off) w := by
  induction off using recvLoop.induct generalizing w with
  | case1 off ih =>
    have hbounds : NetOp.InBounds hostname (.recv fd off (recvBufSize - off)) :=
      (Nat.add_sub_of_le hw.le_size).le
    rw [recvLoop]
    apply ensures_answer hbounds
    intro o
    obtain ⟨data, le, hanswer, hdata, hstream, hclosed⟩ := peerAnswers_recv hw o fd
    rw [hanswer]
    have hfit : off + data.length ≤ recvBufSize := (Nat.add_le_add_left le off).trans hbounds
    have hnext := hw.store hdata hstream hfit
    apply ensures_ite
    · intro hmore
      apply ensures_mono (ih data le hmore _ hnext)
      intro r w' h
      exact ⟨h.1.chunk, h.2⟩
    · -- no bytes: the stream is at its end, or the buffer is full
      intro hend
      have hzero : data.length = 0 := not_not.mp hend
      refine ⟨ReceiveEnds.closed (w.ledger.received + data.length), off + data.length, rfl, ?_, hnext⟩
      rw [hzero]
      exact hclosed hzero

/-! ### From the loop to the status line -/

/-- The status line of a stream. -/
def streamStatusLine (stream : List UInt8) : List UInt8 := statusLineText (responseText stream) []

theorem take_received {stream : List UInt8} {n : ℕ} {w : RequestWorld} (hw : HasReceived stream n w)
    (hn : n = min recvBufSize stream.length) :
    w.recvBuf.bytes.take (min n (recvBufSize - 1)) = stream.take (recvBufSize - 1) := by
  have hcut : (w.recvBuf.bytes.take n).take (recvBufSize - 1) = (stream.take n).take (recvBufSize - 1) := by
    rw [hw.bytes]
  rw [List.take_take, List.take_take, Nat.min_comm (recvBufSize - 1) n] at hcut
  rw [hcut]
  rcases Nat.le_total stream.length recvBufSize with h | h
  · rw [hn, Nat.min_eq_right h, Nat.min_comm, ← List.take_take, List.take_length]
  · rw [hn, Nat.min_eq_left h, Nat.min_eq_right (Nat.sub_le _ _)]

theorem receiveResponse_peer (hostname stream : List UInt8) (fd : ℤ) (w : RequestWorld)
    (hw : AwaitsResponse w) :
    Ensures hostname (peerAnswers stream) (Responded (fun line => line = streamStatusLine stream) w)
      (receiveResponse fd) w := by
  have hstart : HasReceived stream 0 w := ⟨hw.received, Nat.zero_le _, Nat.zero_le _, rfl⟩
  refine receiveResponse_of_loop hw (ensures_mono (recvLoop_peer hostname stream fd 0 w hstart) ?_)
  rintro r w' ⟨hends, n, rfl, hn, hreceived⟩
  refine ⟨hends, ?_⟩
  rintro off ⟨⟩
  rw [take_received hreceived hn]
  rfl

/-- A request to this peer that finds the network ready. -/
theorem peer_request_ends (hostname stream : List UInt8) {vars : HttpsVars}
    (hready : vars.networkReady = true) (recvBuf : CArray recvBufSize)
    (statusLine : CArray statusLineSize) (os : ℕ → Answers × ℕ) :
    ∃ w, (peerStack hostname stream).exec (sendHttpRequest hostname) os
        (.start vars recvBuf statusLine) = (some (), w) ∧
      RequestEnds (fun line => line = streamStatusLine stream) vars w := by
  obtain ⟨_, w, hrun, h⟩ := always_returns
    (sendHttpRequest_ensures (receiveResponse_peer hostname stream) hready recvBuf statusLine) os
  exact ⟨w, hrun, h⟩

/-! ### The status line depends on the stream only -/

theorem streamStatusLine_found {stream : List UInt8} {p : ℕ}
    (h : FirstAt crlf (responseText stream) p) :
    streamStatusLine stream = (responseText stream).take (min p (statusLineSize - 1)) := by
  rw [streamStatusLine, statusLineText, findText_eq_some.mpr h]

theorem streamStatusLine_none {stream : List UInt8} (h : ¬ crlf <:+: responseText stream) :
    streamStatusLine stream = [] := by
  rw [streamStatusLine, statusLineText, findText_eq_none h]

/-- **The status line of a request.**  Whatever the peer sends before it closes, however the stream is cut
into chunks and whatever `recv_buf` and the stack hold, the request ends; and if none of its calls fails, the
status line is what the first 2047 bytes of the stream have before their first zero byte and before their
first line end there, cut to 63 bytes, and empty if there is no line end. -/
theorem status_line_of_stream (hostname stream : List UInt8) (vars : HttpsVars)
    (hready : vars.networkReady = true) (recvBuf : CArray recvBufSize)
    (statusLine : CArray statusLineSize) (os : ℕ → Answers × ℕ) :
    ∃ w, (peerStack hostname stream).exec (sendHttpRequest hostname) os
        (.start vars recvBuf statusLine) = (some (), w) ∧
      (w.ledger.requestFailed = false →
        (∀ p, FirstAt crlf (textOf (stream.take 2047)) p →
          w.statusLine.text = (textOf (stream.take 2047)).take (min p 63)) ∧
        (¬ crlf <:+: textOf (stream.take 2047) → w.statusLine.text = [])) := by
  obtain ⟨w, hrun, h⟩ := peer_request_ends hostname stream hready recvBuf statusLine os
  refine ⟨w, hrun, ?_⟩
  intro hok
  rw [h.line hok]
  constructor
  · intro p hp
    exact streamStatusLine_found hp
  · intro hnone
    exact streamStatusLine_none hnone

/-- A response that comes in chunks of five bytes. -/
theorem status_line_of_ok_response :
    ∃ w, (peerStack (ascii "example.com") (ascii "HTTP/1.1 200 OK\r\n")).exec
        (sendHttpRequest (ascii "example.com")) (fun _ => (okAnswers, 5))
        (.start connectedVars (.zeros _) (.zeros _)) = (some (), w) ∧
      w.statusLine.text = ascii "HTTP/1.1 200 OK" := by
  obtain ⟨w, hrun, h⟩ := status_line_of_stream (ascii "example.com") (ascii "HTTP/1.1 200 OK\r\n")
    connectedVars rfl (.zeros _) (.zeros _) fun _ => (okAnswers, 5)
  have hok : w.ledger.requestFailed = false := by
    rw [← congrArg (fun r => r.2.ledger.requestFailed) hrun]
    decide +kernel
  have hfirst : FirstAt crlf (textOf ((ascii "HTTP/1.1 200 OK\r\n").take 2047)) 15 :=
    findText_eq_some.mp (by decide)
  refine ⟨w, hrun, ?_⟩
  rw [(h hok).1 15 hfirst]
  decide

/-! ### The result does not depend on it -/

/-- A line end after a first byte makes a status line. -/
theorem shownResult_found {text : List UInt8} {p n : ℕ} (hp : 0 < p) (hn : 0 < n)
    (h : FirstAt crlf text p) : shownResult (text.take (min p n)) = text.take (min p n) := by
  apply if_neg
  intro hempty
  have hcrlf : crlf ≠ [] := by decide
  rcases List.take_eq_nil_iff.mp hempty with hzero | hnil
  · omega
  · obtain ⟨hstarts, -⟩ := h
    rw [hnil, List.drop_nil] at hstarts
    exact hcrlf (List.prefix_nil.mp hstarts)

/-- **The response does not decide the result.**  A request to this peer whose calls succeed is counted as a
success, whatever the stream and its chunks are.  The stream only decides what the log names as the result:
the status line if there is a line end with something before it, and `OK` otherwise. -/
theorem response_reported_as_success (hostname stream : List UInt8) (vars : HttpsVars)
    (hready : vars.networkReady = true) (recvBuf : CArray recvBufSize)
    (statusLine : CArray statusLineSize) (os : ℕ → Answers × ℕ) :
    ∃ w, (peerStack hostname stream).exec (sendHttpRequest hostname) os
        (.start vars recvBuf statusLine) = (some (), w) ∧
      (w.ledger.requestFailed = false →
        w.vars.httpsReqTotal = vars.httpsReqTotal + 1 ∧
        w.vars.httpsReqFailures = vars.httpsReqFailures ∧
        (∀ p, 0 < p → FirstAt crlf (textOf (stream.take 2047)) p →
          w.log = resultLines ((textOf (stream.take 2047)).take (min p 63)) true w.vars) ∧
        (¬ crlf <:+: textOf (stream.take 2047) ∨ FirstAt crlf (textOf (stream.take 2047)) 0 →
          w.log = resultLines (ascii "OK") true w.vars)) := by
  obtain ⟨w, hrun, h⟩ := peer_request_ends hostname stream hready recvBuf statusLine os
  refine ⟨w, hrun, ?_⟩
  intro hok
  have hvars : w.vars = vars.countTotal := by
    rw [h.vars_eq, hok]
    rfl
  have hlog := h.log hok
  rw [h.line hok] at hlog
  refine ⟨?_, ?_, ?_, ?_⟩
  · rw [hvars]
    rfl
  · rw [hvars]
    rfl
  · intro p hpos hp
    rw [hlog, streamStatusLine_found hp]
    exact congrArg (resultLines · true w.vars) (shownResult_found hpos (by decide) hp)
  · intro hnone
    have hempty : streamStatusLine stream = [] := by
      rcases hnone with hnone | hzero
      · exact streamStatusLine_none hnone
      · rw [streamStatusLine_found hzero, Nat.zero_min, List.take_zero]
    rw [hlog, hempty]
    rfl

/-- A peer that closes without a byte. -/
theorem response_reported_as_success_empty :
    ∃ w, (peerStack (ascii "example.com") []).exec (sendHttpRequest (ascii "example.com"))
        (fun _ => (okAnswers, 1)) (.start connectedVars (.zeros _) (.zeros _)) = (some (), w) ∧
      w.vars.httpsReqTotal = 1 ∧ w.vars.httpsReqFailures = 0 ∧
      w.log = resultLines (ascii "OK") true w.vars := by
  obtain ⟨w, hrun, h⟩ := response_reported_as_success (ascii "example.com") [] connectedVars rfl
    (.zeros _) (.zeros _) fun _ => (okAnswers, 1)
  have hok : w.ledger.requestFailed = false := by
    rw [← congrArg (fun r => r.2.ledger.requestFailed) hrun]
    decide +kernel
  obtain ⟨htotal, hfailures, -, hnone⟩ := h hok
  exact ⟨w, hrun, htotal, hfailures, hnone (Or.inl (by decide))⟩

/-- No line end, no status line, and still a success. -/
theorem success_without_status_line :
    ¬ ∀ (hostname stream : List UInt8) (vars : HttpsVars) (recvBuf : CArray recvBufSize)
        (statusLine : CArray statusLineSize) (os : ℕ → Answers × ℕ) (w : RequestWorld),
      vars.networkReady = true →
      (peerStack hostname stream).exec (sendHttpRequest hostname) os
          (.start vars recvBuf statusLine) = (some (), w) →
      w.ledger.requestFailed = false →
      w.vars.httpsReqFailures = vars.httpsReqFailures →
      crlf <:+: stream ∧ w.statusLine.text ≠ [] := by
  intro hclaim
  have hrun := hclaim (ascii "example.com") [] connectedVars (.zeros _)
    (.zeros _) (fun _ => (okAnswers, 1)) _ rfl (Prod.ext ?_ rfl) ?_ ?_
  · exact hrun.2 (by decide +kernel)
  · decide +kernel
  · decide +kernel
  · decide +kernel

end WifiMemfault.HttpsRequest
