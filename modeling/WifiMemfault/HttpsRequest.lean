import WifiMemfault.HttpsClient
import WifiMemfault.Lib.CString
import WifiMemfault.Lib.EffectProgram

/-!
# One HTTPS request

The model of `send_http_request` and `tls_setup`: the calls into the network stack, the two loops that
move the request out and the response in, the status line, and the label `clean_up` with the counters.

Every call into the stack answers what the environment picks, within the type of its answer: `send` moves
between one byte and what it is asked to, or fails; `recv` stores at most what it is asked to, or fails;
`getaddrinfo` hands out an address list exactly if it succeeds.  An access outside `send_buf`, `recv_buf`
or `status_line`, or a string function on bytes that are no string, has no answer, and the request ends
there.  The ledger keeps what the calls have answered; the code does not read it.  The socket's type and
the address that only the debug log prints are left out.
-/

namespace WifiMemfault.HttpsRequest

open EffectProgram CString HttpsClient

/-- The bytes of a text. -/
def ascii (text : String) : List UInt8 := text.toList.map fun c => UInt8.ofNat c.toNat

def httpsPort : List UInt8 := ascii "443"
def crlf : List UInt8 := ascii "\r\n"

def recvBufSize : ℕ := 2048
def statusLineSize : ℕ := 64

/-- `DNS_EAI_CANCELED`. -/
def dnsEaiCanceled : ℤ := -101

/-- `HTTP_HEAD`, with `CONFIG_APP_HTTPS_HOSTNAME`. -/
def httpHead (hostname : List UInt8) : List UInt8 :=
  ascii "HEAD / HTTP/1.1\r\n" ++ (ascii "Host: " ++ hostname ++ ascii ":" ++ httpsPort ++ crlf)
    ++ ascii "Connection: close\r\n\r\n"

/-- The array `send_buf`. -/
def sendBuf (hostname : List UInt8) : List UInt8 := httpHead hostname ++ [0]

def httpHeadLen (hostname : List UInt8) : ℕ := (sendBuf hostname).length - 1

/-! ### The calls -/

inductive Lookup where
  | error (err : ℤ) (ne : err ≠ 0)
  | found (res : ℕ)

/-- A descriptor, or `-1`. -/
abbrev SocketFd := {fd : ℤ // -1 ≤ fd}

/-- What `send` answers to a request of `len` bytes. -/
inductive Sent (len : ℕ) where
  | error (bytes : ℤ) (neg : bytes < 0)
  | sent (bytes : ℕ) (pos : 0 < bytes) (le : bytes ≤ len)

/-- What `recv` answers to a request of `len` bytes: no bytes is the end of the stream. -/
inductive Received (len : ℕ) where
  | error (bytes : ℤ) (neg : bytes < 0)
  | received (data : List UInt8) (le : data.length ≤ len)

/-- The options `setsockopt` is called with. -/
inductive SockOpt where
  | soRcvtimeo | soSndtimeo | tlsPeerVerify | tlsSecTagList | tlsHostname
  deriving DecidableEq, Repr

/-- An option of `SOL_TLS`. -/
def SockOpt.isTls : SockOpt → Bool
  | .soRcvtimeo | .soSndtimeo => false
  | .tlsPeerVerify | .tlsSecTagList | .tlsHostname => true

inductive NetOp where
  | getaddrinfo
  | kSleep (ms : ℕ)
  | socket (res : ℕ)
  | setsockopt (fd : ℤ) (opt : SockOpt)
  | connect (fd : ℤ) (res : ℕ)
  /-- `len` bytes of `send_buf` from `off` on. -/
  | send (fd : ℤ) (off len : ℕ)
  /-- Up to `len` bytes to `recv_buf` from `off` on. -/
  | recv (fd : ℤ) (off len : ℕ)
  | shutdown (fd : ℤ)
  | close (fd : ℤ)
  | freeaddrinfo (res : ℕ)
  deriving DecidableEq, Repr

@[reducible] def NetOp.Ans : NetOp → Type
  | .getaddrinfo => Lookup
  | .socket _ => SocketFd
  | .setsockopt _ _ | .connect _ _ | .shutdown _ | .close _ => ℤ
  | .send _ _ len => Sent len
  | .recv _ _ len => Received len
  | .kSleep _ | .freeaddrinfo _ => Unit

/-- What the function does with its own memory, its counters and the log. -/
inductive LocalOp where
  | networkReady
  | countTotal
  | countFailure
  /-- `char status_line[64] = ""`. -/
  | initStatusLine
  | storeRecvBuf (i : ℕ) (b : UInt8)
  /-- `strstr(recv_buf, needle)`. -/
  | strstr (needle : List UInt8)
  /-- `memcpy(status_line, recv_buf, len)`. -/
  | copyStatusLine (len : ℕ)
  | storeStatusLine (i : ℕ) (b : UInt8)
  /-- `status_line` as a string. -/
  | readStatusLine
  /-- `GET host -> result`, and the two counters. -/
  | logGet (result : List UInt8)
  /-- `Test: OK` or `Test: FAIL`, and the two counters. -/
  | logTest (ok : Bool)
  deriving DecidableEq, Repr

@[reducible] def LocalOp.Ans : LocalOp → Type
  | .networkReady => Bool
  | .strstr _ => Option ℕ
  | .readStatusLine => List UInt8
  | .countTotal | .countFailure | .initStatusLine | .storeRecvBuf _ _ | .copyStatusLine _
  | .storeStatusLine _ _ | .logGet _ | .logTest _ => Unit

inductive RequestOp where
  | net (op : NetOp)
  | loc (op : LocalOp)

@[reducible] def RequestOp.Ans : RequestOp → Type
  | .net op => op.Ans
  | .loc op => op.Ans

@[reducible] def requestSig : Signature := ⟨RequestOp, RequestOp.Ans⟩

abbrev RequestProg (α : Type) := Prog requestSig α

def net (op : NetOp) : RequestProg op.Ans := @Prog.perform requestSig (.net op)

def loc (op : LocalOp) : RequestProg op.Ans := @Prog.perform requestSig (.loc op)

/-! ### The function -/

/-- The lookup, and its retry if it is cancelled. -/
def resolve : RequestProg Lookup := do
  match ← net .getaddrinfo with
  | .error err ne =>
    if err = dnsEaiCanceled then do
      net (.kSleep 2000)
      net .getaddrinfo
    else pure (.error err ne)
  | .found res => pure (.found res)

def tlsSetup (fd : ℤ) : RequestProg ℤ := do
  let err ← net (.setsockopt fd .tlsPeerVerify)
  if err ≠ 0 then pure err
  else do
    let err ← net (.setsockopt fd .tlsSecTagList)
    if err ≠ 0 then pure err
    else net (.setsockopt fd .tlsHostname)

/-- The loop around `send`, from its `off` on: it has sent everything. -/
def sendLoop (hostname : List UInt8) (fd : ℤ) (off : ℕ) : RequestProg Bool := do
  match ← net (.send fd off (httpHeadLen hostname - off)) with
  | .error _ _ => pure false
  | .sent bytes _ _ =>
    if off + bytes < httpHeadLen hostname then sendLoop hostname fd (off + bytes) else pure true
termination_by httpHeadLen hostname - off

/-- The loop around `recv`, from its `off` on: the final `off`, unless a call has failed. -/
def recvLoop (fd : ℤ) (off : ℕ) : RequestProg (Option ℕ) := do
  match ← net (.recv fd off (recvBufSize - off)) with
  | .error _ _ => pure none
  | .received data _ =>
    if data.length ≠ 0 then recvLoop fd (off + data.length) else pure (some (off + data.length))
termination_by recvBufSize - off

/-- `recv_buf` becomes a string. -/
def terminateRecvBuf (off : ℕ) : RequestProg Unit :=
  if off < recvBufSize then loc (.storeRecvBuf off 0) else loc (.storeRecvBuf (recvBufSize - 1) 0)

/-- The status line is what stands before the first line end, if there is one. -/
def extractStatusLine : RequestProg Unit := do
  match ← loc (.strstr crlf) with
  | none => pure ()
  | some p =>
    let slen := if p ≥ statusLineSize then statusLineSize - 1 else p
    loc (.copyStatusLine slen)
    loc (.storeStatusLine slen 0)

/-- What follows the loop around `send`; the request has failed. -/
def receiveResponse (fd : ℤ) : RequestProg Bool := do
  match ← recvLoop fd 0 with
  | none => pure true
  | some off => do
    terminateRecvBuf off
    extractStatusLine
    pure false

/-- What follows `socket`; the request has failed. -/
def exchange (hostname : List UInt8) (fd : ℤ) (res : ℕ) : RequestProg Bool := do
  let _ ← net (.setsockopt fd .soRcvtimeo)
  let _ ← net (.setsockopt fd .soSndtimeo)
  let err ← tlsSetup fd
  if err ≠ 0 then pure true
  else do
    let err ← net (.connect fd res)
    if err ≠ 0 then pure true
    else do
      if ← sendLoop hostname fd 0 then receiveResponse fd else pure true

def countResult (requestFailed : Bool) : RequestProg Unit :=
  if requestFailed then loc .countFailure else pure ()

/-- The result for the log. -/
def resultText (requestFailed : Bool) : RequestProg (List UInt8) :=
  if requestFailed then pure (ascii "FAILED")
  else do
    let statusLine ← loc .readStatusLine
    pure (if statusLine = [] then ascii "OK" else statusLine)

def closeSocket (fd : ℤ) : RequestProg Unit :=
  if fd ≥ 0 then do
    let _ ← net (.shutdown fd)
    let _ ← net (.close fd)
    net (.kSleep 100)
  else pure ()

def freeAddresses : Option ℕ → RequestProg Unit
  | none => pure ()
  | some res => net (.freeaddrinfo res)

/-- From `clean_up` on. -/
def cleanUp (requestFailed : Bool) (fd : ℤ) (res : Option ℕ) : RequestProg Unit := do
  countResult requestFailed
  let result ← resultText requestFailed
  loc (.logGet result)
  loc (.logTest (!requestFailed))
  closeSocket fd
  freeAddresses res

def sendHttpRequest (hostname : List UInt8) : RequestProg Unit := do
  loc .initStatusLine
  if ← loc .networkReady then do
    loc .countTotal
    match ← resolve with
    | .error _ _ => cleanUp true (-1) none
    | .found res => do
      let fd ← net (.socket res)
      if fd.1 = -1 then cleanUp true (-1) (some res)
      else do
        let requestFailed ← exchange hostname fd.1 res
        cleanUp requestFailed fd.1 (some res)

/-! ### What the calls do -/

/-- What the network stack has handed out, taken back and failed at since the request started. -/
structure Ledger where
  /-- The last lookup failed. -/
  unresolved : Bool
  /-- The socket, a TLS option, the connection, a send or a recv failed. -/
  callFailed : Bool
  opened : List ℤ
  closed : List ℤ
  obtained : List ℕ
  freed : List ℕ
  /-- The number of bytes received. -/
  received : ℕ
  deriving DecidableEq, Repr

namespace Ledger

def empty : Ledger := ⟨false, false, [], [], [], [], 0⟩

variable (l : Ledger)

def requestFailed : Bool := l.unresolved || l.callFailed

def fails (failed : Bool) : Ledger := { l with callFailed := l.callFailed || failed }

def record : (op : NetOp) → op.Ans → Ledger
  | .getaddrinfo, .error _ _ => { l with unresolved := true }
  | .getaddrinfo, .found res => { l with unresolved := false, obtained := l.obtained ++ [res] }
  | .socket _, fd => if fd.1 = -1 then l.fails true else { l with opened := l.opened ++ [fd.1] }
  | .setsockopt _ opt, err => l.fails (opt.isTls && err != 0)
  | .connect _ _, err => l.fails (err != 0)
  | .send _ _ _, .error _ _ => l.fails true
  | .send _ _ _, .sent _ _ _ => l
  | .recv _ _ _, .error _ _ => l.fails true
  | .recv _ _ _, .received data _ => { l with received := l.received + data.length }
  | .close fd, _ => { l with closed := l.closed ++ [fd] }
  | .freeaddrinfo res, _ => { l with freed := l.freed ++ [res] }
  | .kSleep _, _ => l
  | .shutdown _, _ => l

end Ledger

inductive LogLine where
  | get (result : List UInt8) (total failures : ℕ)
  | test (ok : Bool) (passed total : ℕ)
  deriving DecidableEq, Repr

structure RequestWorld where
  vars : HttpsVars
  recvBuf : CArray recvBufSize
  statusLine : CArray statusLineSize
  log : List LogLine
  ledger : Ledger

/-- The world a request starts in: `recv_buf` holds what an earlier request has left. -/
def RequestWorld.start (vars : HttpsVars) (recvBuf : CArray recvBufSize)
    (statusLine : CArray statusLineSize) : RequestWorld :=
  ⟨vars, recvBuf, statusLine, [], Ledger.empty⟩

/-- The access of a call is inside the array. -/
def NetOp.InBounds (hostname : List UInt8) : NetOp → Prop
  | .send _ off len => off + len ≤ (sendBuf hostname).length
  | .recv _ off len => off + len ≤ recvBufSize
  | _ => True

instance (hostname : List UInt8) (op : NetOp) : Decidable (op.InBounds hostname) :=
  match op with
  | .send _ _ _ | .recv _ _ _ => inferInstanceAs (Decidable (_ ≤ _))
  | .getaddrinfo | .kSleep _ | .socket _ | .setsockopt _ _ | .connect _ _ | .shutdown _ | .close _
  | .freeaddrinfo _ => inferInstanceAs (Decidable True)

namespace RequestWorld

variable (w : RequestWorld)

/-- `recv_buf` after a call that is in bounds. -/
def recvBufAfter (hostname : List UInt8) :
    (op : NetOp) → op.Ans → op.InBounds hostname → CArray recvBufSize
  | .recv _ off _, .received data le, h => w.recvBuf.store off data ((Nat.add_le_add_left le off).trans h)
  | _, _, _ => w.recvBuf

def netStep (hostname : List UInt8) (op : NetOp) (a : op.Ans) : Option op.Ans × RequestWorld :=
  if h : op.InBounds hostname then
    (some a, { w with recvBuf := w.recvBufAfter hostname op a h, ledger := w.ledger.record op a })
  else (none, w)

def locStep : (op : LocalOp) → Option op.Ans × RequestWorld
  | .networkReady => (some w.vars.networkReady, w)
  | .countTotal => (some (), { w with vars := w.vars.countTotal })
  | .countFailure => (some (), { w with vars := w.vars.countFailure })
  | .initStatusLine => (some (), { w with statusLine := CArray.zeros statusLineSize })
  | .storeRecvBuf i b =>
    if h : i + [b].length ≤ recvBufSize then
      (some (), { w with recvBuf := w.recvBuf.store i [b] h })
    else (none, w)
  | .strstr needle =>
    if w.recvBuf.Terminated then (some (findText needle w.recvBuf.text), w) else (none, w)
  | .copyStatusLine len =>
    if h : len ≤ recvBufSize ∧ len ≤ statusLineSize then
      (some (), { w with
        statusLine := w.statusLine.store 0 (w.recvBuf.bytes.take len)
          ((Nat.zero_add _).trans_le ((List.length_take_le _ _).trans h.2)) })
    else (none, w)
  | .storeStatusLine i b =>
    if h : i + [b].length ≤ statusLineSize then
      (some (), { w with statusLine := w.statusLine.store i [b] h })
    else (none, w)
  | .readStatusLine =>
    if w.statusLine.Terminated then (some w.statusLine.text, w) else (none, w)
  | .logGet result =>
    (some (), { w with log := w.log ++ [.get result w.vars.httpsReqTotal w.vars.httpsReqFailures] })
  | .logTest ok =>
    (some (), { w with log := w.log ++
      [.test ok (w.vars.httpsReqTotal - w.vars.httpsReqFailures) w.vars.httpsReqTotal] })

end RequestWorld

/-- An answer to each call. -/
abbrev Answers := (op : NetOp) → op.Ans

/-- The meaning of the calls, where `answer` says what the stack answers in a situation. -/
def requestDevice (hostname : List UInt8) {Ω : Type} (answer : Ω → Ledger → Answers) :
    Device requestSig Ω RequestWorld where
  step
    | .net op, o, w => w.netStep hostname op (answer o w.ledger op)
    | .loc op, _, w => w.locStep op

/-- A stack that answers whatever it likes. -/
def anyStack (hostname : List UInt8) : Device requestSig Answers RequestWorld :=
  requestDevice hostname fun o _ => o

/-- Every call succeeds, and the peer closes at once. -/
def okAnswers : Answers
  | .getaddrinfo => .found 0
  | .socket _ => ⟨0, by decide⟩
  | .setsockopt _ _ | .connect _ _ | .shutdown _ | .close _ => (0 : ℤ)
  | .send _ _ len => if h : 0 < len then .sent len h (Nat.le_refl len) else .error (-1) (by decide)
  | .recv _ _ len => .received [] (Nat.zero_le len)
  | .kSleep _ | .freeaddrinfo _ => ()

/-- A client that is connected and has not sent a request. -/
def connectedVars : HttpsVars := { HttpsVars.boot with networkReady := true }

end WifiMemfault.HttpsRequest
