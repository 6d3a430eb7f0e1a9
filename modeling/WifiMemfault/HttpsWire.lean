import WifiMemfault.HttpsRequestRuns
import WifiMemfault.Lib.CallProtocol

/-!
# What the HTTPS client puts on the wire

The calls into the network stack over whole runs of the client, request after request, with the listener
between any two of them.  `Wire` is the other side: the addresses and the socket handed out, the options and
the connection of the socket, and the bytes sent over it.

No byte leaves the device before peer verification, the security tag and the host name have been set on the
very socket it leaves by, and this socket is connected; what leaves is the request, in order and without a gap;
no response is read before the whole request is out; and every socket is closed and its addresses freed before
the next lookup.
-/

namespace WifiMemfault.HttpsWire

open EffectProgram Runs
open HttpsClient HttpsRequest HttpsRequestRuns

/-! ### The other side -/

structure Wire where
  addresses : Option ℕ
  socket : Option ℤ
  /-- The options `setsockopt` has taken for the socket. -/
  options : List SockOpt
  connected : Bool
  /-- The bytes `send` has taken from the socket. -/
  sent : List UInt8
  deriving DecidableEq, Repr

namespace Wire

def idle : Wire := ⟨none, none, [], false, []⟩

variable (hostname : List UInt8) (w : Wire)

/-- Every option of `tls_setup` is set. -/
def Secured : Prop := ∀ opt : SockOpt, opt.isTls = true → opt ∈ w.options

/-- The socket is connected over TLS. -/
structure Connected (fd : ℤ) : Prop where
  socket : w.socket = some fd
  connected : w.connected = true
  secured : w.Secured

/-- The call keeps to the protocol. -/
def Allowed : NetOp → Prop
  | .getaddrinfo => w = idle
  | .socket res => w.addresses = some res ∧ w.socket = none
  | .setsockopt fd _ => w.socket = some fd ∧ w.connected = false
  | .connect fd res => w.socket = some fd ∧ w.addresses = some res ∧ w.connected = false ∧ w.Secured
  | .send fd off len =>
    w.Connected fd ∧ w.sent = (httpHead hostname).take off ∧ off + len = (httpHead hostname).length
  | .recv fd off len => w.Connected fd ∧ w.sent = httpHead hostname ∧ off + len ≤ recvBufSize
  | .shutdown fd => w.socket = some fd
  | .close fd => w.socket = some fd
  | .freeaddrinfo res => w.addresses = some res ∧ w.socket = none
  | .kSleep _ => True

/-- What the answer to a call makes of the other side. -/
def after : (op : NetOp) → op.Ans → Wire
  | .getaddrinfo, .found res => { w with addresses := some res }
  | .socket _, fd => if fd.1 = -1 then w else ⟨w.addresses, some fd.1, [], false, []⟩
  | .setsockopt _ opt, err => if err = (0 : ℤ) then { w with options := opt :: w.options } else w
  | .connect _ _, err => if err = (0 : ℤ) then { w with connected := true } else w
  | .send _ off _, .sent bytes _ _ => { w with sent := w.sent ++ ((sendBuf hostname).drop off).take bytes }
  | .close _, _ => ⟨w.addresses, none, [], false, []⟩
  | .freeaddrinfo _, _ => { w with addresses := none }
  | .getaddrinfo, .error _ _ => w
  | .send _ _ _, .error _ _ => w
  | .recv _ _ _, _ => w
  | .shutdown _, _ => w
  | .kSleep _, _ => w

end Wire

/-- What the function does with its own memory is no business of the other side. -/
def wireProtocol (hostname : List UInt8) : Protocol requestSig Wire where
  Allowed w
    | .net op => w.Allowed hostname op
    | .loc _ => True
  after w
    | .net op, a => w.after hostname op a
    | .loc _, _ => w

/-! ### The parts of a request -/

section Parts

variable {hostname : List UInt8} {α : Type} {Q : α → Wire → Prop} {w : Wire}

theorem obeys_net {op : NetOp} {f : op.Ans → RequestProg α} (hallowed : w.Allowed hostname op)
    (hf : ∀ a, (f a).Obeys (wireProtocol hostname) Q (w.after hostname op a)) :
    (net op >>= f).Obeys (wireProtocol hostname) Q w :=
  Prog.obeys_perform hallowed hf

theorem obeys_net_last {op : NetOp} {Q : op.Ans → Wire → Prop} (hallowed : w.Allowed hostname op)
    (hQ : ∀ a, Q a (w.after hostname op a)) : (net op).Obeys (wireProtocol hostname) Q w :=
  Prog.obeys_perform_last hallowed hQ

def IsLocal : RequestOp → Prop
  | .loc _ => True
  | .net _ => False

/-- A part that makes no call into the stack. -/
theorem obeys_local {p : RequestProg α} (hp : p.Calls IsLocal) :
    p.Obeys (wireProtocol hostname) (fun _ w' => w' = w) w := by
  refine Prog.obeys_of_calls ?_ ?_ hp
  · rintro w (op | op) hop
    · exact hop.elim
    · exact trivial
  · rintro w (op | op) x hop
    · exact hop.elim
    · rfl

theorem resolve_obeys : resolve.Obeys (wireProtocol hostname)
    (fun a w => w = match a with
      | .found res => { Wire.idle with addresses := some res }
      | .error _ _ => Wire.idle) Wire.idle := by
  refine obeys_net rfl fun a => ?_
  cases a with
  | found res => exact rfl
  | error err ne =>
    refine Prog.obeys_ite (fun _ => ?_) fun _ => rfl
    refine obeys_net trivial fun _ => obeys_net_last rfl fun a => ?_
    cases a with
    | found res => rfl
    | error err' ne' => rfl

/-- The socket and its addresses, as long as the request has them. -/
structure Holds (fd : ℤ) (res : ℕ) (w : Wire) : Prop where
  socket : w.socket = some fd
  addresses : w.addresses = some res

/-- Before the connection options are added, one after the other. -/
structure Opened (fd : ℤ) (res : ℕ) (opts : List SockOpt) (w : Wire) : Prop extends Holds fd res w where
  connected : w.connected = false
  sent : w.sent = []
  options : ∀ opt ∈ opts, opt ∈ w.options

theorem Opened.setsockopt {fd : ℤ} {res : ℕ} {opts : List SockOpt} (hostname : List UInt8)
    (h : Opened fd res opts w) (opt : SockOpt) (err : ℤ) : Opened fd res opts (w.after hostname (.setsockopt fd opt) err) := by
  simp only [Wire.after]
  split
  · exact ⟨⟨h.socket, h.addresses⟩, h.connected, h.sent, fun o ho => List.mem_cons_of_mem _ (h.options o ho)⟩
  · exact h

theorem Opened.setsockopt_taken {fd : ℤ} {res : ℕ} {opts : List SockOpt} (hostname : List UInt8)
    (h : Opened fd res opts w) (opt : SockOpt) : Opened fd res (opt :: opts) (w.after hostname (.setsockopt fd opt) (0 : ℤ)) := by
  refine ⟨⟨h.socket, h.addresses⟩, h.connected, h.sent, fun o ho => ?_⟩
  rcases List.mem_cons.mp ho with rfl | ho
  · exact List.mem_cons_self
  · exact List.mem_cons_of_mem _ (h.options o ho)

theorem Opened.allowed {fd : ℤ} {res : ℕ} {opts : List SockOpt} (h : Opened fd res opts w) (opt : SockOpt) :
    w.Allowed hostname (.setsockopt fd opt) := ⟨h.socket, h.connected⟩

theorem tlsSetup_obeys {fd : ℤ} {res : ℕ} (h : Opened fd res [] w) :
    (tlsSetup fd).Obeys (wireProtocol hostname)
      (fun err w' => Opened fd res [] w' ∧ (err = 0 → w'.Secured)) w := by
  refine obeys_net (h.allowed _) fun verify => Prog.obeys_ite (fun herr => ?_) fun hverify => ?_
  · exact ⟨h.setsockopt hostname _ _, fun hzero => absurd hzero herr⟩
  obtain rfl : verify = 0 := not_not.mp hverify
  have h := h.setsockopt_taken hostname .tlsPeerVerify
  refine obeys_net (h.allowed _) fun tag => Prog.obeys_ite (fun herr => ?_) fun htag => ?_
  · have hopened := h.setsockopt hostname .tlsSecTagList tag
    exact ⟨{ hopened with options := fun _ ho => absurd ho List.not_mem_nil },
      fun hzero => absurd hzero herr⟩
  obtain rfl : tag = 0 := not_not.mp htag
  have h := h.setsockopt_taken hostname .tlsSecTagList
  refine obeys_net_last (h.allowed _) fun name => ?_
  have hopened := h.setsockopt hostname .tlsHostname name
  refine ⟨{ hopened with options := fun _ ho => absurd ho List.not_mem_nil }, fun hname => ?_⟩
  obtain rfl : name = 0 := hname
  have htaken := (h.setsockopt_taken hostname .tlsHostname).options
  intro opt hopt
  refine htaken opt ?_
  cases opt with
  | soRcvtimeo => cases hopt
  | soSndtimeo => cases hopt
  | tlsPeerVerify => simp
  | tlsSecTagList => simp
  | tlsHostname => simp

/-- The connection, with `off` bytes of the request sent over it. -/
structure Sending (hostname : List UInt8) (fd : ℤ) (res off : ℕ) (w : Wire) : Prop extends Holds fd res w where
  connected : w.connected = true
  secured : w.Secured
  sent : w.sent = (httpHead hostname).take off

theorem Sending.toConnected {fd : ℤ} {res off : ℕ} (h : Sending hostname fd res off w) : w.Connected fd :=
  ⟨h.socket, h.connected, h.secured⟩

theorem httpHeadLen_eq (hostname : List UInt8) : httpHeadLen hostname = (httpHead hostname).length := by
  simp [httpHeadLen, sendBuf]

/-- What `send` has taken follows what it had taken before. -/
theorem Sending.send {fd : ℤ} {res off len : ℕ} (h : Sending hostname fd res off w)
    (hlen : off + len = (httpHead hostname).length) {bytes : ℕ} (pos : 0 < bytes) (le : bytes ≤ len) :
    Sending hostname fd res (off + bytes) (w.after hostname (.send fd off len) (.sent bytes pos le)) := by
  refine ⟨⟨h.socket, h.addresses⟩, h.connected, h.secured, ?_⟩
  have hbuf : ((sendBuf hostname).drop off).take bytes = ((httpHead hostname).drop off).take bytes := by
    rw [sendBuf, List.drop_append_of_le_length (by omega),
      List.take_append_of_le_length (by rw [List.length_drop]; omega)]
  show w.sent ++ ((sendBuf hostname).drop off).take bytes = _
  rw [h.sent, hbuf, List.take_add]

theorem sendLoop_obeys {fd : ℤ} {res : ℕ} (off : ℕ) (hoff : off < httpHeadLen hostname)
    (h : Sending hostname fd res off w) :
    (sendLoop hostname fd off).Obeys (wireProtocol hostname)
      (fun ok w' => Holds fd res w' ∧ (ok = true → Sending hostname fd res (httpHead hostname).length w')) w := by
  have hhead := httpHeadLen_eq hostname
  induction off using sendLoop.induct hostname generalizing w with
  | case1 off ih =>
    have hlen : off + (httpHeadLen hostname - off) = (httpHead hostname).length := by omega
    rw [sendLoop]
    refine obeys_net ⟨h.toConnected, h.sent, hlen⟩ fun a => ?_
    cases a with
    | error bytes neg => exact ⟨h.toHolds, fun hok => by cases hok⟩
    | sent bytes pos le =>
      have hsent := h.send hlen pos le
      refine Prog.obeys_ite (fun hmore => ih bytes pos le hmore hmore hsent) fun hdone => ?_
      refine ⟨hsent.toHolds, fun _ => ?_⟩
      have hall : off + bytes = (httpHead hostname).length := by omega
      rw [← hall]
      exact hsent

theorem recvLoop_obeys {fd : ℤ} {res : ℕ} (off : ℕ) (hoff : off ≤ recvBufSize)
    (h : Sending hostname fd res (httpHead hostname).length w) :
    (recvLoop fd off).Obeys (wireProtocol hostname) (fun _ w' => w' = w) w := by
  have hsent : w.sent = httpHead hostname := h.sent.trans (List.take_length)
  induction off using recvLoop.induct with
  | case1 off ih =>
    rw [recvLoop]
    refine obeys_net ⟨h.toConnected, hsent, by omega⟩ fun a => ?_
    cases a with
    | error bytes neg => exact rfl
    | received data le =>
      refine Prog.obeys_ite (fun hmore => ih data le hmore ?_) fun _ => rfl
      omega

theorem extractStatusLine_local : extractStatusLine.Calls IsLocal := by
  refine Prog.calls_bind (Prog.calls_perform trivial) fun p => ?_
  cases p with
  | none => exact trivial
  | some p => exact Prog.calls_bind (Prog.calls_perform trivial) fun _ => Prog.calls_perform trivial

theorem receiveResponse_obeys {fd : ℤ} {res : ℕ} (h : Sending hostname fd res (httpHead hostname).length w) :
    (receiveResponse fd).Obeys (wireProtocol hostname) (fun _ w' => w' = w) w := by
  refine (recvLoop_obeys 0 (Nat.zero_le _) h).bind ?_
  rintro r w' rfl
  cases r with
  | none => exact rfl
  | some off =>
    refine obeys_local (Prog.calls_bind ?_ fun _ => Prog.calls_bind extractStatusLine_local fun _ => trivial)
    exact Prog.calls_ite (Prog.calls_perform trivial) (Prog.calls_perform trivial)

theorem exchange_obeys {fd : ℤ} {res : ℕ} (h : Opened fd res [] w) :
    (exchange hostname fd res).Obeys (wireProtocol hostname) (fun _ w' => Holds fd res w') w := by
  refine obeys_net (h.allowed _) fun err => ?_
  have h := h.setsockopt hostname .soRcvtimeo err
  refine obeys_net (h.allowed _) fun err => ?_
  have h := h.setsockopt hostname .soSndtimeo err
  refine (tlsSetup_obeys h).bind ?_
  rintro err w' ⟨hopened, hsecured⟩
  refine Prog.obeys_ite (fun _ => hopened.toHolds) fun hsetup => ?_
  have hsecured := hsecured (not_not.mp hsetup)
  refine obeys_net ⟨hopened.socket, hopened.addresses, hopened.connected, hsecured⟩ fun err => ?_
  refine Prog.obeys_ite (fun herr => ?_) fun herr => ?_
  · simp only [Wire.after, if_neg herr]
    exact hopened.toHolds
  obtain rfl : err = 0 := not_not.mp herr
  have hconnected : Sending hostname fd res 0 (w'.after hostname (.connect fd res) (0 : ℤ)) :=
    ⟨⟨hopened.socket, hopened.addresses⟩, rfl, hsecured, hopened.sent⟩
  refine (sendLoop_obeys 0 (httpHeadLen_pos hostname) hconnected).bind ?_
  rintro ok w'' ⟨hholds, hsent⟩
  refine Prog.obeys_ite (fun hok => ?_) fun _ => hholds
  refine (receiveResponse_obeys (hsent hok)).mono ?_
  rintro failed w''' rfl
  exact hholds

/-- What the request may hold at the label `clean_up`. -/
def AtCleanUp (fd : ℤ) (res : Option ℕ) (w : Wire) : Prop :=
  w.addresses = res ∧ if fd ≥ 0 then w.socket = some fd else w = { Wire.idle with addresses := res }

theorem closeSocket_obeys {fd : ℤ} {res : Option ℕ} (h : AtCleanUp fd res w) :
    (closeSocket fd).Obeys (wireProtocol hostname) (fun _ w' => w' = { Wire.idle with addresses := res }) w := by
  obtain ⟨haddresses, hsocket⟩ := h
  refine Prog.obeys_ite (fun hopen => ?_) fun hclosed => ?_
  · rw [if_pos hopen] at hsocket
    refine obeys_net hsocket fun _ => obeys_net hsocket fun _ => obeys_net_last trivial fun _ => ?_
    show (⟨w.addresses, none, [], false, []⟩ : Wire) = _
    rw [haddresses]
    rfl
  · rw [if_neg hclosed] at hsocket
    exact hsocket

theorem cleanUp_obeys (failed : Bool) {fd : ℤ} {res : Option ℕ} (h : AtCleanUp fd res w) :
    (cleanUp failed fd res).Obeys (wireProtocol hostname) (fun _ w' => w' = Wire.idle) w := by
  have hcount : (countResult failed).Calls IsLocal := Prog.calls_ite (Prog.calls_perform trivial) trivial
  have hresult : (resultText failed).Calls IsLocal :=
    Prog.calls_ite trivial (Prog.calls_bind (Prog.calls_perform trivial) fun _ => trivial)
  refine (obeys_local hcount).bind ?_
  rintro _ _ rfl
  refine (obeys_local hresult).bind ?_
  rintro result _ rfl
  refine ⟨trivial, fun _ => ⟨trivial, fun _ => ?_⟩⟩
  refine (closeSocket_obeys h).bind ?_
  rintro _ _ rfl
  cases res with
  | none => exact rfl
  | some res => exact obeys_net_last ⟨rfl, rfl⟩ fun _ => rfl

/-- **A request keeps to the protocol**, whatever its calls are answered. -/
theorem sendHttpRequest_obeys (hostname : List UInt8) :
    (sendHttpRequest hostname).Obeys (wireProtocol hostname) (fun _ w => w = Wire.idle) Wire.idle := by
  refine ⟨trivial, fun _ => ⟨trivial, fun ready => Prog.obeys_ite (fun _ => ⟨trivial, fun _ => ?_⟩) fun _ => rfl⟩⟩
  refine resolve_obeys.bind ?_
  rintro a _ rfl
  cases a with
  | error err ne => exact cleanUp_obeys true ⟨rfl, rfl⟩
  | found res =>
    refine obeys_net ⟨rfl, rfl⟩ fun fd => Prog.obeys_ite (fun hnone => ?_) fun hfd => ?_
    · simp only [Wire.after, if_pos hnone]
      exact cleanUp_obeys true ⟨rfl, rfl⟩
    · simp only [Wire.after, if_neg hfd]
      have hopened : Opened fd.1 res [] ⟨some res, some fd.1, [], false, []⟩ :=
        ⟨⟨rfl, rfl⟩, rfl, rfl, fun _ ho => absurd ho List.not_mem_nil⟩
      refine (exchange_obeys hopened).bind fun failed w' hholds => cleanUp_obeys failed ⟨hholds.addresses, ?_⟩
      have hge := fd.2
      rw [if_pos (show fd.1 ≥ 0 by omega)]
      exact hholds.socket

end Parts

/-! ### Whole runs -/

/-- A call into the stack, with its answer. -/
abbrev Call : Type := Σ op : NetOp, op.Ans

/-- The call the event makes, if it makes one.  A `k_sleep` is none: nothing of it reaches the wire. -/
def callMade (s : RequestRuns) : RequestEvent → Option Call
  | .thread _ answers =>
    match s.left with
    | some (.call (.net op) _) =>
      if sleepTime (.net op) = none ∧ s.sleeps = false then some ⟨op, answers op⟩ else none
    | _ => none
  | _ => none

def stepWire (hostname : List UInt8) (w : Wire) (call : Call) : Wire := w.after hostname call.1 call.2

/-- The other side after a run. -/
def wire (cfg : HttpsConfig) (hostname : List UInt8) (es : List RequestEvent) : Wire :=
  run (stepWire hostname) Wire.idle (seen (stepRequests cfg hostname) callMade RequestRuns.boot es)

/-- What is left of a request keeps to the protocol, and outside a request the wire is idle. -/
def OnWire (hostname : List UInt8) (s : RequestRuns) (w : Wire) : Prop :=
  match s.left with
  | none => w = Wire.idle
  | some p => p.Obeys (wireProtocol hostname) (fun _ w' => w' = Wire.idle) w

section Runs

variable {cfg : HttpsConfig} {hostname : List UInt8} {s : RequestRuns} {w : Wire}

theorem onWire_left {s' : RequestRuns} (h : OnWire hostname s w) (hleft : s'.left = s.left) :
    OnWire hostname s' w := by
  rw [OnWire, hleft]
  exact h

theorem onWire_goesOn {p : RequestProg Unit}
    (h : p.Obeys (wireProtocol hostname) (fun _ w' => w' = Wire.idle) w) :
    OnWire hostname (s.goesOn cfg p) w := by
  cases p with
  | ret u => exact h
  | call op next => exact h

theorem inBounds_of_allowed {op : NetOp} (h : w.Allowed hostname op) : op.InBounds hostname := by
  cases op with
  | send fd off len =>
    obtain ⟨-, -, hlen⟩ := h
    show off + len ≤ (sendBuf hostname).length
    rw [sendBuf, List.length_append]
    omega
  | recv fd off len => exact h.2.2
  | _ => trivial

/-- A call that is answered at once, or sleeps on. -/
theorem callStep_awake {op : RequestOp} (hop : sleepTime op = none) (answers : Answers)
    (next : op.Ans → RequestProg Unit) :
    s.callStep cfg hostname answers op next
      = if s.sleeps then s else answered cfg hostname s answers op next := by
  simp only [RequestRuns.callStep, hop, answered]

/-- One answered call into the stack. -/
theorem onWire_answered {op : NetOp} {next : op.Ans → RequestProg Unit} (answers : Answers)
    (h : (Prog.call (S := requestSig) (.net op) next).Obeys (wireProtocol hostname) (fun _ w' => w' = Wire.idle) w) :
    OnWire hostname (answered cfg hostname s answers (.net op) next) (w.after hostname op (answers op)) := by
  obtain ⟨hallowed, hnext⟩ := h
  have hstep : (anyStack hostname).step (.net op) answers s.world
      = (some (answers op), { s.world with
          recvBuf := s.world.recvBufAfter hostname op (answers op) (inBounds_of_allowed hallowed)
          ledger := s.world.ledger.record op (answers op) }) :=
    dif_pos (inBounds_of_allowed hallowed)
  rw [answered, hstep]
  exact onWire_goesOn (hnext (answers op))

/-- One step within a request. -/
theorem onWire_call {op : RequestOp} {next : op.Ans → RequestProg Unit} (i : HttpsInput) (answers : Answers)
    (hleft : s.left = some (.call op next)) (h : OnWire hostname s w) :
    OnWire hostname (s.callStep cfg hostname answers op next)
      (match callMade s (.thread i answers) with
        | some call => stepWire hostname w call
        | none => w) := by
  have hobeys := h
  rw [OnWire, hleft] at hobeys
  cases op with
  | loc op =>
    have hmade : callMade s (.thread i answers) = none := by simp only [callMade, hleft]
    rw [hmade, callStep_awake rfl]
    split
    · exact h
    · rw [answered]
      generalize (anyStack hostname).step (.loc op) answers s.world = r
      obtain ⟨x | x, w'⟩ := r
      · exact onWire_left h rfl
      · exact onWire_goesOn (hobeys.2 x)
  | net op =>
    cases hop : sleepTime (.net op) with
    | none =>
      rw [callStep_awake hop]
      by_cases hsleeps : s.sleeps = true
      · have hmade : callMade s (.thread i answers) = none := by simp [callMade, hleft, hsleeps]
        rw [hmade, if_pos hsleeps]
        exact h
      · have hmade : callMade s (.thread i answers) = some ⟨op, answers op⟩ := by
          simp [callMade, hleft, hop, hsleeps]
        rw [hmade, if_neg hsleeps]
        exact onWire_answered answers hobeys
    | some ms =>
      have hmade : callMade s (.thread i answers) = none := by simp [callMade, hleft, hop]
      rw [hmade]
      rcases callStep_eq cfg hostname s answers (.net op) next with
        ⟨-, wake, hbegins⟩ | ⟨-, hsleeps⟩ | ⟨-, hanswered⟩
      · rw [hbegins]
        exact onWire_left h rfl
      · rw [hsleeps]
        exact h
      · rw [hanswered]
        cases op with
        | kSleep ms => exact onWire_answered answers hobeys
        | _ => cases hop

theorem onWire_thread (i : HttpsInput) (answers : Answers) (h : OnWire hostname s w) :
    OnWire hostname (s.threadStep cfg hostname i answers)
      (match callMade s (.thread i answers) with
        | some call => stepWire hostname w call
        | none => w) := by
  rw [RequestRuns.threadStep]
  split
  · rename_i hleft
    have hidle : w = Wire.idle := by
      rw [OnWire, hleft] at h
      exact h
    have hmade : callMade s (.thread i answers) = none := by simp only [callMade, hleft]
    rw [hmade]
    split
    · rw [hidle]
      exact sendHttpRequest_obeys hostname
    · exact onWire_left h rfl
  · rename_i u hleft
    have hmade : callMade s (.thread i answers) = none := by simp only [callMade, hleft]
    rw [hmade]
    rw [OnWire, hleft] at h
    exact h
  · rename_i op next hleft
    exact onWire_call i answers hleft h

theorem onWire_step (cfg : HttpsConfig) (hostname : List UInt8) (s : RequestRuns) (e : RequestEvent) (w : Wire)
    (h : OnWire hostname s w) :
    OnWire hostname (stepRequests cfg hostname s e)
      (match callMade s e with
        | some call => stepWire hostname w call
        | none => w) := by
  cases e with
  | thread i answers => exact onWire_thread i answers h
  | _ => exact onWire_left h rfl

theorem wire_simulates (cfg : HttpsConfig) (hostname : List UInt8) :
    Simulates (stepRequests cfg hostname) (stepWire hostname) callMade (OnWire hostname) := by
  constructor
  · intro s w e call h hmade
    have hstep := onWire_step cfg hostname s e w h
    rw [hmade] at hstep
    exact hstep
  · intro s w e h hmade
    have hstep := onWire_step cfg hostname s e w h
    rw [hmade] at hstep
    exact hstep

theorem allowed_of_callMade {e : RequestEvent} {call : Call} (h : OnWire hostname s w)
    (hmade : callMade s e = some call) : w.Allowed hostname call.1 := by
  unfold callMade at hmade
  split at hmade
  · split at hmade
    · rename_i op next hleft
      split at hmade
      · cases hmade
        rw [OnWire, hleft] at h
        exact h.1
      · cases hmade
    · cases hmade
  · cases hmade

end Runs

/-- **The client keeps to the protocol.**  In every run, whatever the stack answers and whatever comes between
two calls, every call is allowed in the state the calls before it have led to; and between two requests the
wire is idle. -/
theorem calls_keep_protocol (cfg : HttpsConfig) (hostname : List UInt8) (es : List RequestEvent) :
    let s := run (stepRequests cfg hostname) RequestRuns.boot es
    let w := wire cfg hostname es
    (∀ e call, callMade s e = some call → w.Allowed hostname call.1) ∧ (s.left.isNone = true → w = Wire.idle) := by
  intro s w
  have h : OnWire hostname s w := (wire_simulates cfg hostname).run es RequestRuns.boot Wire.idle rfl
  refine ⟨fun e call hmade => allowed_of_callMade h hmade, fun hnone => ?_⟩
  rw [OnWire, Option.isNone_iff_eq_none.mp hnone] at h
  exact h

end WifiMemfault.HttpsWire
