import WifiMemfault.HttpsPace
import WifiMemfault.Lib.EffectProgram

/-!
# The certificate of the HTTPS client

`cert_provision` of `app_https_client.c`, which is built either for the key storage of the modem or for the
TLS credentials of Zephyr, and the thread that calls it until it has succeeded.  The store holds at most one
CA certificate under the security tag of the client; what a call to it does is the environment's, within the
documentation of the two interfaces.

With the modem the certificate of the client is compared and written, so every request uses it, whatever the
modem held before.  `tls_credential_add` does not compare: a certificate that is there already is kept.
-/

namespace WifiMemfault.CertProvision

open EffectProgram HttpsClient
open HttpsPace (startsRequest)

/-- `EEXIST`, negated. -/
def eexist : ℤ := -17

/-- `CONFIG_MODEM_KEY_MGMT` or not. -/
inductive CertApi where
  | modemKeyMgmt | tlsCredentials
  deriving DecidableEq, Repr

/-- The calls, under `TLS_SEC_TAG`. -/
inductive CertOp where
  | modemKeyMgmtExists
  | modemKeyMgmtCmp (cert : List UInt8)
  | modemKeyMgmtDelete
  | modemKeyMgmtWrite (cert : List UInt8)
  | tlsCredentialAdd (cert : List UInt8)

@[reducible] def CertOp.Ans : CertOp → Type
  | .modemKeyMgmtExists => ℤ × Bool
  | .modemKeyMgmtCmp _ | .modemKeyMgmtDelete | .modemKeyMgmtWrite _ | .tlsCredentialAdd _ => ℤ

@[reducible] def certSig : Signature := ⟨CertOp, CertOp.Ans⟩

abbrev CertProg (α : Type) := Prog certSig α

def call (op : CertOp) : CertProg op.Ans := @Prog.perform certSig op

/-- The write to the modem, and its error. -/
def writeCert (cert : List UInt8) : CertProg ℤ := do
  let err ← call (.modemKeyMgmtWrite cert)
  if err ≠ 0 then pure err else pure 0

def certProvision (api : CertApi) (cert : List UInt8) : CertProg ℤ :=
  match api with
  | .modemKeyMgmt => do
    let r ← call .modemKeyMgmtExists
    if r.1 ≠ 0 then pure r.1
    else if r.2 then do
      let mismatch ← call (.modemKeyMgmtCmp cert)
      if mismatch = 0 then pure 0
      else do
        -- an error is only logged
        let _ ← call .modemKeyMgmtDelete
        writeCert cert
    else writeCert cert
  | .tlsCredentials => do
    let err ← call (.tlsCredentialAdd cert)
    if err = eexist then pure 0 else if err < 0 then pure err else pure 0

/-! ### The store -/

/-- The CA certificate under the tag. -/
abbrev Store := Option (List UInt8)

/-- How a call goes: its error, and what a write that fails leaves. -/
structure CertOutcome where
  err : ℤ
  err_nonpos : err ≤ 0
  /-- Only an add that finds a certificate says so. -/
  err_ne : err ≠ eexist
  remains : Store

/-- A call to the store. -/
def runOp : (op : CertOp) → CertOutcome → Store → op.Ans × Store
  | .modemKeyMgmtExists, o, st => ((o.err, st.isSome), st)
  | .modemKeyMgmtCmp cert, o, st => (if o.err ≠ 0 then o.err else if st = some cert then 0 else 1, st)
  | .modemKeyMgmtDelete, o, st => (o.err, if o.err = 0 then none else st)
  | .modemKeyMgmtWrite cert, o, _ => (o.err, if o.err = 0 then some cert else o.remains)
  | .tlsCredentialAdd cert, o, st =>
    if st.isSome then (eexist, st) else (o.err, if o.err = 0 then some cert else st)

def certDevice : Device certSig CertOutcome Store where
  step op o st := (some (runOp op o st).1, (runOp op o st).2)

/-- The certificate that requests use, if the store holds `st` at boot. -/
def certUsed (api : CertApi) (cert : List UInt8) (st : Store) : List UInt8 :=
  match api with
  | .modemKeyMgmt => cert
  | .tlsCredentials => st.getD cert

/-- What `cert_provision` leaves in the store. -/
def Provisions (api : CertApi) (cert : List UInt8) (st : Store) (err : ℤ) (st' : Store) : Prop :=
  certUsed api cert st' = certUsed api cert st ∧ (err = 0 → st' = some (certUsed api cert st))

section Always

variable {α : Type} {Q : α → Store → Prop} {st : Store}

theorem always_call {op : CertOp} {f : op.Ans → CertProg α}
    (h : ∀ o, Always certDevice Q (fun _ => False) (f (runOp op o st).1) (runOp op o st).2) :
    Always certDevice Q (fun _ => False) (call op >>= f) st := h

theorem always_ite {p : Prop} [Decidable p] {a b : CertProg α}
    (ha : p → Always certDevice Q (fun _ => False) a st)
    (hb : ¬ p → Always certDevice Q (fun _ => False) b st) :
    Always certDevice Q (fun _ => False) (if p then a else b) st := by
  split
  · rename_i h
    exact ha h
  · rename_i h
    exact hb h

end Always

theorem writeCert_always (cert : List UInt8) (st st' : Store) :
    Always certDevice (Provisions .modemKeyMgmt cert st) (fun _ => False) (writeCert cert) st' := by
  refine always_call fun o => always_ite (fun herr => ?_) fun hok => ?_
  · exact ⟨rfl, fun hzero => absurd hzero herr⟩
  · refine ⟨rfl, fun _ => ?_⟩
    exact if_pos (not_not.mp hok)

/-- A comparison that fails is a mismatch. -/
theorem cmp_match {cert : List UInt8} {o : CertOutcome} {st : Store}
    (h : (runOp (.modemKeyMgmtCmp cert) o st).1 = 0) : st = some cert := by
  by_contra hdiffers
  by_cases herr : o.err = 0
  · simp [runOp, herr, hdiffers] at h
  · simp [runOp, herr] at h

/-- With the modem: a certificate that differs is replaced, even if it cannot be deleted first. -/
theorem modemProvision_always (cert : List UInt8) (st : Store) :
    Always certDevice (Provisions .modemKeyMgmt cert st) (fun _ => False)
      (certProvision .modemKeyMgmt cert) st := by
  refine always_call fun o => always_ite (fun herr => ?_) fun _ => always_ite (fun _ => ?_) fun _ => ?_
  · exact ⟨rfl, fun hzero => absurd hzero herr⟩
  · refine always_call fun o => always_ite (fun hmatch => ?_) fun _ => ?_
    · exact ⟨rfl, fun _ => cmp_match hmatch⟩
    · exact always_call fun o => writeCert_always cert st _
  · exact writeCert_always cert st _

/-- With the TLS credentials: the first certificate stays. -/
theorem tlsProvision_always (cert : List UInt8) (st : Store) :
    Always certDevice (Provisions .tlsCredentials cert st) (fun _ => False)
      (certProvision .tlsCredentials cert) st := by
  refine always_call fun o => ?_
  cases st with
  | some kept =>
    refine always_ite (fun _ => ?_) fun hnew => absurd rfl hnew
    exact ⟨rfl, fun _ => rfl⟩
  | none =>
    -- an add that fails has an error below zero
    have hnonpos := o.err_nonpos
    refine always_ite (fun hexists => absurd hexists o.err_ne) fun _ => always_ite (fun hneg => ?_) fun hpos => ?_
    · have herr : o.err ≠ 0 := by
        change o.err < 0 at hneg
        omega
      simp [Provisions, certUsed, runOp, herr]
    · have herr : o.err = 0 := by
        change ¬ o.err < 0 at hpos
        omega
      simp [Provisions, certUsed, runOp, herr]

theorem certProvision_always (api : CertApi) (cert : List UInt8) (st : Store) :
    Always certDevice (Provisions api cert st) (fun _ => False) (certProvision api cert) st := by
  cases api with
  | modemKeyMgmt => exact modemProvision_always cert st
  | tlsCredentials => exact tlsProvision_always cert st

/-! ### The client with its store -/

structure ProvisionedHttps where
  sys : HttpsSystem
  store : Store

/-- An event of the client, and how the calls of `cert_provision` go if it is one. -/
abbrev ProvisionEvent := HttpsEvent × (ℕ → CertOutcome)

variable (cfg : HttpsConfig) (api : CertApi) (cert : List UInt8)

/-- The thread runs `cert_provision` itself. -/
def stepProvisioned (s : ProvisionedHttps) : ProvisionEvent → ProvisionedHttps
  | (.thread i, os) =>
    if s.sys.pc = .certProvision then
      match certDevice.exec (certProvision api cert) os s.store with
      | (some err, st) => ⟨s.sys.threadStep cfg { i with certErr := err }, st⟩
      | (none, st) => ⟨s.sys, st⟩
    else ⟨s.sys.threadStep cfg i, s.store⟩
  | (e, _) => ⟨stepHttps cfg s.sys e, s.store⟩

/-- What the program point says about `cert_provisioned`. -/
def certified : HttpsPc → Option Bool
  | .start => none
  | .semTake _ => none
  | .networkTest => none
  | .certProvision => some false
  | .exited => none
  | _ => some true

variable {cfg api cert} {s : HttpsSystem}

/-- The thread calls `cert_provision` until it has succeeded, and gets past it only then. -/
def CertInv (s : HttpsSystem) : Prop := ∀ b, certified s.pc = some b → s.certProvisioned = b

theorem certInv_of_some {b : Bool} (hpc : certified s.pc = some b) (h : s.certProvisioned = b) : CertInv s := by
  intro b' hb'
  rw [hpc] at hb'
  rw [h]
  exact Option.some.inj hb'

theorem certInv_of_none (hpc : certified s.pc = none) : CertInv s := by
  intro b hb
  rw [hpc] at hb
  cases hb

theorem certInv_loopHead (v : HttpsVars) : CertInv (s.loopHead cfg v) := by
  refine certInv_of_none ?_
  rw [HttpsSystem.loopHead]
  cases v.httpsClientRunning with
  | true => rfl
  | false => rfl

theorem certInv_ite {p : Prop} [Decidable p] {a b : HttpsSystem} (ha : CertInv a) (hb : CertInv b) :
    CertInv (if p then a else b) := by
  split
  · exact ha
  · exact hb

theorem certified_ite {p : Prop} [Decidable p] {a b : HttpsPc} {x : Option Bool} (ha : certified a = x)
    (hb : certified b = x) : certified (if p then a else b) = x := by
  split
  · exact ha
  · exact hb

theorem certInv_thread (cfg : HttpsConfig) (i : HttpsInput) (h : CertInv s) : CertInv (s.threadStep cfg i) := by
  obtain ⟨now, v, provisioned, pc, listener⟩ := s
  cases pc with
  | start => exact certInv_loopHead v
  | semTake timeout => exact certInv_ite h (certInv_of_none (certified_ite rfl rfl))
  | networkTest =>
    refine certInv_ite (certInv_loopHead _) ?_
    cases provisioned with
    | true => exact certInv_of_some rfl rfl
    | false => exact certInv_of_some rfl rfl
  | certProvision => exact certInv_ite (certInv_loopHead _) (certInv_of_some rfl rfl)
  | dnsTest dnsWaitTime => exact certInv_of_some (certified_ite rfl rfl) (h true rfl)
  | dnsCheck dnsWaitTime => exact certInv_ite (certInv_of_some rfl (h true rfl)) (certInv_of_some rfl (h true rfl))
  | dnsSleep dnsWaitTime wake => exact certInv_ite h (certInv_of_some rfl (h true rfl))
  | dnsDone => exact certInv_ite (certInv_loopHead v) (certInv_of_some (certified_ite rfl rfl) (h true rfl))
  | initialSleep wake => exact certInv_ite h (certInv_of_some rfl (h true rfl))
  | initialDone => exact certInv_ite (certInv_loopHead v) (certInv_of_some rfl (h true rfl))
  | requestTest => exact certInv_of_some (certified_ite rfl rfl) (h true rfl)
  | sendRequest => exact certInv_ite (certInv_of_some rfl (h true rfl)) (certInv_of_some rfl (h true rfl))
  | requestRuns => exact certInv_of_some rfl (h true rfl)
  | requestSleep wake => exact certInv_ite h (certInv_of_some rfl (h true rfl))
  | mainExit => exact certInv_loopHead _
  | exited => exact h

theorem certProvisioned_ite {p : Prop} [Decidable p] {a b : HttpsSystem} {x : Bool} (ha : a.certProvisioned = x)
    (hb : b.certProvisioned = x) : (if p then a else b).certProvisioned = x := by
  split
  · exact ha
  · exact hb

/-- Only `cert_provision` sets `cert_provisioned`. -/
theorem certProvisioned_thread (cfg : HttpsConfig) (i : HttpsInput) (hpc : s.pc ≠ .certProvision) :
    (s.threadStep cfg i).certProvisioned = s.certProvisioned := by
  obtain ⟨now, v, provisioned, pc, listener⟩ := s
  cases pc with
  | certProvision => exact absurd rfl hpc
  | semTake timeout => exact certProvisioned_ite rfl rfl
  | networkTest => exact certProvisioned_ite rfl rfl
  | dnsCheck dnsWaitTime => exact certProvisioned_ite rfl rfl
  | dnsSleep dnsWaitTime wake => exact certProvisioned_ite rfl rfl
  | dnsDone => exact certProvisioned_ite rfl rfl
  | initialSleep wake => exact certProvisioned_ite rfl rfl
  | initialDone => exact certProvisioned_ite rfl rfl
  | sendRequest => exact certProvisioned_ite rfl rfl
  | requestSleep wake => exact certProvisioned_ite rfl rfl
  | _ => rfl

/-- What is not a step of the thread leaves both alone. -/
theorem stepHttps_certified (cfg : HttpsConfig) (s : HttpsSystem) (e : HttpsEvent) (he : ∀ i, e ≠ .thread i) :
    (stepHttps cfg s e).pc = s.pc ∧ (stepHttps cfg s e).certProvisioned = s.certProvisioned := by
  cases e with
  | thread i => exact absurd rfl (he i)
  | elapse ms => exact ⟨rfl, rfl⟩
  | wifiMsg type =>
    refine ⟨?_, ?_⟩
    · simp only [stepHttps]
      split
      · exact (HttpsPace.wifiListener_place s type).1
      · rfl
    · refine certProvisioned_ite ?_ rfl
      cases type with
      | wifiStaConnected => exact certProvisioned_ite rfl rfl
      | wifiStaDisconnected => rfl
      | other => rfl
  | listener =>
    refine ⟨(HttpsPace.listenerStep_place s).1, ?_⟩
    simp only [stepHttps, HttpsSystem.listenerStep]
    cases s.listener with
    | _ => rfl

/-- The client and its store, with `st` in it at boot. -/
structure ProvisionInv (api : CertApi) (cert : List UInt8) (st : Store) (s : ProvisionedHttps) : Prop where
  certified : CertInv s.sys
  used : certUsed api cert s.store = certUsed api cert st
  stored : s.sys.certProvisioned = true → s.store = some (certUsed api cert st)

theorem provisionInv_step (cfg : HttpsConfig) (api : CertApi) (cert : List UInt8) (st : Store)
    (s : ProvisionedHttps) (e : ProvisionEvent) (h : ProvisionInv api cert st s) :
    ProvisionInv api cert st (stepProvisioned cfg api cert s e) := by
  obtain ⟨e, os⟩ := e
  have houter : (∀ i, e ≠ .thread i) → ProvisionInv api cert st ⟨stepHttps cfg s.sys e, s.store⟩ := by
    intro he
    obtain ⟨hpc, hprovisioned⟩ := stepHttps_certified cfg s.sys e he
    refine ⟨?_, h.used, ?_⟩
    · intro b hb
      rw [hpc] at hb
      exact hprovisioned.trans (h.certified b hb)
    · rw [hprovisioned]
      exact h.stored
  cases e with
  | thread i =>
    simp only [stepProvisioned]
    split
    · rename_i hpc
      obtain ⟨err, store, hexec, hused, hstored⟩ :=
        always_returns (certProvision_always api cert s.store) os
      rw [hexec]
      refine ⟨certInv_thread cfg _ h.certified, hused.trans h.used, fun hprovisioned => ?_⟩
      by_cases herr : err = 0
      · rw [hstored herr, h.used]
      · -- a failed call leaves `cert_provisioned` as it was
        have hkept : (s.sys.threadStep cfg { i with certErr := err }).certProvisioned
            = s.sys.certProvisioned := by
          simp [HttpsSystem.threadStep, hpc, herr, HttpsSystem.loopHead]
        have hbefore : s.sys.certProvisioned = false := h.certified false (by rw [hpc]; rfl)
        rw [hkept, hbefore] at hprovisioned
        cases hprovisioned
    · rename_i hpc
      refine ⟨certInv_thread cfg i h.certified, h.used, ?_⟩
      rw [certProvisioned_thread cfg i hpc]
      exact h.stored
  | _ => exact houter (by simp)

/-- **Every request finds its certificate.**  In every run from boot, whatever the calls of `cert_provision`
answer, the store holds a certificate whenever a request starts: with the modem that of the client, and with
the TLS credentials the one that was there at boot, or that of the client if there was none. -/
theorem requests_find_certificate (cfg : HttpsConfig) (api : CertApi) (cert : List UInt8) (st : Store)
    (es : List ProvisionEvent) :
    Runs.EachStep (stepProvisioned cfg api cert)
      (fun s e => startsRequest s.sys e.1 = true → s.store = some (certUsed api cert st))
      ⟨HttpsSystem.boot, st⟩ es := by
  have hboot : ProvisionInv api cert st ⟨HttpsSystem.boot, st⟩ :=
    ⟨certInv_of_none rfl, rfl, fun hprovisioned => by cases hprovisioned⟩
  refine Runs.eachStep_of_invariant (fun s e h _ => provisionInv_step cfg api cert st s e h) ?_ es _ hboot
    (Runs.eachStep_of_forall (R := fun _ _ => True) (fun _ _ => trivial) es _)
  rintro s ⟨e, os⟩ h - hstarts
  cases e with
  | thread i =>
    obtain ⟨hpc, -⟩ := of_decide_eq_true hstarts
    exact h.stored (h.certified true (by rw [hpc]; rfl))
  | _ => cases hstarts

end WifiMemfault.CertProvision
