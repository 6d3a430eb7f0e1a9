import WifiMemfault.Lib.Runs

/-!
# A worker that waits for a token with a deadline

The worker waits on a binary semaphore, for at most `interval`; between two waits it may make a charge.
`Ledger` is what an observer of a run remembers since the last charge: whether the semaphore was given,
how many waits have ended, and whether one of them ended without a token after the whole interval.

Without a give in between, the waits after a charge all run out, unless the semaphore still held a token
when the charge was made: then the first of them ends at once.  `separated_iff_drained` says so for every
run.
-/

/-- What the worker is at. -/
inductive WaitPhase where
  | waiting (deadline : ℕ)
  | working
  | stopped
  deriving DecidableEq, Repr

def WaitPhase.isWaiting : WaitPhase → Bool
  | .waiting _ => true
  | _ => false

structure TimedWait (σ ε : Type*) where
  step : σ → ε → σ
  now : σ → ℕ
  token : σ → Bool
  phase : σ → WaitPhase
  interval : ℕ
  /-- The event is part of a give. -/
  gives : σ → ε → Bool
  charges : σ → ε → Bool

namespace TimedWait

variable {σ ε : Type*} (w : TimedWait σ ε)

/-- What a step from `s` to `s'` may do. -/
inductive Moves (s : σ) (e : ε) (s' : σ) : Prop where
  | stays (hphase : w.phase s' = w.phase s) (hcharge : w.charges s e = false)
      (htoken : w.token s' = w.token s ∨ (w.gives s e = true ∧ w.token s' = true))
  | begins (hbefore : (w.phase s).isWaiting = false)
      (hafter : w.phase s' = .waiting (w.now s + w.interval))
      (hcharge : w.charges s e = true → w.phase s = .working)
      (htoken : w.token s' = w.token s) (hgives : w.gives s e = false)
  | ends (deadline : ℕ) (hbefore : w.phase s = .waiting deadline)
      (hafter : (w.phase s').isWaiting = false) (hdue : w.token s = true ∨ deadline ≤ w.now s)
      (htoken : w.token s' = false) (hcharge : w.charges s e = false)
  | stops (hbefore : w.phase s = .working) (hafter : w.phase s' = .stopped)
      (htoken : w.token s' = w.token s) (hgives : w.gives s e = false)

def Lawful : Prop := ∀ s e, w.Moves s e (w.step s e)

/-- The event ends a wait. -/
def waitEnds (s : σ) (e : ε) : Bool :=
  (w.phase s).isWaiting && !(w.phase (w.step s e)).isWaiting

/-! ### The ledger -/

/-- What has happened since the last charge. -/
structure Ledger where
  charged : Bool
  given : Bool
  /-- A wait ended without a token, after the whole interval. -/
  waitedOut : Bool
  /-- The semaphore held a token at the charge. -/
  pending : Bool
  waits : ℕ
  /-- When the wait the worker is in began. -/
  waitingSince : ℕ
  deriving DecidableEq, Repr

def Ledger.empty : Ledger := ⟨false, false, false, false, 0, 0⟩

/-- The event ends a wait for which no token came during the whole interval. -/
def waitsOut (p : σ × Ledger) (e : ε) : Bool :=
  w.waitEnds p.1 e = true ∧ w.token p.1 = false ∧ p.2.waitingSince + w.interval ≤ w.now p.1

def since (p : σ × Ledger) : ℕ := if (w.phase p.1).isWaiting then p.2.waitingSince else w.now p.1

def ledgerAfter (p : σ × Ledger) (e : ε) : Ledger :=
  if w.charges p.1 e then ⟨true, false, false, w.token p.1, 0, w.since p⟩
  else
    { charged := p.2.charged
      given := p.2.given || w.gives p.1 e
      waitedOut := p.2.waitedOut || w.waitsOut p e
      pending := p.2.pending
      waits := if w.waitEnds p.1 e then p.2.waits + 1 else p.2.waits
      waitingSince := w.since p }

/-- A step of the worker, with the ledger kept. -/
def stepLedger (p : σ × Ledger) (e : ε) : σ × Ledger := (w.step p.1 e, w.ledgerAfter p e)

/-- A second charge comes after a give, or after a wait that ran out. -/
def Separated (p : σ × Ledger) (e : ε) : Prop :=
  w.charges p.1 e = true → p.2.charged = true → p.2.given = false → p.2.waitedOut = true

/-- After a charge that left a token behind, a second charge comes after a give, or after a second wait. -/
def Drained (p : σ × Ledger) (e : ε) : Prop :=
  w.charges p.1 e = true → p.2.charged = true → p.2.given = false → p.2.pending = true →
    2 ≤ p.2.waits

/-- No charge leaves a token behind. -/
def TokenFree (p : σ × Ledger) (e : ε) : Prop := w.charges p.1 e = true → w.token p.1 = false

instance (p : σ × Ledger) (e : ε) : Decidable (w.Separated p e) := inferInstanceAs (Decidable (_ → _))

instance (p : σ × Ledger) (e : ε) : Decidable (w.Drained p e) := inferInstanceAs (Decidable (_ → _))

instance (p : σ × Ledger) (e : ε) : Decidable (w.TokenFree p e) := inferInstanceAs (Decidable (_ → _))

/-! ### The invariant -/

/-- The first wait after a charge takes the token the charge left behind, each later one runs out. -/
structure Open (p : σ × Ledger) : Prop where
  waited : w.phase p.1 = .working → 1 ≤ p.2.waits
  token : w.token p.1 = true ↔ p.2.pending = true ∧ p.2.waits = 0
  ran_out : p.2.waitedOut = true ↔ p.2.pending.toNat < p.2.waits

structure LedgerInv (p : σ × Ledger) : Prop where
  waiting : ∀ d, w.phase p.1 = .waiting d → d = p.2.waitingSince + w.interval
  /-- As long as the semaphore has not been given since the last charge. -/
  account : p.2.charged = true → p.2.given = false → w.Open p

variable {w}

theorem waitEnds_of_awake {s : σ} {e : ε} (h : (w.phase s).isWaiting = false) :
    w.waitEnds s e = false := by
  rw [waitEnds, h, Bool.false_and]

theorem waitEnds_of_stays {s : σ} {e : ε} (h : w.phase (w.step s e) = w.phase s) :
    w.waitEnds s e = false := by
  rw [waitEnds, h, Bool.and_not_self]

theorem waitEnds_of_ends {s : σ} {e : ε} {d : ℕ} (hbefore : w.phase s = .waiting d)
    (hafter : (w.phase (w.step s e)).isWaiting = false) : w.waitEnds s e = true := by
  rw [waitEnds, hbefore, hafter]
  rfl

theorem since_of_awake {p : σ × Ledger} (h : (w.phase p.1).isWaiting = false) :
    w.since p = w.now p.1 := by
  rw [since, h, if_neg Bool.false_ne_true]

theorem waiting_step {p : σ × Ledger} {e : ε} (hmoves : w.Moves p.1 e (w.step p.1 e))
    (h : w.LedgerInv p) (d : ℕ) (hd : w.phase (w.step p.1 e) = .waiting d) :
    d = w.since p + w.interval := by
  cases hmoves with
  | stays hphase hcharge htoken =>
    rw [hphase] at hd
    rw [since, hd]
    exact h.waiting d hd
  | begins hbefore hafter hcharge htoken hgives =>
    rw [hafter] at hd
    rw [since_of_awake hbefore]
    exact (WaitPhase.waiting.inj hd).symm
  | ends deadline hbefore hafter hdue htoken hcharge =>
    rw [hd] at hafter
    cases hafter
  | stops hbefore hafter htoken hgives =>
    rw [hafter] at hd
    cases hd

/-- A charge opens a new account. -/
theorem open_charge {p : σ × Ledger} {e : ε} (hmoves : w.Moves p.1 e (w.step p.1 e))
    (hcharge : w.charges p.1 e = true) (l : Ledger) (hpending : l.pending = w.token p.1)
    (hwaits : l.waits = 0) (hout : l.waitedOut = false) : w.Open (w.step p.1 e, l) := by
  have hopen : w.phase (w.step p.1 e) ≠ .working → w.token (w.step p.1 e) = w.token p.1 →
      w.Open (w.step p.1 e, l) := by
    intro hphase htoken
    refine ⟨fun hworking => absurd hworking hphase, ?_, ?_⟩
    · rw [htoken, hpending, hwaits]
      exact (and_iff_left rfl).symm
    · rw [hout, hwaits]
      exact iff_of_false Bool.false_ne_true (Nat.not_lt_zero _)
  cases hmoves with
  | stays hphase hno htoken =>
    rw [hno] at hcharge
    cases hcharge
  | begins hbefore hafter hworking htoken hgives => exact hopen (by rw [hafter]; exact nofun) htoken
  | ends deadline hbefore hafter hdue htoken hno =>
    rw [hno] at hcharge
    cases hcharge
  | stops hbefore hafter htoken hgives => exact hopen (by rw [hafter]; exact nofun) htoken

/-- The account goes on as it is over a step that ends no wait. -/
theorem open_of_same {p : σ × Ledger} {s : σ} {l : Ledger} (hopen : w.Open p)
    (hphase : w.phase s = .working → w.phase p.1 = .working) (htoken : w.token s = w.token p.1)
    (hpending : l.pending = p.2.pending) (hwaits : l.waits = p.2.waits)
    (hout : l.waitedOut = p.2.waitedOut) : w.Open (s, l) := by
  refine ⟨?_, ?_, ?_⟩
  · intro hworking
    rw [hwaits]
    exact hopen.waited (hphase hworking)
  · rw [htoken, hpending, hwaits]
    exact hopen.token
  · rw [hout, hpending, hwaits]
    exact hopen.ran_out

/-- A wait that ends without a token has run out. -/
theorem waitsOut_eq {p : σ × Ledger} {e : ε} {d : ℕ} (h : w.LedgerInv p)
    (hbefore : w.phase p.1 = .waiting d) (hends : w.waitEnds p.1 e = true)
    (hdue : w.token p.1 = true ∨ d ≤ w.now p.1) : w.waitsOut p e = !w.token p.1 := by
  rw [h.waiting d hbefore] at hdue
  rw [waitsOut]
  cases htoken : w.token p.1 with
  | true => simp
  | false =>
    rw [htoken] at hdue
    simpa [hends] using hdue

/-- The end of a wait is entered in the account. -/
theorem open_ends {p : σ × Ledger} {s : σ} {l : Ledger} (hopen : w.Open p) (htoken : w.token s = false)
    (hpending : l.pending = p.2.pending) (hwaits : l.waits = p.2.waits + 1)
    (hout : l.waitedOut = (p.2.waitedOut || !w.token p.1)) : w.Open (s, l) := by
  refine ⟨?_, ?_, ?_⟩
  · intro _
    rw [hwaits]
    exact Nat.le_add_left 1 p.2.waits
  · simp [htoken, hwaits]
  · rw [hout, Bool.or_eq_true, hopen.ran_out, hpending, hwaits]
    by_cases hgiven : w.token p.1 = true
    · obtain ⟨hleft, hfirst⟩ := hopen.token.mp hgiven
      simp [hgiven, hleft, hfirst]
    · refine iff_of_true (Or.inr (by simpa using hgiven)) (Nat.lt_succ_of_le ?_)
      -- without a token either none was left behind or an earlier wait took it
      cases hleft : p.2.pending with
      | false => exact Nat.zero_le _
      | true => exact Nat.pos_of_ne_zero fun hfirst => hgiven (hopen.token.mpr ⟨hleft, hfirst⟩)

/-- A step without a charge and without a give carries the account on. -/
theorem open_step {p : σ × Ledger} {e : ε} (hmoves : w.Moves p.1 e (w.step p.1 e)) (h : w.LedgerInv p)
    (hopen : w.Open p) (hgives : w.gives p.1 e = false) (l : Ledger)
    (hpending : l.pending = p.2.pending)
    (hwaits : l.waits = if w.waitEnds p.1 e then p.2.waits + 1 else p.2.waits)
    (hout : l.waitedOut = (p.2.waitedOut || w.waitsOut p e)) : w.Open (w.step p.1 e, l) := by
  -- unless the step ends a wait
  have hsame : w.waitEnds p.1 e = false →
      (w.phase (w.step p.1 e) = .working → w.phase p.1 = .working) →
      w.token (w.step p.1 e) = w.token p.1 → w.Open (w.step p.1 e, l) := by
    intro hends hphase htoken
    have hnot : w.waitsOut p e = false := by
      simp [waitsOut, hends]
    rw [hends, if_neg Bool.false_ne_true] at hwaits
    rw [hnot, Bool.or_false] at hout
    exact open_of_same hopen hphase htoken hpending hwaits hout
  cases hmoves with
  | stays hphase hcharge htoken =>
    refine hsame (waitEnds_of_stays hphase) (fun hworking => hphase ▸ hworking) ?_
    rcases htoken with htoken | ⟨hgive, -⟩
    · exact htoken
    · rw [hgives] at hgive
      cases hgive
  | begins hbefore hafter hcharge htoken _ =>
    refine hsame (waitEnds_of_awake hbefore) ?_ htoken
    rw [hafter]
    exact nofun
  | ends deadline hbefore hafter hdue htoken hcharge =>
    have hends := waitEnds_of_ends hbefore hafter
    rw [hends, if_pos rfl] at hwaits
    rw [waitsOut_eq h hbefore hends hdue] at hout
    exact open_ends hopen htoken hpending hwaits hout
  | stops hbefore hafter htoken _ =>
    exact hsame (waitEnds_of_awake (by rw [hbefore]; rfl)) (fun _ => hbefore) htoken

/-- **The ledger's invariant.** -/
theorem ledgerInv_step (hw : w.Lawful) (p : σ × Ledger) (e : ε) (h : w.LedgerInv p) :
    w.LedgerInv (w.stepLedger p e) := by
  rw [stepLedger, ledgerAfter]
  by_cases hcharge : w.charges p.1 e = true
  · rw [if_pos hcharge]
    exact ⟨waiting_step (hw p.1 e) h, fun _ _ => open_charge (hw p.1 e) hcharge _ rfl rfl rfl⟩
  · rw [if_neg hcharge]
    refine ⟨waiting_step (hw p.1 e) h, ?_⟩
    intro hcharged hgiven
    obtain ⟨hgiven, hgives⟩ := Bool.or_eq_false_iff.mp hgiven
    exact open_step (hw p.1 e) h (h.account hcharged hgiven) hgives _ rfl rfl rfl

/-! ### Every run -/

theorem charge_working {s s' : σ} {e : ε} (hmoves : w.Moves s e s')
    (h : w.charges s e = true) :
    w.phase s = .working := by
  cases hmoves with
  | stays hphase hno htoken =>
    rw [hno] at h
    cases h
  | begins hbefore hafter hcharge htoken hgives => exact hcharge h
  | ends deadline hbefore hafter hdue htoken hno =>
    rw [hno] at h
    cases h
  | stops hbefore hafter htoken hgives => exact hbefore

/-- At a charge, the ledger shows a wait that ran out unless the only wait took a token left behind. -/
theorem separated_iff_drained_step (hw : w.Lawful) (p : σ × Ledger) (e : ε)
    (h : w.LedgerInv p) : w.Separated p e ↔ w.Drained p e := by
  refine forall_congr' fun hcharge => forall_congr' fun hcharged => forall_congr' fun hgiven => ?_
  have hopen := h.account hcharged hgiven
  have hwaited := hopen.waited (charge_working (hw p.1 e) hcharge)
  rw [hopen.ran_out]
  cases p.2.pending with
  | false => exact iff_of_true hwaited nofun
  | true => exact ⟨fun hwaits _ => hwaits, fun hwaits => hwaits rfl⟩

/-- **When the charges are an interval apart.** -/
theorem separated_iff_drained (hw : w.Lawful) {s : σ} (hs : (w.phase s).isWaiting = false)
    (es : List ε) :
    Runs.EachStep w.stepLedger w.Separated (s, Ledger.empty) es ↔
      Runs.EachStep w.stepLedger w.Drained (s, Ledger.empty) es := by
  have hstart : w.LedgerInv (s, Ledger.empty) := by
    refine ⟨?_, nofun⟩
    intro d hd
    rw [hd] at hs
    cases hs
  have hstep : ∀ p e, w.LedgerInv p → w.Separated p e → w.LedgerInv (w.stepLedger p e) :=
    fun p e h _ => ledgerInv_step hw p e h
  exact Runs.eachStep_iff_of_invariant hstep (separated_iff_drained_step hw) es _ hstart

/-- A run whose charges leave no token behind is drained. -/
theorem drained_of_tokenFree (es : List ε) (s : σ)
    (h : Runs.EachStep w.stepLedger w.TokenFree (s, Ledger.empty) es) :
    Runs.EachStep w.stepLedger w.Drained (s, Ledger.empty) es := by
  have hstep : ∀ (p : σ × Ledger) e, p.2.pending = false → w.TokenFree p e →
      (w.stepLedger p e).2.pending = false := by
    intro p e hpending hfree
    rw [stepLedger, ledgerAfter]
    split
    · rename_i hcharge
      exact hfree hcharge
    · exact hpending
  refine Runs.eachStep_of_invariant hstep ?_ es _ rfl h
  intro p e hfree _ _ _ _ hpending
  rw [hfree] at hpending
  cases hpending

end TimedWait
