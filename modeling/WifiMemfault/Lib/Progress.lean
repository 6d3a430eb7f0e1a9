import WifiMemfault.Lib.Runs
import Mathlib.Data.Bool.Basic
import Mathlib.Tactic.Common

/-!
# Runs that get somewhere

`Happens step B s es` says that `B` holds at some step of the run from `s`, and `countSteps` counts the steps
at which it is a certain party's turn.  A `Variant` is what shows that the party reaches its goal: a number
that no step raises and every turn lowers, until a step is the goal.  Then as many turns as the number says
are enough, however the steps of the other parties come between them.

`pollsLeft` is the part of such a number that a loop contributes which polls until a timeout.
-/

namespace Runs

variable {σ ε : Type*} (step : σ → ε → σ)

/-- `B` holds at a step of the run. -/
def Happens (B : σ → ε → Prop) : σ → List ε → Prop
  | _, [] => False
  | s, e :: es => B s e ∨ Happens B (step s e) es

/-- The number of steps of the run that are a turn. -/
def countSteps (turn : σ → ε → Bool) : σ → List ε → ℕ
  | _, [] => 0
  | s, e :: es => (turn s e).toNat + countSteps turn (step s e) es

/-- Under the invariant, every step that meets `R` is the goal, or keeps the invariant and brings the goal
nearer if it is a turn. -/
structure Variant (Inv : σ → Prop) (R goal : σ → ε → Prop) (turn : σ → ε → Bool) (left : σ → ℕ) :
    Prop where
  pos : ∀ s, Inv s → 0 < left s
  nearer : ∀ s e, Inv s → R s e → ¬ goal s e →
    Inv (step s e) ∧ left (step s e) + (turn s e).toNat ≤ left s

variable {step} {Inv : σ → Prop} {R goal : σ → ε → Prop} {turn : σ → ε → Bool} {left : σ → ℕ}

theorem eachStep_of_forall (h : ∀ s e, R s e) (es : List ε) (s : σ) : EachStep step R s es := by
  induction es generalizing s with
  | nil => exact trivial
  | cons e es ih => exact ⟨h s e, ih (step s e)⟩

theorem countSteps_append (es fs : List ε) (s : σ) :
    countSteps step turn s (es ++ fs) = countSteps step turn s es + countSteps step turn (run step s es) fs := by
  induction es generalizing s with
  | nil => exact (Nat.zero_add _).symm
  | cons e es ih =>
    rw [List.cons_append, countSteps, countSteps, ih, run_cons, Nat.add_assoc]

/-- Every turn of a party that stays where it is counts. -/
theorem countSteps_replicate {s : σ} {e : ε} (hstays : step s e = s) (hturn : turn s e = true) (n : ℕ) :
    countSteps step turn s (List.replicate n e) = n := by
  induction n with
  | zero => rfl
  | succ n ih =>
    rw [List.replicate_succ, countSteps, hstays, ih, hturn, Bool.toNat_true, Nat.add_comm]

/-- **The goal is reached within the turns that are left.**  `N n s` says that `n` turns are enough. -/
theorem happens_of_near {N : ℕ → σ → Prop} (hpos : ∀ s, ¬ N 0 s)
    (hstep : ∀ n s e, N n s → R s e → ¬ goal s e → N (n - (turn s e).toNat) (step s e))
    (es : List ε) (n : ℕ) (s : σ) (hinit : N n s) (hrun : EachStep step R s es)
    (hturns : n ≤ countSteps step turn s es) : Happens step goal s es := by
  induction es generalizing n s with
  | nil =>
    obtain rfl : n = 0 := Nat.le_zero.mp hturns
    exact hpos s hinit
  | cons e es ih =>
    by_cases hgoal : goal s e
    · exact Or.inl hgoal
    · have hsum : countSteps step turn s (e :: es)
          = (turn s e).toNat + countSteps step turn (step s e) es := rfl
      exact Or.inr (ih _ (step s e) (hstep n s e hinit hrun.1 hgoal) hrun.2 (by omega))

theorem Variant.happens (h : Variant step Inv R goal turn left) (es : List ε) (s : σ) (hinit : Inv s)
    (hrun : EachStep step R s es) (hturns : left s ≤ countSteps step turn s es) :
    Happens step goal s es := by
  refine happens_of_near (N := fun n s => Inv s ∧ left s ≤ n) ?_ ?_ es (left s) s
    ⟨hinit, Nat.le_refl _⟩ hrun hturns
  · rintro s ⟨hinv, hleft⟩
    exact absurd (h.pos s hinv) (Nat.not_lt.mpr hleft)
  · rintro n s e ⟨hinv, hleft⟩ hr hgoal
    obtain ⟨hinv', hleft'⟩ := h.nearer s e hinv hr hgoal
    exact ⟨hinv', by omega⟩

/-! ### A loop that polls until a timeout -/

/-- The waits of `interval` that may still come before `timeout`, after `waited`. -/
def pollsLeft (timeout interval waited : ℕ) : ℕ := (timeout - waited + (interval - 1)) / interval

/-- A wait brings the loop one poll nearer to its timeout. -/
theorem pollsLeft_waited {timeout interval waited : ℕ} (hpos : 0 < interval) (hwaits : waited < timeout) :
    pollsLeft timeout interval (waited + interval) + 1 = pollsLeft timeout interval waited := by
  simp only [pollsLeft]
  by_cases hfits : waited + interval ≤ timeout
  · have hsplit : timeout - waited + (interval - 1)
        = timeout - (waited + interval) + (interval - 1) + interval := by omega
    rw [hsplit, Nat.add_div_right _ hpos]
  · have hlast : timeout - (waited + interval) = 0 := by omega
    have hrest : timeout - waited + (interval - 1) = timeout - waited - 1 + interval := by omega
    have hnone : (timeout - waited - 1) / interval = 0 := Nat.div_eq_of_lt (by omega)
    have hdone : (interval - 1) / interval = 0 := Nat.div_eq_of_lt (by omega)
    rw [hlast, Nat.zero_add, hdone, hrest, Nat.add_div_right _ hpos, hnone]

theorem pollsLeft_le (timeout interval waited : ℕ) :
    pollsLeft timeout interval waited ≤ pollsLeft timeout interval 0 := by
  simp only [pollsLeft]
  exact Nat.div_le_div_right (Nat.add_le_add_right (Nat.sub_le_sub_left (Nat.zero_le _) _) _)

end Runs
