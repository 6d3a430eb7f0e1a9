import Mathlib.Logic.Basic
import Mathlib.Data.List.Basic

/-!
# Runs of a step function

A run feeds a list of events to a step function.  `EachStep step R s es` says that `R` holds at every
step of the run from `s`, between the state a step starts from and its event; it is how a condition on
a run and a property of a run are stated alike.  `eachStep_of_invariant` carries one to the other.
`Until step A B s es` says that `A` holds at every step before the first at which `B` does.
-/

namespace Runs

variable {σ ε : Type*} (step : σ → ε → σ)

/-- The state after the events `es`. -/
def run (s : σ) (es : List ε) : σ := es.foldl step s

@[simp] theorem run_nil (s : σ) : run step s [] = s := rfl

@[simp] theorem run_cons (s : σ) (e : ε) (es : List ε) :
    run step s (e :: es) = run step (step s e) es := rfl

theorem run_append (s : σ) (es fs : List ε) : run step s (es ++ fs) = run step (run step s es) fs :=
  List.foldl_append

/-- Every step of the run meets `R`. -/
def EachStep (R : σ → ε → Prop) : σ → List ε → Prop
  | _, [] => True
  | s, e :: es => R s e ∧ EachStep R (step s e) es

instance decidableEachStep (R : σ → ε → Prop) [∀ s e, Decidable (R s e)] (s : σ) (es : List ε) :
    Decidable (EachStep step R s es) :=
  match es with
  | [] => inferInstanceAs (Decidable True)
  | e :: es =>
    have := decidableEachStep R (step s e) es
    inferInstanceAs (Decidable (_ ∧ _))

variable {step} {R Q : σ → ε → Prop} {Inv : σ → Prop}

/-- **Run induction.** -/
theorem run_invariant (hstep : ∀ s e, Inv s → R s e → Inv (step s e)) (es : List ε) (s : σ)
    (hinit : Inv s) (hrun : EachStep step R s es) : Inv (run step s es) := by
  induction es generalizing s with
  | nil => exact hinit
  | cons e es ih => exact ih (step s e) (hstep s e hinit hrun.1) hrun.2

/-- What every step keeps, every run keeps. -/
theorem run_invariant_always (hstep : ∀ s e, Inv s → Inv (step s e)) (es : List ε) (s : σ)
    (hinit : Inv s) : Inv (run step s es) := by
  induction es generalizing s with
  | nil => exact hinit
  | cons e es ih => exact ih (step s e) (hstep s e hinit)

/-- What the invariant and the condition imply at one step holds at every step. -/
theorem eachStep_of_invariant (hstep : ∀ s e, Inv s → R s e → Inv (step s e))
    (hgood : ∀ s e, Inv s → R s e → Q s e) (es : List ε) (s : σ) (hinit : Inv s)
    (hrun : EachStep step R s es) : EachStep step Q s es := by
  induction es generalizing s with
  | nil => exact trivial
  | cons e es ih =>
    refine ⟨hgood s e hinit hrun.1, ?_⟩
    exact ih (step s e) (hstep s e hinit hrun.1) hrun.2

/-- Two conditions that agree under an invariant either of them keeps hold of the same runs. -/
theorem eachStep_iff_of_invariant (hstep : ∀ s e, Inv s → R s e → Inv (step s e))
    (hiff : ∀ s e, Inv s → (R s e ↔ Q s e)) (es : List ε) (s : σ) (hinit : Inv s) :
    EachStep step R s es ↔ EachStep step Q s es := by
  induction es generalizing s with
  | nil => exact Iff.rfl
  | cons e es ih =>
    constructor
    · rintro ⟨hr, hrest⟩
      exact ⟨(hiff s e hinit).mp hr, (ih (step s e) (hstep s e hinit hr)).mp hrest⟩
    · rintro ⟨hq, hrest⟩
      have hr := (hiff s e hinit).mpr hq
      exact ⟨hr, (ih (step s e) (hstep s e hinit hr)).mpr hrest⟩

/-! ### Until -/

/-- `A` holds at every step of the run up to the first step at which `B` holds, if there is one. -/
def Until (step : σ → ε → σ) (A B : σ → ε → Prop) : σ → List ε → Prop
  | _, [] => True
  | s, e :: es => B s e ∨ (A s e ∧ Until step A B (step s e) es)

instance decidableUntil (step : σ → ε → σ) (A B : σ → ε → Prop) [∀ s e, Decidable (A s e)]
    [∀ s e, Decidable (B s e)] (s : σ) (es : List ε) : Decidable (Until step A B s es) :=
  match es with
  | [] => inferInstanceAs (Decidable True)
  | e :: es =>
    have := decidableUntil step A B (step s e) es
    inferInstanceAs (Decidable (_ ∨ _ ∧ _))

/-- One until implies another if, as long as an invariant holds, each of its steps does. -/
theorem until_of_invariant {A B A' B' : σ → ε → Prop} (hB : ∀ s e, Inv s → B s e → B' s e)
    (hA : ∀ s e, Inv s → A s e → B' s e ∨ (A' s e ∧ Inv (step s e))) (es : List ε) (s : σ)
    (hinit : Inv s) (hrun : Until step A B s es) : Until step A' B' s es := by
  induction es generalizing s with
  | nil => exact trivial
  | cons e es ih =>
    rcases hrun with hb | ⟨ha, hrest⟩
    · exact Or.inl (hB s e hinit hb)
    · rcases hA s e hinit ha with hb' | ⟨ha', hinv⟩
      · exact Or.inl hb'
      · exact Or.inr ⟨ha', ih (step s e) hinv hrest⟩

end Runs
