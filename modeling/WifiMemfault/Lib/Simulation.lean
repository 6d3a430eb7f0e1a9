import WifiMemfault.Lib.Progress

/-!
# Simulations

One machine stands for another: `shows` says which of its events an event of the first is, if it is one, and
a relation between the states is kept.  A run of the first then goes with a run of the second over the events
`seen` of it (`Simulates.run`).

A system of several parts, each of which is a machine of its own, simulates each part by a `view` of its
state (`PartOf`), and what holds of the part's runs holds of its share in the system's.
-/

namespace Runs

variable {σ ε τ δ : Type*}

/-- Every event of the first machine is one of the second, or a step the second does not take. -/
structure Simulates (step : σ → ε → σ) (step' : τ → δ → τ) (shows : σ → ε → Option δ) (Rel : σ → τ → Prop) :
    Prop where
  moves : ∀ s t e d, Rel s t → shows s e = some d → Rel (step s e) (step' t d)
  stays : ∀ s t e, Rel s t → shows s e = none → Rel (step s e) t

/-- Every event of the system is an event of the part or leaves the part alone. -/
structure PartOf (step : σ → ε → σ) (step' : τ → δ → τ) (view : σ → τ) (sees : σ → ε → Option δ) :
    Prop where
  moves : ∀ s e d, sees s e = some d → view (step s e) = step' (view s) d
  stays : ∀ s e, sees s e = none → view (step s e) = view s

/-- The events of the second machine in a run of the first. -/
def seen (step : σ → ε → σ) (sees : σ → ε → Option δ) : σ → List ε → List δ
  | _, [] => []
  | s, e :: es =>
    match sees s e with
    | some d => d :: seen step sees (step s e) es
    | none => seen step sees (step s e) es

/-- A condition on the part's steps, as one on the system's. -/
def AtPart (view : σ → τ) (sees : σ → ε → Option δ) (B : τ → δ → Prop) (s : σ) (e : ε) : Prop :=
  ∃ d, sees s e = some d ∧ B (view s) d

/-- The system's step is a turn of the part. -/
def partTurn (view : σ → τ) (sees : σ → ε → Option δ) (turn : τ → δ → Bool) (s : σ) (e : ε) : Bool :=
  match sees s e with
  | some d => turn (view s) d
  | none => false

variable {step : σ → ε → σ} {step' : τ → δ → τ} {view : σ → τ} {sees : σ → ε → Option δ}

theorem seen_some {s : σ} {e : ε} {d : δ} (h : sees s e = some d) (es : List ε) :
    seen step sees s (e :: es) = d :: seen step sees (step s e) es := by
  simp only [seen, h]

theorem seen_none {s : σ} {e : ε} (h : sees s e = none) (es : List ε) :
    seen step sees s (e :: es) = seen step sees (step s e) es := by
  simp only [seen, h]

/-- **A run of the first machine goes with a run of the second.** -/
theorem Simulates.run {Rel : σ → τ → Prop} (h : Simulates step step' sees Rel) (es : List ε) (s : σ) (t : τ)
    (hinit : Rel s t) : Rel (Runs.run step s es) (Runs.run step' t (seen step sees s es)) := by
  induction es generalizing s t with
  | nil => exact hinit
  | cons e es ih =>
    cases hsees : sees s e with
    | some d =>
      rw [seen_some hsees]
      exact ih (step s e) (step' t d) (h.moves s t e d hinit hsees)
    | none =>
      rw [seen_none hsees]
      exact ih (step s e) t (h.stays s t e hinit hsees)

theorem PartOf.simulates (h : PartOf step step' view sees) :
    Simulates step step' sees fun s t => view s = t := by
  constructor
  · rintro s t e d rfl hsees
    exact h.moves s e d hsees
  · rintro s t e rfl hsees
    exact h.stays s e hsees

/-- **A run of the system is a run of the part.** -/
theorem PartOf.run_view (h : PartOf step step' view sees) (es : List ε) (s : σ) :
    view (Runs.run step s es) = Runs.run step' (view s) (seen step sees s es) :=
  h.simulates.run es s (view s) rfl

theorem PartOf.eachStep {R : τ → δ → Prop} (h : PartOf step step' view sees) (es : List ε) (s : σ)
    (hrun : EachStep step (fun s e => ∀ d, sees s e = some d → R (view s) d) s es) :
    EachStep step' R (view s) (seen step sees s es) := by
  induction es generalizing s with
  | nil => exact trivial
  | cons e es ih =>
    have hrest := ih (step s e) hrun.2
    cases hsees : sees s e with
    | some d =>
      rw [h.moves s e d hsees] at hrest
      rw [seen_some hsees]
      exact ⟨hrun.1 d hsees, hrest⟩
    | none =>
      rw [h.stays s e hsees] at hrest
      rw [seen_none hsees]
      exact hrest

theorem PartOf.countSteps_eq {turn : τ → δ → Bool} (h : PartOf step step' view sees) (es : List ε) (s : σ) :
    countSteps step (partTurn view sees turn) s es
      = countSteps step' turn (view s) (seen step sees s es) := by
  induction es generalizing s with
  | nil => rfl
  | cons e es ih =>
    rw [countSteps, ih]
    cases hsees : sees s e with
    | some d =>
      rw [seen_some hsees, countSteps, h.moves s e d hsees]
      simp only [partTurn, hsees]
    | none =>
      rw [seen_none hsees, h.stays s e hsees]
      simp [partTurn, hsees]

theorem PartOf.happens {B : τ → δ → Prop} (h : PartOf step step' view sees) (es : List ε) (s : σ)
    (hpart : Happens step' B (view s) (seen step sees s es)) :
    Happens step (AtPart view sees B) s es := by
  induction es generalizing s with
  | nil => exact hpart
  | cons e es ih =>
    cases hsees : sees s e with
    | some d =>
      rw [seen_some hsees] at hpart
      rcases hpart with hnow | hlater
      · exact Or.inl ⟨d, hsees, hnow⟩
      · rw [← h.moves s e d hsees] at hlater
        exact Or.inr (ih (step s e) hlater)
    | none =>
      rw [seen_none hsees, ← h.stays s e hsees] at hpart
      exact Or.inr (ih (step s e) hpart)

end Runs
