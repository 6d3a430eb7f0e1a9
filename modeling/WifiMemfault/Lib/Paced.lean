import WifiMemfault.Lib.Runs
import Mathlib.Tactic.Common

/-!
# A worker that pauses after each of its actions

The worker acts, pauses for `interval` and is free again; while it is free it may do anything else, and it
may also pause without having acted.  `earliest` is the first moment at which the next action can start.  It
never moves back, and an action moves it on by `interval`: so the actions of every run are `interval` apart,
and in a stretch of time there are at most as many of them as it has room for.
-/

/-- What the worker is at. -/
inductive PacePhase where
  | free
  | acting
  | pausing (wake : ℕ)
  deriving DecidableEq, Repr

structure Paced (σ ε : Type*) where
  step : σ → ε → σ
  now : σ → ℕ
  phase : σ → PacePhase
  interval : ℕ
  /-- The event starts an action. -/
  acts : σ → ε → Bool

namespace Paced

variable {σ ε : Type*} (p : Paced σ ε)

/-- What a step from `s` to `s'` may do. -/
inductive Moves (s : σ) (e : ε) (s' : σ) : Prop where
  | other (hphase : p.phase s' = p.phase s) (hnow : p.now s ≤ p.now s') (hacts : p.acts s e = false)
  | begins (hbefore : p.phase s = .free) (hafter : p.phase s' = .acting) (hnow : p.now s ≤ p.now s')
  | pauses (hbefore : p.phase s = .free ∨ p.phase s = .acting)
      (hafter : p.phase s' = .pausing (p.now s + p.interval)) (hnow : p.now s ≤ p.now s')
      (hacts : p.acts s e = false)
  | wakes (wake : ℕ) (hbefore : p.phase s = .pausing wake) (hafter : p.phase s' = .free)
      (hdue : wake ≤ p.now s) (hnow : p.now s ≤ p.now s') (hacts : p.acts s e = false)

def Lawful : Prop := ∀ s e, p.Moves s e (p.step s e)

/-- The first moment at which the next action can start. -/
def earliest (s : σ) : ℕ :=
  match p.phase s with
  | .free => p.now s
  | .acting => p.now s + p.interval
  | .pausing wake => wake

/-- The moments at which the actions of a run start. -/
def actionTimes : σ → List ε → List ℕ
  | _, [] => []
  | s, e :: es =>
    if p.acts s e then p.now s :: actionTimes (p.step s e) es else actionTimes (p.step s e) es

variable {p} {s s' : σ} {e : ε}

theorem earliest_free (h : p.phase s = .free) : p.earliest s = p.now s := by
  simp only [earliest, h]

theorem earliest_acting (h : p.phase s = .acting) : p.earliest s = p.now s + p.interval := by
  simp only [earliest, h]

theorem earliest_pausing {wake : ℕ} (h : p.phase s = .pausing wake) : p.earliest s = wake := by
  simp only [earliest, h]

/-- The clock never runs back. -/
theorem now_of_moves (h : p.Moves s e s') : p.now s ≤ p.now s' := by
  cases h with
  | other hphase hnow hacts => exact hnow
  | begins hbefore hafter hnow => exact hnow
  | pauses hbefore hafter hnow hacts => exact hnow
  | wakes wake hbefore hafter hdue hnow hacts => exact hnow

/-- Nor does the first moment of the next action. -/
theorem earliest_of_moves (h : p.Moves s e s') : p.earliest s ≤ p.earliest s' := by
  cases h with
  | other hphase hnow hacts =>
    cases hs : p.phase s with
    | free =>
      rw [earliest_free hs, earliest_free (hphase.trans hs)]
      exact hnow
    | acting =>
      rw [earliest_acting hs, earliest_acting (hphase.trans hs)]
      exact Nat.add_le_add_right hnow _
    | pausing wake =>
      exact Nat.le_of_eq ((earliest_pausing hs).trans (earliest_pausing (hphase.trans hs)).symm)
  | begins hbefore hafter hnow =>
    rw [earliest_free hbefore, earliest_acting hafter]
    exact Nat.le_add_right_of_le hnow
  | pauses hbefore hafter hnow hacts =>
    rw [earliest_pausing hafter]
    rcases hbefore with hbefore | hbefore
    · rw [earliest_free hbefore]
      exact Nat.le_add_right _ _
    · exact Nat.le_of_eq (earliest_acting hbefore)
  | wakes wake hbefore hafter hdue hnow hacts =>
    rw [earliest_pausing hbefore, earliest_free hafter]
    exact Nat.le_trans hdue hnow

/-- An action starts no earlier than it can, and the next one `interval` later. -/
theorem earliest_of_action (h : p.Moves s e s') (hacts : p.acts s e = true) :
    p.earliest s = p.now s ∧ p.now s + p.interval ≤ p.earliest s' := by
  cases h with
  | begins hbefore hafter hnow =>
    refine ⟨earliest_free hbefore, ?_⟩
    rw [earliest_acting hafter]
    exact Nat.add_le_add_right hnow _
  | other hphase hnow hidle => simp [hidle] at hacts
  | pauses hbefore hafter hnow hidle => simp [hidle] at hacts
  | wakes wake hbefore hafter hdue hnow hidle => simp [hidle] at hacts

/-! ### Runs -/

theorem now_run (hp : p.Lawful) (es : List ε) (s : σ) : p.now s ≤ p.now (Runs.run p.step s es) := by
  induction es generalizing s with
  | nil => exact Nat.le_refl _
  | cons e es ih => exact Nat.le_trans (now_of_moves (hp s e)) (ih (p.step s e))

/-- The moment `t` lies in the run from `s`, and not before the next action can start. -/
structure Within (p : Paced σ ε) (s : σ) (es : List ε) (t : ℕ) : Prop where
  earliest_le : p.earliest s ≤ t
  now_le : p.now s ≤ t
  le_end : t ≤ p.now (Runs.run p.step s es)

theorem actionTimes_within (hp : p.Lawful) (es : List ε) (s : σ) :
    ∀ t ∈ p.actionTimes s es, p.Within s es t := by
  induction es generalizing s with
  | nil => simp [actionTimes]
  | cons e es ih =>
    have hlater : ∀ t ∈ p.actionTimes (p.step s e) es, p.Within s (e :: es) t := by
      intro t ht
      obtain ⟨hearliest, hnow, hend⟩ := ih (p.step s e) t ht
      exact ⟨Nat.le_trans (earliest_of_moves (hp s e)) hearliest,
        Nat.le_trans (now_of_moves (hp s e)) hnow, hend⟩
    rw [actionTimes]
    split
    · rename_i hacts
      intro t ht
      rcases List.mem_cons.mp ht with rfl | ht
      · have hstart := (earliest_of_action (hp s e) hacts).1
        exact ⟨Nat.le_of_eq hstart, Nat.le_refl _, now_run hp (e :: es) s⟩
      · exact hlater t ht
    · exact hlater

/-- **The actions of a run are `interval` apart.** -/
theorem actionTimes_pairwise (hp : p.Lawful) (es : List ε) (s : σ) :
    (p.actionTimes s es).Pairwise fun t t' => t + p.interval ≤ t' := by
  induction es generalizing s with
  | nil => simp [actionTimes]
  | cons e es ih =>
    rw [actionTimes]
    split
    · rename_i hacts
      refine List.pairwise_cons.mpr ⟨fun t ht => ?_, ih (p.step s e)⟩
      have hfrom := (actionTimes_within hp es (p.step s e) t ht).earliest_le
      exact Nat.le_trans (earliest_of_action (hp s e) hacts).2 hfrom
    · exact ih (p.step s e)

/-- Moments that are `d` apart fill the time from the first to the last. -/
theorem length_of_pairwise {d a b : ℕ} (ts : List ℕ) (hapart : ts.Pairwise fun t t' => t + d ≤ t')
    (hfrom : ∀ t ∈ ts, a ≤ t) (hto : ∀ t ∈ ts, t ≤ b) (hab : a ≤ b) : ts.length * d ≤ b - a + d := by
  induction ts generalizing a with
  | nil => simp
  | cons t ts ih =>
    obtain ⟨hnext, hrest⟩ := List.pairwise_cons.mp hapart
    have ht := hfrom t List.mem_cons_self
    have htb := hto t List.mem_cons_self
    rw [List.length_cons, Nat.succ_mul]
    cases ts with
    | nil => simp
    | cons t' ts =>
      have ht' := hnext t' List.mem_cons_self
      have htb' := hto t' (List.mem_cons_of_mem _ List.mem_cons_self)
      have hlength := ih hrest hnext (fun u hu => hto u (List.mem_cons_of_mem _ hu)) (Nat.le_trans ht' htb')
      omega

/-- **A run has no room for more actions than its time divided by `interval`, and one.** -/
theorem actionTimes_length (hp : p.Lawful) (es : List ε) (s : σ) :
    (p.actionTimes s es).length * p.interval
      ≤ p.now (Runs.run p.step s es) - p.now s + p.interval := by
  have hwithin := actionTimes_within hp es s
  exact length_of_pairwise _ (actionTimes_pairwise hp es s) (fun t ht => (hwithin t ht).now_le)
    (fun t ht => (hwithin t ht).le_end) (now_run hp es s)

end Paced
