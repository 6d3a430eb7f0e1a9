import WifiMemfault.Lib.Progress
import Mathlib

/-!
# Counters and what they count

A counter of a machine has *columns*: kinds of events, each of which adds one to it, and two when an event is
of two kinds.  If one step changes the counter by the columns it is in (`adds`), then over a run the counter
grows by the number of events in each (`run_account`).
-/

namespace Runs

variable {σ ε : Type*}

/-- What an event in some of the columns adds. -/
def adds (columns : List (σ → ε → Bool)) (s : σ) (e : ε) : ℕ :=
  (columns.map fun column => (column s e).toNat).sum

/-- The events of a run in each of the columns, together. -/
def account (step : σ → ε → σ) (columns : List (σ → ε → Bool)) (s : σ) (es : List ε) : ℕ :=
  (columns.map fun column => countSteps step column s es).sum

variable {step : σ → ε → σ} {columns : List (σ → ε → Bool)}

theorem account_cons (s : σ) (e : ε) (es : List ε) :
    account step columns s (e :: es) = adds columns s e + account step columns (step s e) es := by
  simp only [account, adds, countSteps, List.sum_map_add]

/-- **A counter counts its columns.** -/
theorem run_account (counter : σ → ℕ) (h : ∀ s e, counter (step s e) = counter s + adds columns s e)
    (es : List ε) (s : σ) : counter (run step s es) = counter s + account step columns s es := by
  induction es generalizing s with
  | nil =>
    have hnone : account step columns s [] = 0 :=
      List.sum_eq_zero fun n hn => by
        obtain ⟨column, -, rfl⟩ := List.mem_map.mp hn
        rfl
    rw [run_nil, hnone, Nat.add_zero]
  | cons e es ih => rw [run_cons, ih, h, account_cons, Nat.add_assoc]

end Runs
