import Mathlib.Data.List.Basic
import Mathlib.Tactic.Common

/-!
# The last write wins

A fold over a list of events in which some events write a value and the others leave it alone: what is read
at the end is what the last of the writers has written, or what was there before.  `fold_batches` is the same
for events that come in batches.
-/

namespace LastWrite

variable {σ ε β ν : Type*}

/-- The value of the last event that writes. -/
def latest (writes : ε → Bool) (value : ε → ν) (es : List ε) : Option ν :=
  (es.filter writes).getLast?.map value

variable {writes : ε → Bool} {value : ε → ν}

theorem latest_cons (e : ε) (es : List ε) :
    latest writes value (e :: es)
      = (latest writes value es).or (if writes e then some (value e) else none) := by
  simp only [latest, List.filter_cons]
  split
  · rw [List.getLast?_cons]
    cases (es.filter writes).getLast? with
    | none => rfl
    | some last => rfl
  · simp

theorem latest_append (es fs : List ε) :
    latest writes value (es ++ fs) = (latest writes value fs).or (latest writes value es) := by
  induction es with
  | nil => simp [latest]
  | cons e es ih => rw [List.cons_append, latest_cons, latest_cons, ih, Option.or_assoc]

variable (read : σ → Option ν)

/-- **The last write wins.** -/
theorem fold_events {step : σ → ε → σ}
    (hstep : ∀ s e, read (step s e) = if writes e then some (value e) else read s) (es : List ε) (s : σ) :
    read (es.foldl step s) = (latest writes value es).or (read s) := by
  induction es generalizing s with
  | nil => simp [latest]
  | cons e es ih =>
    rw [List.foldl_cons, ih, hstep, latest_cons, Option.or_assoc]
    split
    · rfl
    · rfl

theorem fold_batches {step : σ → β → σ} {events : β → List ε}
    (hstep : ∀ s b, read (step s b) = (latest writes value (events b)).or (read s)) (bs : List β) (s : σ) :
    read (bs.foldl step s) = (latest writes value (bs.flatMap events)).or (read s) := by
  induction bs generalizing s with
  | nil => simp [latest]
  | cons b bs ih => rw [List.foldl_cons, ih, hstep, List.flatMap_cons, latest_append, Option.or_assoc]

/-- A value that no event writes stays. -/
theorem fold_kept {α : Type*} (get : σ → α) {step : σ → ε → σ} (hstep : ∀ s e, get (step s e) = get s)
    (es : List ε) (s : σ) : get (es.foldl step s) = get s := by
  induction es generalizing s with
  | nil => rfl
  | cons e es ih => rw [List.foldl_cons, ih, hstep]

end LastWrite
