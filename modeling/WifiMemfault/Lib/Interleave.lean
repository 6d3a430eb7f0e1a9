import WifiMemfault.Lib.EffectProgram
import Mathlib.Logic.Function.Basic

/-!
# Interleavings of effect programs

Threads with names from `ι` run effect programs over one world, and the environment changes the world
between their calls.  A schedule is a list of turns: a thread executes its next call with a given
outcome, or the environment acts.  Every call is one atomic step, and a `Config` keeps the log of
what happened, most recent event first, with the world before each event.

A condition on a schedule is a condition on the log it produces: `Guarded allows` says that each event
was allowed by what had happened before it.  `runTurns_invariant` is the induction rule that goes with
it.
-/

namespace Interleave

open EffectProgram

variable {S : Signature} {ι Ω E W α : Type}

/-- One entry of the log: a call of a thread with its answer, or an act of the environment. -/
inductive Event (S : Signature) (ι E : Type) where
  | call (i : ι) (op : S.Op) (ans : S.Ans op)
  | env (e : E)

/-- One turn of a schedule. -/
inductive Turn (ι Ω E : Type) where
  | thread (i : ι) (o : Ω)
  | env (e : E)

/-- What is left of each thread, the world, the log, and the worlds the log has left behind. -/
structure Config (S : Signature) (ι E W α : Type) where
  threads : ι → Prog S α
  world : W
  events : List (Event S ι E)
  past : List W

section Run

variable [DecidableEq ι] (D : Device S Ω W) (act : E → W → W)

/-- One turn.  A thread that has returned does nothing, and the device of an interleaving keeps its
power: a call without an answer is not taken. -/
def stepTurn (c : Config S ι E W α) : Turn ι Ω E → Config S ι E W α
  | .thread i o =>
    match c.threads i with
    | .ret _ => c
    | .call op next =>
      match D.step op o c.world with
      | (some x, w) =>
        ⟨Function.update c.threads i (next x), w, .call i op x :: c.events, c.world :: c.past⟩
      | (none, _) => c
  | .env e => ⟨c.threads, act e c.world, .env e :: c.events, c.world :: c.past⟩

def runTurns (c : Config S ι E W α) (turns : List (Turn ι Ω E)) : Config S ι E W α :=
  turns.foldl (stepTurn D act) c

@[simp] theorem runTurns_nil (c : Config S ι E W α) : runTurns D act c [] = c := rfl

@[simp] theorem runTurns_cons (c : Config S ι E W α) (t : Turn ι Ω E) (ts : List (Turn ι Ω E)) :
    runTurns D act c (t :: ts) = runTurns D act (stepTurn D act c t) ts := rfl

/-- What one turn can do: nothing, one call of a thread, or one act of the environment. -/
theorem stepTurn_cases (c : Config S ι E W α) (t : Turn ι Ω E) :
    stepTurn D act c t = c ∨
    (∃ i o op next x w, t = .thread i o ∧ c.threads i = .call op next ∧
      D.step op o c.world = (some x, w) ∧
      stepTurn D act c t =
        ⟨Function.update c.threads i (next x), w, .call i op x :: c.events,
          c.world :: c.past⟩) ∨
    (∃ e, t = .env e ∧
      stepTurn D act c t = ⟨c.threads, act e c.world, .env e :: c.events, c.world :: c.past⟩) := by
  cases t with
  | env e => exact Or.inr (Or.inr ⟨e, rfl, rfl⟩)
  | thread i o =>
    cases hp : c.threads i with
    | ret a =>
      left
      simp only [stepTurn, hp]
    | call op next =>
      rcases hs : D.step op o c.world with ⟨_ | x, w⟩
      · left
        simp only [stepTurn, hp, hs]
      · refine Or.inr (Or.inl ⟨i, o, op, next, x, w, rfl, hp, hs, ?_⟩)
        simp only [stepTurn, hp, hs]

/-! ### Guarded logs -/

/-- Every event of the log was allowed by the events before it. -/
def Guarded (allows : List (Event S ι E) → Event S ι E → Prop) : List (Event S ι E) → Prop
  | [] => True
  | e :: h => Guarded allows h ∧ allows h e

instance decidableGuarded (allows : List (Event S ι E) → Event S ι E → Prop)
    [∀ h e, Decidable (allows h e)] : DecidablePred (Guarded allows)
  | [] => inferInstanceAs (Decidable True)
  | _ :: h =>
    have := decidableGuarded allows h
    inferInstanceAs (Decidable (_ ∧ _))

theorem guarded_of_stepTurn (allows : List (Event S ι E) → Event S ι E → Prop)
    (c : Config S ι E W α) (t : Turn ι Ω E) (h : Guarded allows (stepTurn D act c t).events) :
    Guarded allows c.events := by
  rcases stepTurn_cases D act c t with hc | ⟨i, o, op, next, x, w, -, -, -, hc⟩ | ⟨e, -, hc⟩
  · rw [hc] at h
    exact h
  · rw [hc] at h
    exact h.1
  · rw [hc] at h
    exact h.1

theorem guarded_of_runTurns (allows : List (Event S ι E) → Event S ι E → Prop)
    (turns : List (Turn ι Ω E)) (c : Config S ι E W α)
    (h : Guarded allows (runTurns D act c turns).events) : Guarded allows c.events := by
  induction turns generalizing c with
  | nil => exact h
  | cons t ts ih => exact guarded_of_stepTurn D act allows c t (ih _ h)

/-- **Invariants of guarded runs.**  What every allowed turn preserves holds after every schedule
whose log is guarded. -/
theorem runTurns_invariant (allows : List (Event S ι E) → Event S ι E → Prop)
    (Inv : Config S ι E W α → Prop)
    (hstep : ∀ c t, Inv c → Guarded allows (stepTurn D act c t).events →
      Inv (stepTurn D act c t))
    (turns : List (Turn ι Ω E)) (c : Config S ι E W α) (hinit : Inv c)
    (hguard : Guarded allows (runTurns D act c turns).events) : Inv (runTurns D act c turns) := by
  induction turns generalizing c with
  | nil => exact hinit
  | cons t ts ih =>
    have hnext := guarded_of_runTurns D act allows ts _ hguard
    exact ih _ (hstep c t hinit hnext) hguard

end Run

end Interleave
