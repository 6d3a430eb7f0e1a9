import Mathlib.Logic.Basic
import Mathlib.Tactic.Common

/-!
# Effect programs: one body of code, many environments

A C function that calls a driver is a tree: it either returns, or calls an operation and continues
with whatever the driver answers.  `Prog S α` is that tree over an effect signature `S`, with the
usual `do` notation.  A `Device` gives the operations their meaning on a world `W`; what the
environment decides (success, an error code, loss of power) is an *outcome* handed to each call, so
that a run is a function of the outcomes and a statement about every failure pattern is a statement
about every outcome stream.

* `Device.exec` runs a program against a stream of outcomes, `none` meaning that the run ended in a call
  that does not answer: power was lost, or the call is undefined;
* `Always` is the demonic precondition: whatever the outcomes, the program ends in `Q`, or a call does
  not answer and leaves `C`.  `always_exec` connects the two, `always_bind` composes, `always_mono`
  weakens.
* `CallsMeet` says of every call on the way that it meets a condition in the world it is made in.
-/

namespace EffectProgram

/-- The operations a program may call, and the type each of them answers with. -/
structure Signature where
  Op : Type
  Ans : Op → Type

/-- A program over the operations of `S`. -/
inductive Prog (S : Signature) (α : Type) : Type where
  | ret (a : α) : Prog S α
  | call (op : S.Op) (next : S.Ans op → Prog S α) : Prog S α

variable {S : Signature} {Ω W α β : Type}

namespace Prog

def bind : Prog S α → (α → Prog S β) → Prog S β
  | .ret a, f => f a
  | .call op next, f => .call op fun x => (next x).bind f

instance : Monad (Prog S) where
  pure := .ret
  bind := bind

/-- The program that calls one operation and returns its answer. -/
def perform (op : S.Op) : Prog S (S.Ans op) := .call op .ret

@[simp] theorem pure_eq (a : α) : (pure a : Prog S α) = .ret a := rfl

@[simp] theorem ret_bind (a : α) (f : α → Prog S β) : ((.ret a : Prog S α) >>= f) = f a := rfl

@[simp] theorem call_bind (op : S.Op) (next : S.Ans op → Prog S α) (f : α → Prog S β) :
    ((.call op next : Prog S α) >>= f) = .call op fun x => next x >>= f := rfl

/-- Two calls agree when their continuations do. -/
theorem call_congr {op : S.Op} {f g : S.Ans op → Prog S α} (h : ∀ x, f x = g x) :
    (.call op f : Prog S α) = .call op g := congrArg (Prog.call op) (funext h)

@[simp] theorem perform_bind (op : S.Op) (f : S.Ans op → Prog S β) :
    (perform op >>= f) = .call op f := rfl

end Prog

/-- The meaning of the operations on a world: the outcome picked by the environment determines the
answer and the world after the call.  No answer means that the run ends in the call. -/
structure Device (S : Signature) (Ω W : Type) where
  step : (op : S.Op) → Ω → W → Option (S.Ans op) × W

namespace Device

/-- Run a program: its `i`-th call gets the `i`-th outcome. -/
def exec (D : Device S Ω W) : Prog S α → (ℕ → Ω) → W → Option α × W
  | .ret a, _, w => (some a, w)
  | .call op next, os, w =>
    match D.step op (os 0) w with
    | (some x, w') => D.exec (next x) (fun i => os (i + 1)) w'
    | (none, w') => (none, w')

@[simp] theorem exec_ret (D : Device S Ω W) (a : α) (os : ℕ → Ω) (w : W) :
    D.exec (.ret a) os w = (some a, w) := rfl

/-- A sequence runs its second part on the outcomes the first part has left. -/
theorem exec_bind (D : Device S Ω W) (p : Prog S α) (f : α → Prog S β) (os : ℕ → Ω) (w : W) :
    ∃ os', D.exec (p >>= f) os w =
      match D.exec p os w with
      | (some a, w') => D.exec (f a) os' w'
      | (none, w') => (none, w') := by
  induction p generalizing os w with
  | ret a => exact ⟨os, rfl⟩
  | call op next ih =>
    simp only [Prog.call_bind, exec]
    rcases D.step op (os 0) w with ⟨_ | x, w'⟩
    · exact ⟨os, rfl⟩
    · exact ih x _ w'

end Device

/-! ### The demonic precondition -/

/-- Where a run ended: with a value in `Q`, or in a call without an answer in `C`. -/
def Ends (Q : α → W → Prop) (C : W → Prop) : Option α × W → Prop
  | (some a, w) => Q a w
  | (none, w) => C w

/-- Whatever outcomes the environment picks, `p` from `w` returns in `Q` or stops in a call in `C`. -/
def Always (D : Device S Ω W) (Q : α → W → Prop) (C : W → Prop) : Prog S α → W → Prop
  | .ret a, w => Q a w
  | .call op next, w => ∀ o, Ends (fun x w' => Always D Q C (next x) w') C (D.step op o w)

@[simp] theorem always_ret (D : Device S Ω W) (Q : α → W → Prop) (C : W → Prop) (a : α) (w : W) :
    Always D Q C (.ret a) w ↔ Q a w := Iff.rfl

theorem always_call (D : Device S Ω W) (Q : α → W → Prop) (C : W → Prop) (op : S.Op)
    (next : S.Ans op → Prog S α) (w : W) :
    Always D Q C (.call op next) w ↔
      ∀ o, Ends (fun x w' => Always D Q C (next x) w') C (D.step op o w) := Iff.rfl

/-- **Soundness.**  The demonic precondition speaks about every run. -/
theorem always_exec {D : Device S Ω W} {Q : α → W → Prop} {C : W → Prop} {p : Prog S α} {w : W}
    (h : Always D Q C p w) (os : ℕ → Ω) : Ends Q C (D.exec p os w) := by
  induction p generalizing w os with
  | ret a => exact h
  | call op next ih =>
    have hstep := h (os 0)
    simp only [Device.exec]
    generalize D.step op (os 0) w = r at hstep ⊢
    obtain ⟨x | x, w'⟩ := r
    · exact hstep
    · exact ih x hstep _

/-- Where no call goes without an answer the program returns. -/
theorem always_returns {D : Device S Ω W} {Q : α → W → Prop} {p : Prog S α} {w : W}
    (h : Always D Q (fun _ => False) p w) (os : ℕ → Ω) :
    ∃ a w', D.exec p os w = (some a, w') ∧ Q a w' := by
  have hrun := always_exec h os
  generalize D.exec p os w = r at hrun
  obtain ⟨x | x, w'⟩ := r
  · exact hrun.elim
  · exact ⟨x, w', rfl, hrun⟩

theorem always_mono {D : Device S Ω W} {Q Q' : α → W → Prop} {C C' : W → Prop} {p : Prog S α}
    {w : W} (h : Always D Q C p w) (hQ : ∀ a w, Q a w → Q' a w) (hC : ∀ w, C w → C' w) :
    Always D Q' C' p w := by
  induction p generalizing w with
  | ret a => exact hQ a w h
  | call op next ih =>
    intro o
    have hstep := h o
    generalize D.step op o w = r at hstep ⊢
    obtain ⟨x | x, w'⟩ := r
    · exact hC w' hstep
    · exact ih x hstep

/-- Two postconditions that are both sure hold together. -/
theorem always_and {D : Device S Ω W} {Q Q' : α → W → Prop} {C C' : W → Prop} {p : Prog S α} {w : W}
    (h : Always D Q C p w) (h' : Always D Q' C' p w) :
    Always D (fun a w' => Q a w' ∧ Q' a w') (fun w' => C w' ∧ C' w') p w := by
  induction p generalizing w with
  | ret a => exact ⟨h, h'⟩
  | call op next ih =>
    intro o
    have hstep := h o
    have hstep' := h' o
    generalize D.step op o w = r at hstep hstep'
    obtain ⟨x | x, w'⟩ := r
    · exact ⟨hstep, hstep'⟩
    · exact ih x hstep hstep'

/-- Enough for a call whose effect does not matter. -/
theorem always_call_of_forall {D : Device S Ω W} {Q : α → W → Prop} {C : W → Prop} {op : S.Op}
    {next : S.Ans op → Prog S α} {w : W} (hnext : ∀ x w', Always D Q C (next x) w')
    (hloss : ∀ w', C w') : Always D Q C (.call op next) w := by
  intro o
  generalize D.step op o w = r
  obtain ⟨x | x, w'⟩ := r
  · exact hloss w'
  · exact hnext x w'

theorem always_bind (D : Device S Ω W) (Q : β → W → Prop) (C : W → Prop) (p : Prog S α)
    (f : α → Prog S β) (w : W) :
    Always D Q C (p >>= f) w ↔ Always D (fun a w' => Always D Q C (f a) w') C p w := by
  induction p generalizing w with
  | ret a => exact Iff.rfl
  | call op next ih =>
    simp only [Prog.call_bind, always_call]
    refine forall_congr' fun o => ?_
    generalize D.step op o w = r
    obtain ⟨x | x, w'⟩ := r
    · exact Iff.rfl
    · exact ih x w'

/-! ### What the calls themselves meet -/

/-- Whatever outcomes the environment picks, every call of `p` meets `P` in the world it is made in. -/
def CallsMeet (D : Device S Ω W) (P : S.Op → W → Prop) : Prog S α → W → Prop
  | .ret _, _ => True
  | .call op next, w =>
    P op w ∧ ∀ o, Ends (fun x w' => CallsMeet D P (next x) w') (fun _ => True) (D.step op o w)

end EffectProgram
