import WifiMemfault.Lib.EffectProgram

/-!
# Programs whose world changes between two calls

While a program runs, others may change parts of the world that its calls do not look at.  A change `f`
*commutes* with the calls in `P` if it makes no difference to a call whether the change comes before it or
after; a program that makes no other calls then ends as it would have, up to the change
(`always_changed`).
-/

namespace EffectProgram

variable {S : Signature} {Ω W α β : Type}

/-- Every call the program may come to meets `P`. -/
def Prog.Calls (P : S.Op → Prop) : Prog S α → Prop
  | .ret _ => True
  | .call op next => P op ∧ ∀ x, (next x).Calls P

theorem Prog.calls_bind {P : S.Op → Prop} {p : Prog S α} {f : α → Prog S β} (hp : p.Calls P)
    (hf : ∀ a, (f a).Calls P) : (p >>= f).Calls P := by
  induction p with
  | ret a => exact hf a
  | call op next ih =>
    obtain ⟨hop, hnext⟩ := hp
    exact ⟨hop, fun x => ih x (hnext x)⟩

theorem Prog.calls_perform {P : S.Op → Prop} {op : S.Op} (hop : P op) :
    (Prog.perform op : Prog S (S.Ans op)).Calls P :=
  ⟨hop, fun _ => trivial⟩

theorem Prog.calls_ite {P : S.Op → Prop} {c : Prop} [Decidable c] {p q : Prog S α} (hp : p.Calls P)
    (hq : q.Calls P) : (if c then p else q).Calls P := by
  split
  · exact hp
  · exact hq

/-- It makes no difference to the calls in `P` whether the change comes before or after them. -/
def Commutes (D : Device S Ω W) (P : S.Op → Prop) (f : W → W) : Prop :=
  ∀ op o w, P op → D.step op o (f w) = ((D.step op o w).1, f (D.step op o w).2)

variable {D : Device S Ω W} {P : S.Op → Prop} {f : W → W} {Q Q' : α → W → Prop} {C C' : W → Prop}

/-- **The program after a change.**  What it is sure of, it is sure of with the change. -/
theorem always_changed (hf : Commutes D P f) (hQ : ∀ a w, Q a w → Q' a (f w)) (hC : ∀ w, C w → C' (f w))
    {p : Prog S α} (hp : p.Calls P) {w : W} (h : Always D Q C p w) : Always D Q' C' p (f w) := by
  induction p generalizing w with
  | ret a => exact hQ a w h
  | call op next ih =>
    obtain ⟨hop, hnext⟩ := hp
    intro o
    have hstep := h o
    rw [hf op o w hop]
    generalize D.step op o w = r at hstep ⊢
    obtain ⟨x | x, w'⟩ := r
    · exact hC w' hstep
    · exact ih x (hnext x) hstep

end EffectProgram
