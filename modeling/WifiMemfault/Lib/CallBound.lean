import WifiMemfault.Lib.EffectProgram

/-!
# How many calls a program makes

A program is finite along every choice of answers, but there may be infinitely many of those.  `AtMost p n`
says that `p` makes at most `n` calls whatever the answers are; the bounds of the parts of a program add up.
-/

namespace EffectProgram

variable {S : Signature} {α β : Type}

namespace Prog

/-- The program makes at most `n` calls, whatever the answers. -/
def AtMost : Prog S α → ℕ → Prop
  | .ret _, _ => True
  | .call _ _, 0 => False
  | .call _ next, n + 1 => ∀ x, (next x).AtMost n

theorem atMost_ret (a : α) (n : ℕ) : (Prog.ret a : Prog S α).AtMost n := by
  simp [AtMost]

theorem AtMost.mono {p : Prog S α} {m n : ℕ} (h : p.AtMost m) (hle : m ≤ n) : p.AtMost n := by
  induction p generalizing m n with
  | ret a => exact atMost_ret a n
  | call op next ih =>
    obtain ⟨k, rfl⟩ := Nat.exists_eq_add_of_le hle
    cases m with
    | zero => exact h.elim
    | succ m =>
      rw [Nat.succ_add]
      intro x
      exact ih x (h x) (Nat.le_add_right m k)

theorem AtMost.bind {p : Prog S α} {f : α → Prog S β} {m n : ℕ} (hp : p.AtMost m)
    (hf : ∀ a, (f a).AtMost n) : (p >>= f).AtMost (m + n) := by
  induction p generalizing m with
  | ret a => exact (hf a).mono (Nat.le_add_left n m)
  | call op next ih =>
    cases m with
    | zero => exact hp.elim
    | succ m =>
      rw [Nat.succ_add]
      intro x
      exact ih x (hp x)

/-- One call before the rest. -/
theorem AtMost.perform_bind {op : S.Op} {f : S.Ans op → Prog S β} {n : ℕ} (hf : ∀ x, (f x).AtMost n) :
    (perform op >>= f).AtMost (n + 1) := hf

theorem atMost_perform (op : S.Op) (n : ℕ) : (perform op : Prog S (S.Ans op)).AtMost (n + 1) :=
  fun x => atMost_ret x n

theorem atMost_ite {c : Prop} [Decidable c] {p q : Prog S α} {n : ℕ} (hp : p.AtMost n) (hq : q.AtMost n) :
    (if c then p else q).AtMost n := by
  split
  · exact hp
  · exact hq

end Prog

end EffectProgram
