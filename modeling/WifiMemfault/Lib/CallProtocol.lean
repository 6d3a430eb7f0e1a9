import WifiMemfault.Lib.Interference

/-!
# Protocols of calls

A protocol says which calls are allowed in a state of the other side, and what the answer to a call makes of
that state.  A program *obeys* it if each of its calls is allowed in the state that the calls before it have
led to, whatever they were answered.  This speaks about the program alone: nothing is said about what its
calls do to a world, nor who else changes that world between them.
-/

namespace EffectProgram

variable {S : Signature} {π α β : Type}

structure Protocol (S : Signature) (π : Type) where
  Allowed : π → S.Op → Prop
  after : π → (op : S.Op) → S.Ans op → π

/-- Every call is allowed where it is made, and `Q` holds where the program returns. -/
def Prog.Obeys (proto : Protocol S π) (Q : α → π → Prop) : Prog S α → π → Prop
  | .ret a, w => Q a w
  | .call op next, w => proto.Allowed w op ∧ ∀ x, (next x).Obeys proto Q (proto.after w op x)

namespace Prog

variable {proto : Protocol S π} {Q Q' : α → π → Prop} {w : π}

theorem Obeys.mono {p : Prog S α} (h : p.Obeys proto Q w) (hQ : ∀ a w, Q a w → Q' a w) :
    p.Obeys proto Q' w := by
  induction p generalizing w with
  | ret a => exact hQ a w h
  | call op next ih =>
    obtain ⟨hallowed, hnext⟩ := h
    exact ⟨hallowed, fun x => ih x (hnext x)⟩

theorem Obeys.bind {R : β → π → Prop} {p : Prog S β} {f : β → Prog S α} (hp : p.Obeys proto R w)
    (hf : ∀ b w', R b w' → (f b).Obeys proto Q w') : (p >>= f).Obeys proto Q w := by
  induction p generalizing w with
  | ret b => exact hf b w hp
  | call op next ih =>
    obtain ⟨hallowed, hnext⟩ := hp
    exact ⟨hallowed, fun x => ih x (hnext x)⟩

/-- One call before the rest. -/
theorem obeys_perform {op : S.Op} {f : S.Ans op → Prog S α} (hallowed : proto.Allowed w op)
    (hf : ∀ x, (f x).Obeys proto Q (proto.after w op x)) : (perform op >>= f).Obeys proto Q w :=
  ⟨hallowed, hf⟩

/-- A call at the end. -/
theorem obeys_perform_last {op : S.Op} {Q : S.Ans op → π → Prop} (hallowed : proto.Allowed w op)
    (hQ : ∀ x, Q x (proto.after w op x)) : (perform op : Prog S (S.Ans op)).Obeys proto Q w :=
  ⟨hallowed, hQ⟩

theorem obeys_ite {c : Prop} [Decidable c] {p q : Prog S α} (hp : c → p.Obeys proto Q w)
    (hq : ¬ c → q.Obeys proto Q w) : (if c then p else q).Obeys proto Q w := by
  split
  · rename_i h
    exact hp h
  · rename_i h
    exact hq h

/-- Calls the protocol takes no notice of. -/
theorem obeys_of_calls {P : S.Op → Prop} (hallowed : ∀ w op, P op → proto.Allowed w op)
    (hafter : ∀ w op x, P op → proto.after w op x = w) {p : Prog S α} (hp : p.Calls P) :
    p.Obeys proto (fun _ w' => w' = w) w := by
  induction p with
  | ret a => exact rfl
  | call op next ih =>
    obtain ⟨hop, hnext⟩ := hp
    refine ⟨hallowed w op hop, fun x => ?_⟩
    rw [hafter w op x hop]
    exact ih x (hnext x)

end Prog

end EffectProgram
