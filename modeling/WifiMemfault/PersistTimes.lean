import WifiMemfault.OutageHistory

/-!
# When a persist starts

The workqueue runs an expired item at its due time, so time does not pass the due time of a pending item.
Under this rule a persist starts exactly ten seconds after the first loss message since the last connect
or persist, and time does not get further before it has, unless a connect comes first.
-/

namespace WifiMemfault.PersistTimes

open MemfaultCore OutageHistory

/-- Time would pass the due time of the pending work. -/
def passesDue (c : Core) (ms : ℕ) : Bool :=
  match c.logFreezeWork with
  | some due => due < c.now + ms
  | none => false

/-- One event, with a workqueue that is on time. -/
def stepOnTime (s : CoreRun) : CoreEvent → CoreRun
  | .elapse ms => if passesDue s.core ms then s else stepCoreRun s (.elapse ms)
  | e => stepCoreRun s e

theorem stepOnTime_cases (s : CoreRun) (e : CoreEvent) :
    stepOnTime s e = s ∨
      (stepOnTime s e = stepCoreRun s e ∧ ∀ ms, e = .elapse ms → passesDue s.core ms = false) := by
  cases e with
  | elapse ms =>
    cases hpass : passesDue s.core ms with
    | true => exact Or.inl (if_pos hpass)
    | false =>
      refine Or.inr ⟨if_neg (by rw [hpass]; decide), ?_⟩
      intro ms' heq
      cases heq
      exact hpass
  | wifiMsg type => exact Or.inr ⟨rfl, nofun⟩
  | networkMsg type => exact Or.inr ⟨rfl, nofun⟩
  | buttonMsg n type => exact Or.inr ⟨rfl, nofun⟩
  | logFreezeWork => exact Or.inr ⟨rfl, nofun⟩
  | uploadThread res => exact Or.inr ⟨rfl, nofun⟩

/-- What the history says of the work, and that it is not overdue. -/
structure OnTimeInv (s : CoreRun) : Prop where
  base : HistoryInv s
  onTime : ∀ t, everConnected s.history = true → firstLoss s.history = some t →
    s.core.now ≤ t + kSeconds logFreezeDelaySec

theorem onTimeInv_boot (now : ℕ) : OnTimeInv (CoreRun.boot now) :=
  ⟨historyInv_boot now, nofun⟩

theorem onTimeInv_step (s : CoreRun) (e : CoreEvent) (h : OnTimeInv s) : OnTimeInv (stepOnTime s e) := by
  rcases stepOnTime_cases s e with hs | ⟨hs, hpass⟩
  · rw [hs]
    exact h
  rw [hs]
  refine ⟨historyInv_step s e h.base, ?_⟩
  intro t hconnected hfirst
  obtain ⟨c, history⟩ := s
  have hstep := coreStep_freezeStep c e
  rw [stepCoreRun] at hconnected hfirst ⊢
  generalize markKind c e = kind, coreStep c e = c' at hstep hconnected hfirst ⊢
  cases hstep with
  | unmarked c' hfreeze hnow =>
    rcases hnow with hnow | ⟨ms, rfl, hnow⟩
    · show c'.now ≤ _
      rw [hnow]
      exact h.onTime t hconnected hfirst
    · have hdue := hpass ms rfl
      rw [passesDue, h.base.work_of_firstLoss hconnected hfirst] at hdue
      show c'.now ≤ _
      rw [hnow]
      exact Nat.le_of_not_lt (of_decide_eq_false hdue)
  | connected c' hfreeze hnow =>
    have hnone : firstLoss (⟨c.now, .connected⟩ :: history) = none := firstLoss_other (by simp) history
    cases hnone.symm.trans hfirst
  | persist hdue =>
    have hnone : firstLoss (⟨c.now, .persist⟩ :: history) = none := firstLoss_other (by simp) history
    cases hnone.symm.trans hfirst
  | loss c₀ hfreeze hnow =>
    have hconnected' : everConnected history = true :=
      (everConnected_cons (by simp) history).symm.trans hconnected
    have hfirst' : some ((firstLoss history).getD c.now) = some t :=
      (firstLoss_loss c.now history).symm.trans hfirst
    have hsame : c₀.scheduleLogFreeze.now = c.now := by
      obtain ⟨scheduled, work, hwrites⟩ := scheduleLogFreeze_writes c₀
      rw [hwrites]
      exact hnow
    show c₀.scheduleLogFreeze.now ≤ _
    rw [hsame]
    cases hold : firstLoss history with
    | none =>
      rw [hold] at hfirst'
      cases hfirst'
      exact Nat.le_add_right _ _
    | some t' =>
      rw [hold] at hfirst'
      cases hfirst'
      exact h.onTime t' hconnected' hold

/-! ### What follows the first loss -/

theorem firstLoss_append {t : ℕ} (losses history : List Mark) (hlosses : ∀ m ∈ losses, m.kind = .loss)
    (h : firstLoss history = some t) : firstLoss (losses ++ history) = some t := by
  induction losses with
  | nil => exact h
  | cons m losses ih =>
    obtain ⟨time, kind⟩ := m
    have hkind : kind = .loss := hlosses _ List.mem_cons_self
    subst hkind
    rw [List.cons_append, firstLoss_loss, ih fun m hm => hlosses m (List.mem_cons_of_mem _ hm)]
    rfl

/-- After the first loss at `t` come only losses, and it is not later than its due time; or the first
other mark is the persist at the due time, or a connect that is not later. -/
inductive FollowedUp (t : ℕ) (history : List Mark) (s : CoreRun) : Prop where
  | waiting (losses : List Mark) (hlosses : ∀ m ∈ losses, m.kind = .loss)
      (h : s.history = losses ++ history) (hnow : s.core.now ≤ t + kSeconds logFreezeDelaySec)
  | ended (newer losses : List Mark) (m : Mark) (hlosses : ∀ m ∈ losses, m.kind = .loss)
      (h : s.history = newer ++ m :: (losses ++ history))
      (hm : m = ⟨t + kSeconds logFreezeDelaySec, .persist⟩ ∨
        (m.kind = .connected ∧ m.time ≤ t + kSeconds logFreezeDelaySec))

theorem followedUp_step {t : ℕ} {history : List Mark} (hconnected : everConnected history = true)
    (hfirst : firstLoss history = some t) (s : CoreRun) (e : CoreEvent) (hinv : OnTimeInv s)
    (h : FollowedUp t history s) : FollowedUp t history (stepOnTime s e) := by
  have hnext := onTimeInv_step s e hinv
  rcases stepOnTime_cases s e with hs | ⟨hs, -⟩
  · rw [hs]
    exact h
  rw [hs] at hnext ⊢
  cases h with
  | ended newer losses m hlosses hhistory hm =>
    -- a step only adds to the history
    refine .ended (((markKind s.core e).map (Mark.mk s.core.now)).toList ++ newer) losses m hlosses ?_ hm
    rw [List.append_assoc, ← hhistory]
    rfl
  | waiting losses hlosses hhistory hnow =>
    have hconnected' : everConnected s.history = true := by
      rw [hhistory, everConnected, List.any_append, Bool.or_eq_true]
      exact Or.inr hconnected
    have hfirst' : firstLoss s.history = some t := by
      rw [hhistory]
      exact firstLoss_append losses history hlosses hfirst
    obtain ⟨c, history'⟩ := s
    have hhistory' : history' = losses ++ history := hhistory
    have hstep := coreStep_freezeStep c e
    rw [stepCoreRun] at hnext ⊢
    generalize markKind c e = kind, coreStep c e = c' at hstep hnext ⊢
    cases hstep with
    | unmarked c' hfreeze hnow' =>
      exact .waiting losses hlosses hhistory (hnext.onTime t hconnected' hfirst')
    | loss c₀ hfreeze hnow' =>
      have hfirst'' : firstLoss (⟨c.now, .loss⟩ :: history') = some t := by
        rw [firstLoss_loss, show firstLoss history' = some t from hfirst']
        rfl
      refine .waiting (⟨c.now, .loss⟩ :: losses) ?_ ?_ (hnext.onTime t ?_ hfirst'')
      · intro m hm
        rcases List.mem_cons.mp hm with rfl | hm
        · rfl
        · exact hlosses m hm
      · exact congrArg (⟨c.now, .loss⟩ :: ·) hhistory'
      · exact (everConnected_cons (by simp) history').trans hconnected'
    | connected c' hfreeze hnow' =>
      refine .ended [] losses ⟨c.now, .connected⟩ hlosses ?_ (Or.inr ⟨rfl, hnow⟩)
      exact congrArg (⟨c.now, .connected⟩ :: ·) hhistory'
    | persist hdue =>
      obtain ⟨-, t', hloss, hle⟩ := hinv.base.loss_of_due hdue
      cases hfirst'.symm.trans hloss
      have hnow' : c.now = t + kSeconds logFreezeDelaySec := Nat.le_antisymm hnow hle
      refine .ended [] losses ⟨c.now, .persist⟩ hlosses ?_ (Or.inl ?_)
      · exact congrArg (⟨c.now, .persist⟩ :: ·) hhistory'
      · rw [hnow']

/-- The work is due if and only if the first loss was exactly ten seconds ago. -/
theorem persistStarts_iff {s : CoreRun} (h : OnTimeInv s) (e : CoreEvent) :
    persistStarts s.core e = true ↔ e = .logFreezeWork ∧ everConnected s.history = true ∧
      ∃ t, firstLoss s.history = some t ∧ s.core.now = t + kSeconds logFreezeDelaySec := by
  rw [persistStarts, decide_eq_true_iff]
  refine and_congr_right fun _ => ?_
  constructor
  · intro hdue
    obtain ⟨hconnected, t, hfirst, hle⟩ := h.base.loss_of_due hdue
    exact ⟨hconnected, t, hfirst, Nat.le_antisymm (h.onTime t hconnected hfirst) hle⟩
  · rintro ⟨hconnected, t, hfirst, hnow⟩
    rw [Core.logFreezeDue, h.base.work_of_firstLoss hconnected hfirst, hnow]
    exact decide_eq_true (Nat.le_refl _)

/-- **The persist times.**  After any run the guard is set if and only if the work is pending.  A persist
starts if and only if it is the workqueue's turn, the device has been connected, and the first loss since
the last connect or persist was exactly ten seconds ago.  And the turn comes: whatever happens after that
loss, time does not pass the ten seconds before the persist has started or the device has connected. -/
theorem persist_times (now : ℕ) (es : List CoreEvent) :
    let s := Runs.run stepOnTime (CoreRun.boot now) es
    (s.core.logFreezeScheduled = true ↔ s.core.logFreezeWork ≠ none) ∧
    (∀ e, persistStarts s.core e = true ↔ e = .logFreezeWork ∧ everConnected s.history = true ∧
      ∃ t, firstLoss s.history = some t ∧ s.core.now = t + kSeconds logFreezeDelaySec) ∧
    ∀ t, everConnected s.history = true → firstLoss s.history = some t →
      ∀ fs, FollowedUp t s.history (Runs.run stepOnTime s fs) := by
  intro s
  have hinv : OnTimeInv s := Runs.run_invariant_always onTimeInv_step es _ (onTimeInv_boot now)
  refine ⟨?_, persistStarts_iff hinv, ?_⟩
  · rw [hinv.base.scheduled_eq, Option.isSome_iff_ne_none]
  · intro t hconnected hfirst fs
    have hstep : ∀ s' e, (OnTimeInv s' ∧ FollowedUp t s.history s') →
        (OnTimeInv (stepOnTime s' e) ∧ FollowedUp t s.history (stepOnTime s' e)) := by
      rintro s' e ⟨hinv', hfollowed⟩
      exact ⟨onTimeInv_step s' e hinv', followedUp_step hconnected hfirst s' e hinv' hfollowed⟩
    have hstart : FollowedUp t s.history s :=
      .waiting [] nofun rfl (hinv.onTime t hconnected hfirst)
    exact (Runs.run_invariant_always hstep fs s ⟨hinv, hstart⟩).2

/-- A burst of two losses, five seconds apart, is persisted ten seconds after the first. -/
theorem persist_times_burst :
    persistStarts (Runs.run stepOnTime (CoreRun.boot 0)
      [.wifiMsg .wifiStaConnected, .elapse 1000, .wifiMsg .wifiStaDisconnected, .elapse 5000,
        .networkMsg .networkNotReady, .elapse 5000]).core .logFreezeWork = true :=
  ((persist_times 0 [.wifiMsg .wifiStaConnected, .elapse 1000, .wifiMsg .wifiStaDisconnected,
    .elapse 5000, .networkMsg .networkNotReady, .elapse 5000]).2.1 .logFreezeWork).mpr
    ⟨rfl, by decide, 1000, by decide, by decide⟩

end WifiMemfault.PersistTimes
