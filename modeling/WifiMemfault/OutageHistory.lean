import WifiMemfault.MemfaultCore
import Mathlib.Data.List.TakeWhile
import Mathlib.Data.List.Count

/-!
# Connects, losses and persists

`CoreRun` is the Memfault core with the history of its connectivity: each `WIFI_STA_CONNECTED`, each loss
message (`WIFI_STA_DISCONNECTED` or `NETWORK_NOT_READY`) and each start of `log_freeze_work_fn`, with its
time.  The history determines the pending work: `firstLoss` is the time of the first loss message since
the last connect or persist, and the work is due ten seconds later.
-/

namespace WifiMemfault.OutageHistory

open MemfaultCore

inductive MarkKind where
  | connected | loss | persist
  deriving DecidableEq, Repr

/-- What happened, and when. -/
structure Mark where
  time : ℕ
  kind : MarkKind
  deriving DecidableEq, Repr

/-- What a step adds to the history. -/
def markKind (c : Core) : CoreEvent → Option MarkKind
  | .wifiMsg .wifiStaConnected => some .connected
  | .wifiMsg .wifiStaDisconnected => some .loss
  | .networkMsg .networkNotReady => some .loss
  | .logFreezeWork => if c.logFreezeDue then some .persist else none
  | .wifiMsg .other | .networkMsg .networkReady | .elapse _ | .buttonMsg _ _ | .uploadThread _ => none

structure CoreRun where
  core : Core
  /-- Last mark first. -/
  history : List Mark
  deriving DecidableEq, Repr

def CoreRun.boot (now : ℕ) : CoreRun := ⟨Core.boot now, []⟩

def stepCoreRun (s : CoreRun) (e : CoreEvent) : CoreRun :=
  ⟨coreStep s.core e, ((markKind s.core e).map (Mark.mk s.core.now)).toList ++ s.history⟩

/-- There has been a `WIFI_STA_CONNECTED`. -/
def everConnected (history : List Mark) : Bool := history.any (·.kind = .connected)

/-- The time of the first loss message after the later of the last connect and the last persist. -/
def firstLoss (history : List Mark) : Option ℕ :=
  ((history.takeWhile (·.kind = .loss)).getLast?).map Mark.time

theorem firstLoss_loss (t : ℕ) (history : List Mark) :
    firstLoss (⟨t, .loss⟩ :: history) = some ((firstLoss history).getD t) := by
  rw [firstLoss, List.takeWhile_cons_of_pos (by simp), List.getLast?_cons, firstLoss]
  cases (history.takeWhile (·.kind = .loss)).getLast? with
  | none => rfl
  | some m => rfl

theorem firstLoss_other {m : Mark} (h : m.kind ≠ .loss) (history : List Mark) :
    firstLoss (m :: history) = none := by
  rw [firstLoss, List.takeWhile_cons_of_neg (by simpa using h)]
  rfl

/-- The first loss after a mark that is no loss stands between that mark and now. -/
theorem firstLoss_mem {mid older : List Mark} {q : Mark} {t : ℕ} (hq : q.kind ≠ .loss)
    (h : firstLoss (mid ++ q :: older) = some t) : ∃ m ∈ mid, m.kind = .loss ∧ m.time = t := by
  obtain ⟨m, hlast, htime⟩ := Option.map_eq_some_iff.mp h
  have htake : (mid ++ q :: older).takeWhile (·.kind = .loss) = mid.takeWhile (·.kind = .loss) := by
    rw [List.takeWhile_append]
    split
    · rw [List.takeWhile_cons_of_neg (by simpa using hq), List.append_nil]
      rename_i hall
      exact ((List.takeWhile_prefix _).eq_of_length hall).symm
    · rfl
  rw [htake] at hlast
  have hmem := List.mem_of_getLast? hlast
  refine ⟨m, (List.takeWhile_prefix _).subset hmem, ?_, htime⟩
  have hkind := List.mem_takeWhile_imp (p := fun m : Mark => decide (m.kind = .loss)) hmem
  exact of_decide_eq_true hkind

/-! ### What a step does to the guard and the work item -/

/-- The guard and the work item. -/
@[ext] structure LogFreeze where
  logFreezeScheduled : Bool
  networkEverConnected : Bool
  logFreezeWork : Option ℕ
  deriving DecidableEq, Repr

def logFreeze (c : Core) : LogFreeze :=
  ⟨c.logFreezeScheduled, c.networkEverConnected, c.logFreezeWork⟩

/-- The core after one event, by what the event adds to the history. -/
inductive FreezeStep (c : Core) (e : CoreEvent) : Option MarkKind → Core → Prop where
  | unmarked (c' : Core) (hfreeze : logFreeze c' = logFreeze c)
      (hnow : c'.now = c.now ∨ ∃ ms, e = .elapse ms ∧ c'.now = c.now + ms) :
      FreezeStep c e none c'
  | connected (c' : Core) (hfreeze : logFreeze c' = ⟨false, true, none⟩) (hnow : c'.now = c.now) :
      FreezeStep c e (some .connected) c'
  | loss (c' : Core) (hfreeze : logFreeze c' = logFreeze c) (hnow : c'.now = c.now) :
      FreezeStep c e (some .loss) c'.scheduleLogFreeze
  | persist (hdue : c.logFreezeDue = true) :
      FreezeStep c e (some .persist) { c with logFreezeScheduled := false, logFreezeWork := none }

/-- **One event.**  Both listeners do the same to the guard and the work item on a loss. -/
theorem coreStep_freezeStep (c : Core) (e : CoreEvent) :
    FreezeStep c e (markKind c e) (coreStep c e) := by
  cases e with
  | elapse ms => exact .unmarked _ rfl (Or.inr ⟨ms, rfl, rfl⟩)
  | wifiMsg type =>
    cases type with
    | wifiStaConnected => exact .connected _ rfl rfl
    | wifiStaDisconnected => exact .loss { c with wifiConnected := false } rfl rfl
    | other => exact .unmarked _ rfl (Or.inl rfl)
  | networkMsg type =>
    cases type with
    | networkReady => exact .unmarked _ rfl (Or.inl rfl)
    | networkNotReady => exact .loss c rfl rfl
  | buttonMsg n type =>
    obtain ⟨sem, hwrites⟩ := buttonListener_writes c n type
    show FreezeStep c _ none (memfaultButtonListener c n type)
    rw [hwrites]
    exact .unmarked _ rfl (Or.inl rfl)
  | logFreezeWork =>
    show FreezeStep c _ (if c.logFreezeDue then _ else _) (if c.logFreezeDue then _ else _)
    by_cases hdue : c.logFreezeDue = true
    · rw [if_pos hdue, if_pos hdue]
      exact .persist hdue
    · rw [if_neg hdue, if_neg hdue]
      exact .unmarked _ rfl (Or.inl rfl)
  | uploadThread res =>
    obtain ⟨sem, pc, hwrites⟩ := uploadThreadStep_writes c res
    show FreezeStep c _ none (uploadThreadStep c res)
    rw [hwrites]
    exact .unmarked _ rfl (Or.inl rfl)

/-! ### The history determines the work item -/

/-- The persists of a history: each has a connect before it, and comes ten seconds after the first loss
since the last connect or persist, or later. -/
def PersistsFollowLoss (history : List Mark) : Prop :=
  ∀ newer older p, history = newer ++ p :: older → p.kind = .persist →
    everConnected older = true ∧
      ∃ t, firstLoss older = some t ∧ t + kSeconds logFreezeDelaySec ≤ p.time

theorem persistsFollowLoss_cons {m : Mark} {history : List Mark} (h : PersistsFollowLoss history)
    (hm : m.kind = .persist → everConnected history = true ∧
      ∃ t, firstLoss history = some t ∧ t + kSeconds logFreezeDelaySec ≤ m.time) :
    PersistsFollowLoss (m :: history) := by
  intro newer older p hsplit hp
  cases newer with
  | nil =>
    cases hsplit
    exact hm hp
  | cons d newer =>
    cases hsplit
    exact h newer older p rfl hp

structure HistoryInv (s : CoreRun) : Prop where
  scheduled_eq : s.core.logFreezeScheduled = s.core.logFreezeWork.isSome
  ever_eq : s.core.networkEverConnected = everConnected s.history
  work_eq : s.core.logFreezeWork =
    if everConnected s.history then (firstLoss s.history).map (· + kSeconds logFreezeDelaySec)
    else none
  persists : PersistsFollowLoss s.history

/-- After a connect, the work is pending for the first loss. -/
theorem HistoryInv.work_of_firstLoss {s : CoreRun} {t : ℕ} (h : HistoryInv s)
    (hconnected : everConnected s.history = true) (hfirst : firstLoss s.history = some t) :
    s.core.logFreezeWork = some (t + kSeconds logFreezeDelaySec) := by
  rw [h.work_eq, if_pos hconnected, hfirst]
  rfl

theorem historyInv_boot (now : ℕ) : HistoryInv (CoreRun.boot now) := by
  refine ⟨rfl, rfl, rfl, ?_⟩
  intro newer older p hsplit
  cases newer with
  | nil => cases hsplit
  | cons d newer => cases hsplit

theorem everConnected_cons {m : Mark} (h : m.kind ≠ .connected) (history : List Mark) :
    everConnected (m :: history) = everConnected history := by
  rw [everConnected, List.any_cons, decide_eq_false h, Bool.false_or]
  rfl

/-- The invariant reads the guard and the work item only. -/
theorem historyInv_of_freeze {c c' : Core} {history : List Mark} (h : HistoryInv ⟨c, history⟩)
    (hfreeze : logFreeze c' = logFreeze c) : HistoryInv ⟨c', history⟩ := by
  obtain ⟨hscheduled, hever, hwork⟩ := LogFreeze.mk.inj hfreeze
  refine ⟨?_, hever.trans h.ever_eq, hwork.trans h.work_eq, h.persists⟩
  show c'.logFreezeScheduled = c'.logFreezeWork.isSome
  rw [hscheduled, hwork]
  exact h.scheduled_eq

/-- A loss message schedules the work if none is pending. -/
theorem historyInv_loss {c : Core} {history : List Mark} (h : HistoryInv ⟨c, history⟩) :
    HistoryInv ⟨c.scheduleLogFreeze, ⟨c.now, .loss⟩ :: history⟩ := by
  obtain ⟨hscheduled, hever, hwork, hpersists⟩ := h
  have hany : everConnected (⟨c.now, .loss⟩ :: history) = everConnected history :=
    everConnected_cons (by simp) history
  have hpersists' : PersistsFollowLoss (⟨c.now, .loss⟩ :: history) :=
    persistsFollowLoss_cons hpersists nofun
  by_cases hguard : c.networkEverConnected = true ∧ c.logFreezeScheduled = false
  · have hstep : c.scheduleLogFreeze =
        { c with
          logFreezeScheduled := true
          logFreezeWork := kWorkSchedule c.logFreezeWork (c.now + kSeconds logFreezeDelaySec) } :=
      if_pos hguard
    have hnone : c.logFreezeWork = none := by
      rw [← Option.isNone_iff_eq_none, ← Option.not_isSome, ← hscheduled, hguard.2]
      rfl
    have hconnected : everConnected history = true := hever.symm.trans hguard.1
    have hfirst : firstLoss history = none := by
      rw [hnone, if_pos hconnected] at hwork
      exact Option.map_eq_none_iff.mp hwork.symm
    rw [hstep]
    refine ⟨?_, hever.trans hany.symm, ?_, hpersists'⟩
    · show true = (kWorkSchedule c.logFreezeWork _).isSome
      rw [hnone]
      rfl
    · show kWorkSchedule c.logFreezeWork _ = _
      rw [hany, if_pos hconnected, firstLoss_loss, hfirst, hnone]
      rfl
  · have hstep : c.scheduleLogFreeze = c := if_neg hguard
    rw [hstep]
    refine ⟨hscheduled, hever.trans hany.symm, ?_, hpersists'⟩
    show c.logFreezeWork = _
    rw [hany, hwork]
    by_cases hconnected : everConnected history = true
    · -- connected before, so the guard says that the work is pending
      have hpending : c.logFreezeWork.isSome = true := by
        rw [← hscheduled]
        by_contra hfalse
        exact hguard ⟨hever.trans hconnected, Bool.not_eq_true _ ▸ hfalse⟩
      rw [hwork, if_pos hconnected, Option.isSome_map] at hpending
      obtain ⟨t, ht⟩ := Option.isSome_iff_exists.mp hpending
      rw [if_pos hconnected, if_pos hconnected, firstLoss_loss, ht]
      rfl
    · rw [if_neg hconnected, if_neg hconnected]

/-- Due work was pending: the history has a connect, and a loss since the last mark of another kind. -/
theorem HistoryInv.loss_of_due {s : CoreRun} (h : HistoryInv s) (hdue : s.core.logFreezeDue = true) :
    everConnected s.history = true ∧
      ∃ t, firstLoss s.history = some t ∧ t + kSeconds logFreezeDelaySec ≤ s.core.now := by
  rw [Core.logFreezeDue, h.work_eq] at hdue
  by_cases hconnected : everConnected s.history = true
  · rw [if_pos hconnected] at hdue
    cases hloss : firstLoss s.history with
    | none =>
      rw [hloss] at hdue
      cases hdue
    | some t =>
      rw [hloss] at hdue
      exact ⟨hconnected, t, rfl, of_decide_eq_true hdue⟩
  · rw [if_neg hconnected] at hdue
    cases hdue

theorem historyInv_step (s : CoreRun) (e : CoreEvent) (h : HistoryInv s) :
    HistoryInv (stepCoreRun s e) := by
  obtain ⟨c, history⟩ := s
  have hstep := coreStep_freezeStep c e
  rw [stepCoreRun]
  generalize markKind c e = kind, coreStep c e = c' at hstep ⊢
  cases hstep with
  | unmarked c' hfreeze hnow => exact historyInv_of_freeze h hfreeze
  | connected c' hfreeze hnow =>
    obtain ⟨hscheduled, hever, hwork⟩ := LogFreeze.mk.inj hfreeze
    have hconnected : everConnected (⟨c.now, .connected⟩ :: history) = true := rfl
    refine ⟨?_, hever, ?_, persistsFollowLoss_cons h.persists nofun⟩
    · show c'.logFreezeScheduled = c'.logFreezeWork.isSome
      rw [hscheduled, hwork]
      rfl
    · show c'.logFreezeWork = if everConnected (⟨c.now, .connected⟩ :: history) = true then _ else _
      rw [hwork, if_pos hconnected]
      show none = (firstLoss (⟨c.now, .connected⟩ :: history)).map _
      rw [firstLoss_other (by simp)]
      rfl
  | loss c₀ hfreeze hnow =>
    have hloss := historyInv_loss (historyInv_of_freeze h hfreeze)
    rw [hnow] at hloss
    exact hloss
  | persist hdue =>
    have hany : everConnected (⟨c.now, .persist⟩ :: history) = everConnected history :=
      everConnected_cons (by simp) history
    have hfirst : firstLoss (⟨c.now, .persist⟩ :: history) = none :=
      firstLoss_other (by simp) history
    refine ⟨rfl, h.ever_eq.trans hany.symm, ?_,
      persistsFollowLoss_cons h.persists fun _ => h.loss_of_due hdue⟩
    show none = if everConnected (⟨c.now, .persist⟩ :: history) = true then _ else _
    split
    · show none = (firstLoss (⟨c.now, .persist⟩ :: history)).map _
      rw [hfirst]
      rfl
    · rfl

theorem historyInv_run (now : ℕ) (es : List CoreEvent) :
    HistoryInv (Runs.run stepCoreRun (CoreRun.boot now) es) :=
  Runs.run_invariant_always historyInv_step es _ (historyInv_boot now)

end WifiMemfault.OutageHistory
