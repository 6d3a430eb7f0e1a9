import WifiMemfault.OtaTriggers
import Mathlib.Data.List.Nodup
import Mathlib.Data.UInt

/-!
# Which check serves which notification

The flags are those of the pending notifications, and every notification is in one of three places: it is
pending, the thread has exchanged it for the check it is about to start, or a check that has started has
it.  The invariant `OtaInv` says this with the wake-up: once the call of a pending notification has
returned, there is a token, or the thread has taken one and has not exchanged the flags yet.
-/

namespace WifiMemfault.OtaServed

open OtaTriggers

/-! ### The flags of a list of notifications -/

def flagsOf : List Notification → UInt32
  | [] => 0
  | n :: ns => flagsOf ns ||| n.trigger.flag

theorem flag_ne_zero (t : Trigger) : t.flag ≠ 0 := by
  cases t with
  | button => decide
  | connect => decide

theorem flagsOf_eq_zero_iff (ns : List Notification) : flagsOf ns = 0 ↔ ns = [] := by
  cases ns with
  | nil => exact ⟨fun _ => rfl, fun _ => rfl⟩
  | cons n ns =>
    rw [flagsOf, UInt32.or_eq_zero_iff]
    exact ⟨fun h => absurd h.2 (flag_ne_zero n.trigger), nofun⟩

theorem and_flag_eq_zero (t u : Trigger) : u.flag &&& t.flag = 0 ↔ u ≠ t := by
  cases t with
  | button =>
    cases u with
    | button => decide
    | connect => decide
  | connect =>
    cases u with
    | button => decide
    | connect => decide

theorem or_and_flag (a b c : UInt32) : (a ||| b) &&& c = a &&& c ||| b &&& c := by
  apply UInt32.toBitVec_inj.mp
  simp only [UInt32.toBitVec_and, UInt32.toBitVec_or]
  exact BitVec.and_or_distrib_right

/-- A flag is set if and only if one of the notifications has set it. -/
theorem flagsOf_and_flag (ns : List Notification) (t : Trigger) :
    flagsOf ns &&& t.flag ≠ 0 ↔ ∃ n ∈ ns, n.trigger = t := by
  induction ns with
  | nil => simp [flagsOf]
  | cons n ns ih =>
    rw [flagsOf, or_and_flag, ne_eq, UInt32.or_eq_zero_iff, and_flag_eq_zero, not_and_or, not_not,
      ← ne_eq, ih, List.exists_mem_cons_iff, or_comm]

variable {cfg : OtaConfig}

/-- **The context says manual only if nothing was pending.** -/
theorem consumeTriggerContext_manual_iff (ns : List Notification)
    (hbuilt : ∀ n ∈ ns, cfg.button = true ∨ n.trigger = .connect) :
    consumeTriggerContext cfg (flagsOf ns) = .manual ↔ ns = [] := by
  rw [← flagsOf_eq_zero_iff]
  constructor
  · intro h
    by_contra hne
    obtain ⟨n, hn⟩ := List.exists_mem_of_ne_nil ns (mt (flagsOf_eq_zero_iff ns).mpr hne)
    have hset : flagsOf ns &&& n.trigger.flag ≠ 0 := (flagsOf_and_flag ns _).mpr ⟨n, hn, rfl⟩
    have hb := hbuilt n hn
    rw [consumeTriggerContext, if_neg hne] at h
    cases ht : n.trigger with
    | button =>
      rw [ht] at hset hb
      have hbutton : cfg.button = true ∧ flagsOf ns &&& mfltOtaTriggersButtonFlag ≠ 0 :=
        ⟨hb.resolve_right nofun, hset⟩
      rw [if_pos hbutton] at h
      split at h
      · cases h
      · cases h
    | connect =>
      rw [ht] at hset
      have hconnect : flagsOf ns &&& mfltOtaTriggersConnectFlag ≠ 0 := hset
      rw [if_pos hconnect] at h
      split at h
      · cases h
      · split at h
        · cases h
        · cases h
  · intro h
    rw [consumeTriggerContext, if_pos h]

/-! ### Where a notification is -/

/-- The thread is between a successful take and its exchange of the flags. -/
def window : OtaPc → Bool
  | .flagsGet _ | .connectSleep _ | .consume _ => true
  | .semTake | .scheduleOtaCheck _ _ _ => false

/-- The notifications the thread has exchanged for the check it is about to start. -/
def exchanged : OtaPc → List Notification
  | .scheduleOtaCheck _ _ served => served
  | .semTake | .flagsGet _ | .connectSleep _ | .consume _ => []

/-- The call that gave the token the thread has taken. -/
def takenToken : OtaPc → Option ℕ
  | .flagsGet token | .connectSleep token | .consume token => some token
  | .scheduleOtaCheck token _ _ => token
  | .semTake => none

/-- The notifications of the started checks, last one first. -/
def served (checks : List OtaCheck) : List Notification := checks.flatMap OtaCheck.served

/-- Every notification, wherever it is. -/
def accounted (s : OtaSystem) : List ℕ :=
  (s.pending ++ (exchanged s.pc ++ served s.checks)).map Notification.id

/-- The call of `n` has returned. -/
def Returned (s : OtaSystem) (n : Notification) : Prop := s.calls[n.id]? = some .returned

instance (s : OtaSystem) (n : Notification) : Decidable (Returned s n) :=
  inferInstanceAs (Decidable (_ = _))

structure OtaInv (cfg : OtaConfig) (s : OtaSystem) : Prop where
  flags_eq : s.flags = flagsOf s.pending
  built : ∀ n ∈ s.pending, cfg.button = true ∨ n.trigger = .connect
  accounted_eq : accounted s = (List.range s.calls.length).reverse
  sem_lt : ∀ id, s.sem = some id → id < s.calls.length
  taken_lt : ∀ id, takenToken s.pc = some id → id < s.calls.length
  awaited : ∀ n ∈ s.pending, Returned s n → s.sem ≠ none ∨ window s.pc = true

theorem otaInv_boot (cfg : OtaConfig) : OtaInv cfg OtaSystem.boot :=
  ⟨rfl, nofun, rfl, nofun, nofun, nofun⟩

variable {s : OtaSystem}

/-- A pending notification is one of the calls. -/
theorem OtaInv.pending_lt (h : OtaInv cfg s) {n : Notification} (hn : n ∈ s.pending) :
    n.id < s.calls.length := by
  have hmem : n.id ∈ accounted s := List.mem_map_of_mem (List.mem_append_left _ hn)
  rw [h.accounted_eq, List.mem_reverse, List.mem_range] at hmem
  exact hmem

/-- No started check has served a pending notification. -/
theorem OtaInv.pending_unserved (h : OtaInv cfg s) {n : Notification} (hn : n ∈ s.pending)
    {c : OtaCheck} (hc : c ∈ s.checks) : n ∉ c.served := by
  intro hserved
  have hnodup : (accounted s).Nodup := by
    rw [h.accounted_eq]
    exact List.nodup_reverse.mpr List.nodup_range
  rw [accounted, List.map_append] at hnodup
  refine List.disjoint_of_nodup_append hnodup (List.mem_map_of_mem hn) (List.mem_map_of_mem ?_)
  exact List.mem_append_right _ (List.mem_flatMap.mpr ⟨c, hc, hserved⟩)

/-! ### One step -/

theorem returned_set {id : ℕ} {pc : NotifyPc} {n : Notification} (hpc : pc ≠ .returned)
    (h : (s.calls.set id pc)[n.id]? = some .returned) : Returned s n := by
  rw [List.getElem?_set] at h
  split at h
  · split at h
    · exact absurd (Option.some.inj h) hpc
    · cases h
  · exact h

theorem inv_notify (t : Trigger) (ht : cfg.button = true ∨ t = .connect) (h : OtaInv cfg s) :
    OtaInv cfg (s.notify t) := by
  have hlen : (s.notify t).calls.length = s.calls.length + 1 := List.length_append
  refine ⟨?_, ?_, ?_, ?_, ?_, ?_⟩
  · show s.flags ||| t.flag = flagsOf s.pending ||| t.flag
    rw [h.flags_eq]
  · intro n hn
    rcases List.mem_cons.mp hn with rfl | hn
    · exact ht
    · exact h.built n hn
  · rw [hlen, List.range_succ, List.reverse_append]
    show s.calls.length :: accounted s = _
    rw [h.accounted_eq]
    rfl
  · intro id hid
    rw [hlen]
    exact Nat.lt_succ_of_lt (h.sem_lt id hid)
  · intro id hid
    rw [hlen]
    exact Nat.lt_succ_of_lt (h.taken_lt id hid)
  · intro n hn hret
    have hret' : (s.calls ++ [.semCountGet])[n.id]? = some .returned := hret
    rcases List.mem_cons.mp hn with rfl | hn
    · -- the new call has not returned
      rw [List.getElem?_append_right le_rfl, Nat.sub_self] at hret'
      cases hret'
    · rw [List.getElem?_append_left (h.pending_lt hn)] at hret'
      exact h.awaited n hn hret'

theorem inv_semGive_next (id : ℕ) (h : OtaInv cfg s) :
    OtaInv cfg { s with calls := s.calls.set id .semGive } := by
  have hlen : (s.calls.set id .semGive).length = s.calls.length := List.length_set
  refine ⟨h.flags_eq, h.built, ?_, ?_, ?_, ?_⟩
  · rw [hlen]
    exact h.accounted_eq
  · rw [hlen]
    exact h.sem_lt
  · rw [hlen]
    exact h.taken_lt
  · intro n hn hret
    exact h.awaited n hn (returned_set (by decide) hret)

/-- A call may return when there is a token. -/
theorem inv_returned (id : ℕ) (sem : Option ℕ) (hsem : sem ≠ none)
    (hlt : ∀ i, sem = some i → i < s.calls.length) (h : OtaInv cfg s) :
    OtaInv cfg { s with sem := sem, calls := s.calls.set id .returned } := by
  have hlen : (s.calls.set id .returned).length = s.calls.length := List.length_set
  refine ⟨h.flags_eq, h.built, ?_, ?_, ?_, fun _ _ _ => Or.inl hsem⟩
  · rw [hlen]
    exact h.accounted_eq
  · rw [hlen]
    exact hlt
  · rw [hlen]
    exact h.taken_lt

theorem inv_thread (h : OtaInv cfg s) : OtaInv cfg (s.threadStep cfg) := by
  obtain ⟨flags, sem, pc, calls, pending, checks⟩ := s
  cases pc with
  | semTake =>
    cases sem with
    | none => exact h
    | some token =>
      refine ⟨h.flags_eq, h.built, h.accounted_eq, nofun, ?_, fun _ _ _ => Or.inr rfl⟩
      intro id hid
      exact h.sem_lt id hid
  | flagsGet token =>
    show OtaInv cfg ⟨flags, sem, if _ then _ else _, calls, pending, checks⟩
    split
    · exact ⟨h.flags_eq, h.built, h.accounted_eq, h.sem_lt, h.taken_lt, fun _ _ _ => Or.inr rfl⟩
    · exact ⟨h.flags_eq, h.built, h.accounted_eq, h.sem_lt, h.taken_lt, fun _ _ _ => Or.inr rfl⟩
  | connectSleep token =>
    exact ⟨h.flags_eq, h.built, h.accounted_eq, h.sem_lt, h.taken_lt, fun _ _ _ => Or.inr rfl⟩
  | consume token =>
    refine ⟨rfl, nofun, ?_, h.sem_lt, h.taken_lt, nofun⟩
    -- what was pending is now exchanged
    exact h.accounted_eq
  | scheduleOtaCheck token context ns =>
    refine ⟨h.flags_eq, h.built, ?_, h.sem_lt, nofun, h.awaited⟩
    exact h.accounted_eq

theorem inv_timeout (hpc : s.pc = .semTake) (h : OtaInv cfg s) :
    OtaInv cfg { s with pc := .scheduleOtaCheck none .periodic [] } := by
  refine ⟨h.flags_eq, h.built, ?_, h.sem_lt, nofun, ?_⟩
  · have haccounted := h.accounted_eq
    rw [accounted, hpc] at haccounted
    exact haccounted
  · intro n hn hret
    have hwait := h.awaited n hn hret
    rw [hpc] at hwait
    exact hwait

theorem inv_step (s : OtaSystem) (e : OtaEvent) (h : OtaInv cfg s) : OtaInv cfg (stepOta cfg s e) := by
  rcases step_cases cfg s e with hs | ⟨t, ht, hs⟩ | ⟨id, -, -, -, hs⟩ | ⟨id, -, -, hsem, hs⟩ |
    ⟨id, -, hcall, hs⟩ | ⟨-, hs⟩ | ⟨-, hpc, -, hs⟩
  · rw [hs]
    exact h
  · rw [hs]
    exact inv_notify t ht h
  · rw [hs]
    exact inv_semGive_next id h
  · rw [hs]
    exact inv_returned id s.sem hsem h.sem_lt h
  · rw [hs]
    have hid : id < s.calls.length := (List.getElem?_eq_some_iff.mp hcall).1
    refine inv_returned id (s.sem <|> some id) ?_ ?_ h
    · cases s.sem with
      | none => exact Option.some_ne_none id
      | some j => exact Option.some_ne_none j
    · intro i hi
      cases hsem : s.sem with
      | none =>
        rw [hsem] at hi
        cases hi
        exact hid
      | some j =>
        rw [hsem] at hi
        rw [← Option.some.inj hi]
        exact h.sem_lt j hsem
  · rw [hs]
    exact inv_thread h
  · rw [hs]
    exact inv_timeout hpc h

theorem otaInv_run (cfg : OtaConfig) (es : List OtaEvent) :
    OtaInv cfg (Runs.run (stepOta cfg) OtaSystem.boot es) :=
  Runs.run_invariant_always inv_step es _ (otaInv_boot cfg)

end WifiMemfault.OtaServed
