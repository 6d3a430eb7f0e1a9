import WifiMemfault.OtaServed
import Mathlib.Data.List.Perm.Subperm

/-!
# What a check of the OTA thread is for

The context that `consume_trigger_context` returns names the kinds of calls whose flags it has found, no more
and no fewer.  Each token of the semaphore is given by another call, so the calls start at most as many checks
as there are of them; every other check is periodic.
-/

namespace WifiMemfault.OtaChecks

open OtaTriggers OtaServed

/-! ### The context -/

/-- The text of the context has the trigger in it. -/
def names : TriggerContext → Trigger → Bool
  | .manual, _ => false
  | .buttonConnect, _ => true
  | .button, t => t = .button
  | .connect, t => t = .connect
  | .periodic, _ => false

variable {cfg : OtaConfig} {s : OtaSystem}

/-- The context names a trigger if and only if its flag is set. -/
theorem consumeTriggerContext_names (flags : UInt32) (t : Trigger)
    (hbuilt : flags &&& mfltOtaTriggersButtonFlag ≠ 0 → cfg.button = true) :
    names (consumeTriggerContext cfg flags) t = true ↔ flags &&& t.flag ≠ 0 := by
  have hflag : t.flag = mfltOtaTriggersButtonFlag ∨ t.flag = mfltOtaTriggersConnectFlag := by
    cases t with
    | button => exact Or.inl rfl
    | connect => exact Or.inr rfl
  by_cases hzero : flags = 0
  · simp [consumeTriggerContext, names, hzero]
  · by_cases hbutton : flags &&& mfltOtaTriggersButtonFlag = 0
    · by_cases hconnect : flags &&& mfltOtaTriggersConnectFlag = 0
      · rcases hflag with hflag | hflag
        · simp [consumeTriggerContext, names, hzero, hbutton, hconnect, hflag]
        · simp [consumeTriggerContext, names, hzero, hbutton, hconnect, hflag]
      · cases t with
        | button => simp [consumeTriggerContext, names, hzero, hbutton, hconnect, Trigger.flag]
        | connect => simp [consumeTriggerContext, names, hzero, hbutton, hconnect, Trigger.flag]
    · have hmodule := hbuilt hbutton
      by_cases hconnect : flags &&& mfltOtaTriggersConnectFlag = 0
      · cases t with
        | button => simp [consumeTriggerContext, names, hzero, hbutton, hconnect, hmodule, Trigger.flag]
        | connect => simp [consumeTriggerContext, names, hzero, hbutton, hconnect, hmodule, Trigger.flag]
      · cases t with
        | button => simp [consumeTriggerContext, names, hzero, hbutton, hconnect, hmodule, Trigger.flag]
        | connect => simp [consumeTriggerContext, names, hzero, hbutton, hconnect, hmodule, Trigger.flag]

/-- The exchange names the triggers of the calls it serves. -/
theorem exchange_names (h : OtaInv cfg s) (t : Trigger) :
    names (consumeTriggerContext cfg s.flags) t = true ↔ ∃ n ∈ s.pending, n.trigger = t := by
  rw [h.flags_eq, consumeTriggerContext_names _ t, flagsOf_and_flag]
  intro hset
  obtain ⟨n, hn, htrigger⟩ := (flagsOf_and_flag s.pending .button).mp hset
  rcases h.built n hn with hb | ht
  · exact hb
  · rw [htrigger] at ht
    cases ht

/-- A check without a token is periodic and serves nothing; any other names what it serves. -/
structure Named (c : OtaCheck) : Prop where
  periodic_iff : c.context = .periodic ↔ c.token = none
  serves_nothing : c.token = none → c.served = []
  names_iff : ∀ t, names c.context t = true ↔ ∃ n ∈ c.served, n.trigger = t

theorem named_exchange (h : OtaInv cfg s) (token : ℕ) :
    Named ⟨some token, consumeTriggerContext cfg s.flags, s.pending⟩ := by
  have hcontext : consumeTriggerContext cfg s.flags ≠ .periodic := by
    simp only [consumeTriggerContext]
    split
    · simp
    · split
      · simp
      · split
        · simp
        · split
          · simp
          · simp
  refine ⟨iff_of_false hcontext (by simp), ?_, exchange_names h⟩
  intro hnone
  cases hnone

theorem named_periodic : Named ⟨none, .periodic, []⟩ := by
  refine ⟨by simp, fun _ => rfl, fun t => ?_⟩
  simp [names]

/-! ### The tokens -/

/-- The calls that have given the token that is there, the one taken last, and those of the checks. -/
def tokens (s : OtaSystem) : List ℕ :=
  s.sem.toList ++ ((takenToken s.pc).toList ++ s.checks.filterMap OtaCheck.token)

/-- The check the thread is about to start, and those it has started. -/
def allChecks (s : OtaSystem) : List OtaCheck :=
  match s.pc with
  | .scheduleOtaCheck token context served => ⟨token, context, served⟩ :: s.checks
  | .semTake | .flagsGet _ | .connectSleep _ | .consume _ => s.checks

structure CheckInv (cfg : OtaConfig) (s : OtaSystem) : Prop where
  base : OtaInv cfg s
  named : ∀ c ∈ allChecks s, Named c
  nodup : (tokens s).Nodup
  /-- A call that has given a token has returned. -/
  given : ∀ id ∈ tokens s, s.calls[id]? = some .returned

theorem checkInv_boot (cfg : OtaConfig) : CheckInv cfg OtaSystem.boot :=
  ⟨otaInv_boot cfg, by simp [allChecks, OtaSystem.boot], by simp [tokens, OtaSystem.boot, takenToken],
    by simp [tokens, OtaSystem.boot, takenToken]⟩

theorem checkInv_notify (t : Trigger) (ht : cfg.button = true ∨ t = .connect) (h : CheckInv cfg s) :
    CheckInv cfg (s.notify t) := by
  refine ⟨inv_notify t ht h.base, h.named, h.nodup, fun id hid => ?_⟩
  have hgiven := h.given id hid
  have hlt : id < s.calls.length := (List.getElem?_eq_some_iff.mp hgiven).1
  show (s.calls ++ [.semCountGet])[id]? = some .returned
  rw [List.getElem?_append_left hlt]
  exact hgiven

/-- A call that is on its way has given no token. -/
theorem given_set {id : ℕ} {pc : NotifyPc} (h : CheckInv cfg s) (hcall : s.calls[id]? = some pc)
    (hpc : pc ≠ .returned) (pc' : NotifyPc) :
    id ∉ tokens s ∧ ∀ i ∈ tokens s, (s.calls.set id pc')[i]? = some .returned := by
  have hnot : id ∉ tokens s := by
    intro hid
    have hgiven := h.given id hid
    rw [hcall] at hgiven
    exact hpc (Option.some.inj hgiven)
  refine ⟨hnot, fun i hi => ?_⟩
  have hne : id ≠ i := by
    rintro rfl
    exact hnot hi
  rw [List.getElem?_set_ne hne]
  exact h.given i hi

theorem checkInv_thread (h : CheckInv cfg s) : CheckInv cfg (s.threadStep cfg) := by
  have hbase := inv_thread h.base
  obtain ⟨hinv, hnamed, hnodup, hgiven⟩ := h
  obtain ⟨flags, sem, pc, calls, pending, checks⟩ := s
  cases pc with
  | semTake =>
    cases sem with
    | none => exact ⟨hbase, hnamed, hnodup, hgiven⟩
    | some token => exact ⟨hbase, hnamed, hnodup, hgiven⟩
  | flagsGet token =>
    revert hbase
    simp only [OtaSystem.threadStep]
    split
    · exact fun hbase => ⟨hbase, hnamed, hnodup, hgiven⟩
    · exact fun hbase => ⟨hbase, hnamed, hnodup, hgiven⟩
  | connectSleep token => exact ⟨hbase, hnamed, hnodup, hgiven⟩
  | consume token =>
    refine ⟨hbase, ?_, hnodup, hgiven⟩
    intro c hc
    rcases List.mem_cons.mp hc with rfl | hc
    · exact named_exchange hinv token
    · exact hnamed c hc
  | scheduleOtaCheck token context ns =>
    -- the token goes from the thread to the check
    cases token with
    | none => exact ⟨hbase, hnamed, hnodup, hgiven⟩
    | some token => exact ⟨hbase, hnamed, hnodup, hgiven⟩

theorem checkInv_timeout (hpc : s.pc = .semTake) (h : CheckInv cfg s) :
    CheckInv cfg { s with pc := .scheduleOtaCheck none .periodic [] } := by
  obtain ⟨hinv, hnamed, hnodup, hgiven⟩ := h
  obtain ⟨flags, sem, pc, calls, pending, checks⟩ := s
  cases hpc
  refine ⟨inv_timeout rfl hinv, ?_, hnodup, hgiven⟩
  intro c hc
  rcases List.mem_cons.mp hc with rfl | hc
  · exact named_periodic
  · exact hnamed c hc

theorem checkInv_step (s : OtaSystem) (e : OtaEvent) (h : CheckInv cfg s) :
    CheckInv cfg (stepOta cfg s e) := by
  have hbase := inv_step s e h.base
  rcases step_cases cfg s e with hs | ⟨t, ht, hs⟩ | ⟨id, -, hcall, -, hs⟩ | ⟨id, -, hcall, -, hs⟩ |
    ⟨id, -, hcall, hs⟩ | ⟨-, hs⟩ | ⟨-, hpc, -, hs⟩
  · rw [hs]
    exact h
  · rw [hs]
    exact checkInv_notify t ht h
  · rw [hs] at hbase ⊢
    exact ⟨hbase, h.named, h.nodup, (given_set h hcall (by simp) _).2⟩
  · rw [hs] at hbase ⊢
    exact ⟨hbase, h.named, h.nodup, (given_set h hcall (by simp) _).2⟩
  · rw [hs] at hbase ⊢
    obtain ⟨hnot, hset⟩ := given_set h hcall (by simp) .returned
    obtain ⟨flags, sem, pc, calls, pending, checks⟩ := s
    cases sem with
    | some token => exact ⟨hbase, h.named, h.nodup, hset⟩
    | none =>
      refine ⟨hbase, h.named, List.nodup_cons.mpr ⟨hnot, h.nodup⟩, ?_⟩
      intro i hi
      rcases List.mem_cons.mp hi with rfl | hi
      · exact List.getElem?_set_self (List.getElem?_eq_some_iff.mp hcall).1
      · exact hset i hi
  · rw [hs]
    exact checkInv_thread h
  · rw [hs]
    exact checkInv_timeout hpc h

theorem checkInv_run (cfg : OtaConfig) (es : List OtaEvent) :
    CheckInv cfg (Runs.run (stepOta cfg) OtaSystem.boot es) :=
  Runs.run_invariant_always checkInv_step es _ (checkInv_boot cfg)

theorem mem_allChecks {c : OtaCheck} (hc : c ∈ s.checks) : c ∈ allChecks s := by
  rw [allChecks]
  split
  · exact List.mem_cons_of_mem _ hc
  · exact hc
  · exact hc
  · exact hc
  · exact hc

/-- **The checks are accounted for.**  In every run, a check that has not waited for the whole interval has
its token from a call of its own, so there are at most as many of them as calls; its context names exactly
the triggers of the calls it serves; and no call is served twice. -/
theorem checks_accounted (cfg : OtaConfig) (es : List OtaEvent) :
    let s := Runs.run (stepOta cfg) OtaSystem.boot es
    (∀ c ∈ s.checks, Named c) ∧
      (s.checks.filterMap OtaCheck.token).Nodup ∧
      (s.checks.filterMap OtaCheck.token).length ≤ s.calls.length ∧
      ((served s.checks).map Notification.id).Nodup := by
  intro s
  have h : CheckInv cfg s := checkInv_run cfg es
  have htokens : (s.checks.filterMap OtaCheck.token).Nodup :=
    (List.nodup_append.mp (List.nodup_append.mp h.nodup).2.1).2.1
  refine ⟨fun c hc => h.named c (mem_allChecks hc), htokens, ?_, ?_⟩
  · have hcalls : s.checks.filterMap OtaCheck.token ⊆ List.range s.calls.length := by
      intro id hid
      have hgiven := h.given id (List.mem_append_right _ (List.mem_append_right _ hid))
      exact List.mem_range.mpr (List.getElem?_eq_some_iff.mp hgiven).1
    have hle := (htokens.subperm hcalls).length_le
    rwa [List.length_range] at hle
  · have haccounted : (accounted s).Nodup := by
      rw [h.base.accounted_eq]
      exact List.nodup_reverse.mpr List.nodup_range
    rw [accounted, List.map_append, List.map_append] at haccounted
    exact (List.nodup_append.mp (List.nodup_append.mp haccounted).2.1).2.1

end WifiMemfault.OtaChecks
