import WifiMemfault.OtaServed

/-!
# OTA checks without a notification

A call that sets its flag while the thread is between its take and its exchange may find the semaphore
empty and give it again.  The exchange then serves the call, and the token it has left makes the thread
start another check, for which `consume_trigger_context` has the context `"manual"`.  `StartedFor` says
that there is no other way to such a check.
-/

namespace WifiMemfault.OtaManualCheck

open OtaTriggers OtaServed

/-- What a check owes to the checks before it: it serves only notifications they have not, it says
manual if it serves none, and then the call that gave its token is one they have served. -/
structure StartedFor (c : OtaCheck) (older : List OtaCheck) : Prop where
  fresh : ∀ n ∈ c.served, ∀ d ∈ older, n ∉ d.served
  manual_iff : ∀ token, c.token = some token → (c.context = .manual ↔ c.served = [])
  stale : ∀ token, c.token = some token → c.served = [] →
    ∃ d ∈ older, ∃ n ∈ d.served, n.id = token

/-- The check the thread is about to start. -/
def nextCheck : OtaPc → Option OtaCheck
  | .scheduleOtaCheck token context ns => some ⟨token, context, ns⟩
  | .semTake | .flagsGet _ | .connectSleep _ | .consume _ => none

structure ChecksInv (cfg : OtaConfig) (s : OtaSystem) : Prop where
  base : OtaInv cfg s
  next : ∀ c, nextCheck s.pc = some c → StartedFor c s.checks
  started : ∀ newer c older, s.checks = newer ++ c :: older → StartedFor c older

variable {cfg : OtaConfig} {s : OtaSystem}

/-- Of the calls there are, those that are not pending while the thread has exchanged nothing have been
served. -/
theorem served_of_not_pending (hinv : OtaInv cfg s) (hpc : exchanged s.pc = [])
    (hpending : s.pending = []) (id : ℕ) (hid : id < s.calls.length) :
    ∃ d ∈ s.checks, ∃ n ∈ d.served, n.id = id := by
  have hmem : id ∈ accounted s := by
    rw [hinv.accounted_eq, List.mem_reverse, List.mem_range]
    exact hid
  rw [accounted, hpc, hpending] at hmem
  obtain ⟨n, hn, rfl⟩ := List.mem_map.mp hmem
  obtain ⟨d, hd, hnd⟩ := List.mem_flatMap.mp hn
  exact ⟨d, hd, n, hnd, rfl⟩

/-- The exchange of the flags. -/
theorem startedFor_consume (token : ℕ) (hinv : OtaInv cfg s) (hpc : s.pc = .consume token) :
    StartedFor ⟨some token, consumeTriggerContext cfg s.flags, s.pending⟩ s.checks := by
  refine ⟨?_, ?_, ?_⟩
  · intro n hn d hd
    exact hinv.pending_unserved hn hd
  · intro _ _
    rw [hinv.flags_eq]
    exact consumeTriggerContext_manual_iff s.pending hinv.built
  · intro token' htoken hempty
    cases htoken
    have hid : token < s.calls.length := by
      refine hinv.taken_lt token ?_
      rw [hpc]
      rfl
    refine served_of_not_pending hinv ?_ hempty token hid
    rw [hpc]
    rfl

theorem checksInv_thread (h : ChecksInv cfg s) : ChecksInv cfg (s.threadStep cfg) := by
  have hbase := inv_thread h.base
  obtain ⟨flags, sem, pc, calls, pending, checks⟩ := s
  cases pc with
  | semTake =>
    cases sem with
    | none => exact h
    | some token => exact ⟨hbase, nofun, h.started⟩
  | flagsGet token =>
    refine ⟨hbase, ?_, h.started⟩
    intro c hc
    have hnone : nextCheck (if connectOnly cfg flags = true then .connectSleep token else
        .consume token) = none := by
      split
      · rfl
      · rfl
    have hc' : nextCheck (if connectOnly cfg flags = true then .connectSleep token else
        .consume token) = some c := hc
    rw [hnone] at hc'
    cases hc'
  | connectSleep token => exact ⟨hbase, nofun, h.started⟩
  | consume token =>
    refine ⟨hbase, ?_, h.started⟩
    intro c hc
    cases hc
    exact startedFor_consume token h.base rfl
  | scheduleOtaCheck token context ns =>
    refine ⟨hbase, nofun, ?_⟩
    intro newer c older hsplit
    cases newer with
    | nil =>
      cases hsplit
      exact h.next _ rfl
    | cons d newer =>
      cases hsplit
      exact h.started newer c older rfl

theorem checksInv_step (s : OtaSystem) (e : OtaEvent) (h : ChecksInv cfg s) :
    ChecksInv cfg (stepOta cfg s e) := by
  have hbase := inv_step s e h.base
  rcases step_cases cfg s e with hs | ⟨t, -, hs⟩ | ⟨id, -, -, -, hs⟩ | ⟨id, -, -, -, hs⟩ |
    ⟨id, -, -, hs⟩ | ⟨-, hs⟩ | ⟨-, -, -, hs⟩
  · rw [hs]
    exact h
  · rw [hs] at hbase ⊢
    exact ⟨hbase, h.next, h.started⟩
  · rw [hs] at hbase ⊢
    exact ⟨hbase, h.next, h.started⟩
  · rw [hs] at hbase ⊢
    exact ⟨hbase, h.next, h.started⟩
  · rw [hs] at hbase ⊢
    exact ⟨hbase, h.next, h.started⟩
  · rw [hs]
    exact checksInv_thread h
  · rw [hs] at hbase ⊢
    refine ⟨hbase, ?_, h.started⟩
    intro c hc
    cases hc
    exact ⟨nofun, nofun, nofun⟩

theorem checksInv_run (cfg : OtaConfig) (es : List OtaEvent) :
    ChecksInv cfg (Runs.run (stepOta cfg) OtaSystem.boot es) := by
  have hboot : ChecksInv cfg OtaSystem.boot := by
    refine ⟨otaInv_boot cfg, nofun, ?_⟩
    intro newer c older hsplit
    cases newer with
    | nil => cases hsplit
    | cons d newer => cases hsplit
  exact Runs.run_invariant_always checksInv_step es _ hboot

/-- **When a check finds no flag.**  A check that has taken a token serves a notification that no earlier
check has served, unless an earlier check has served the call that gave the token; the context is manual
if and only if it serves none. -/
theorem check_serves_notification (cfg : OtaConfig) (es : List OtaEvent) (newer older : List OtaCheck)
    (c : OtaCheck) (token : ℕ) (htoken : c.token = some token)
    (hchecks : (Runs.run (stepOta cfg) OtaSystem.boot es).checks = newer ++ c :: older) :
    ((∃ n ∈ c.served, ∀ d ∈ older, n ∉ d.served) ∨ ∃ d ∈ older, ∃ n ∈ d.served, n.id = token) ∧
      (c.context = .manual ↔ ¬ ∃ n ∈ c.served, ∀ d ∈ older, n ∉ d.served) := by
  have hstarted := (checksInv_run cfg es).started newer c older hchecks
  have hserves : (∃ n ∈ c.served, ∀ d ∈ older, n ∉ d.served) ↔ c.served ≠ [] := by
    constructor
    · rintro ⟨n, hn, -⟩
      exact List.ne_nil_of_mem hn
    · intro hne
      obtain ⟨n, hn⟩ := List.exists_mem_of_ne_nil c.served hne
      exact ⟨n, hn, hstarted.fresh n hn⟩
  rw [hserves, not_not]
  refine ⟨?_, hstarted.manual_iff token htoken⟩
  by_cases hempty : c.served = []
  · exact Or.inr (hstarted.stale token htoken hempty)
  · exact Or.inl hempty

/-- A connect, and a button press that comes before the thread has taken the token. -/
theorem check_serves_notification_two_calls :
    (∃ n ∈ [(⟨1, .button⟩ : Notification), ⟨0, .connect⟩], ∀ d ∈ ([] : List OtaCheck), n ∉ d.served) ∨
      ∃ d ∈ ([] : List OtaCheck), ∃ n ∈ d.served, n.id = 0 :=
  (check_serves_notification ⟨true⟩
    [.notifyConnected, .notifyStep 0, .notifyStep 0, .notifyButton, .notifyStep 1, .thread, .thread,
      .thread, .thread]
    [] [] ⟨some 0, .buttonConnect, [⟨1, .button⟩, ⟨0, .connect⟩]⟩ 0 rfl (by decide)).1

/-- **A redundant check.**  The button is pressed while the thread sleeps for a connect: the check for
both is followed by one that finds no flag. -/
theorem press_during_sleep_checks_twice :
    ¬ ∀ c ∈ (Runs.run (stepOta ⟨true⟩) OtaSystem.boot
        [.notifyConnected, .notifyStep 0, .notifyStep 0, .thread, .thread, .notifyButton, .notifyStep 1,
          .notifyStep 1, .thread, .thread, .thread, .thread, .thread, .thread, .thread]).checks,
      c.token ≠ none → c.served ≠ [] ∧ c.context ≠ .manual := by
  decide +kernel

end WifiMemfault.OtaManualCheck
