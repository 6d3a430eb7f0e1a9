import WifiMemfault.OtaServed

/-!
# No OTA trigger is lost

A notification whose call has returned is served by a check within six steps of the thread, whatever other
calls do meanwhile.  `Coming n k` says that `k` steps are enough; a step of the thread takes one off, and
no other event adds one.
-/

namespace WifiMemfault.OtaNoLostTrigger

open OtaTriggers OtaServed

/-- The thread waits in `k_sem_take` and there is no token. -/
def Blocked (s : OtaSystem) : Prop := s.pc = .semTake ∧ s.semCount = 0

/-- The steps of the thread until the check that serves what is pending has started. -/
def stepsToCheck : OtaPc → ℕ
  | .scheduleOtaCheck _ _ _ => 6
  | .semTake => 5
  | .flagsGet _ => 4
  | .connectSleep _ => 3
  | .consume _ => 2

theorem stepsToCheck_bounds (pc : OtaPc) : 2 ≤ stepsToCheck pc ∧ stepsToCheck pc ≤ 6 := by
  cases pc <;> simp only [stepsToCheck] <;> omega

/-- A check has served `n`, or one will after at most `k` steps of the thread. -/
inductive Coming (n : Notification) (k : ℕ) (s : OtaSystem) : Prop where
  | pending (h : n ∈ s.pending) (hret : Returned s n) (hk : stepsToCheck s.pc ≤ k)
  | exchanged (h : n ∈ exchanged s.pc) (hk : 1 ≤ k)
  | served (h : n ∈ served s.checks)

variable {cfg : OtaConfig} {s : OtaSystem} {n : Notification} {k : ℕ}

/-- A call that is on its way is not one that has returned. -/
theorem returned_set_other {id : ℕ} {pc pc' : NotifyPc} (hcall : s.calls[id]? = some pc)
    (hpc : pc ≠ .returned) (hret : Returned s n) : (s.calls.set id pc')[n.id]? = some .returned := by
  have hne : id ≠ n.id := by
    rintro rfl
    rw [Returned, hcall] at hret
    exact hpc (Option.some.inj hret)
  rw [List.getElem?_set_ne hne]
  exact hret

theorem coming_thread (hinv : OtaInv cfg s) (h : Coming n k s) : Coming n (k - 1) (s.threadStep cfg) := by
  obtain ⟨flags, sem, pc, calls, pending, checks⟩ := s
  cases h with
  | pending hn hret hk =>
    cases pc with
    | semTake =>
      cases sem with
      | none =>
        rcases hinv.awaited n hn hret with hsem | hwindow
        · exact absurd rfl hsem
        · cases hwindow
      | some token => exact .pending hn hret (Nat.sub_le_sub_right hk 1)
    | flagsGet token =>
      have hk' : 3 ≤ k - 1 := Nat.sub_le_sub_right hk 1
      by_cases hconnect : connectOnly cfg flags = true
      · refine .pending hn hret ?_
        show stepsToCheck (if connectOnly cfg flags = true then _ else _) ≤ k - 1
        rw [if_pos hconnect]
        exact hk'
      · refine .pending hn hret ?_
        show stepsToCheck (if connectOnly cfg flags = true then _ else _) ≤ k - 1
        rw [if_neg hconnect]
        exact Nat.le_of_succ_le hk'
    | connectSleep token => exact .pending hn hret (Nat.sub_le_sub_right hk 1)
    | consume token => exact .exchanged hn (Nat.sub_le_sub_right hk 1)
    | scheduleOtaCheck token context ns => exact .pending hn hret (Nat.sub_le_sub_right hk 1)
  | exchanged hn hk =>
    cases pc with
    | scheduleOtaCheck token context ns => exact .served (List.mem_append_left _ hn)
    | semTake => cases hn
    | flagsGet token => cases hn
    | connectSleep token => cases hn
    | consume token => cases hn
  | served hn =>
    refine .served ?_
    cases pc with
    | scheduleOtaCheck token context ns => exact List.mem_append_right _ hn
    | semTake =>
      cases sem with
      | none => exact hn
      | some token => exact hn
    | flagsGet token => exact hn
    | connectSleep token => exact hn
    | consume token => exact hn

/-- A call that goes on, and may give a token, leaves alone what is coming. -/
theorem coming_call {id : ℕ} {pc : NotifyPc} (pc' : NotifyPc) (sem : Option ℕ)
    (hcall : s.calls[id]? = some pc) (hpc : pc ≠ .returned) (h : Coming n k s) :
    Coming n k { s with sem := sem, calls := s.calls.set id pc' } := by
  cases h with
  | pending hn hret hk => exact .pending hn (returned_set_other hcall hpc hret) hk
  | exchanged hn hk => exact .exchanged hn hk
  | served hn => exact .served hn

/-- No event but a step of the thread changes what is coming. -/
theorem coming_other {e : OtaEvent} (he : e ≠ .thread) (hinv : OtaInv cfg s) (h : Coming n k s) :
    Coming n k (stepOta cfg s e) := by
  rcases step_cases cfg s e with hs | ⟨t, -, hs⟩ | ⟨id, -, hcall, -, hs⟩ | ⟨id, -, hcall, -, hs⟩ |
    ⟨id, -, hcall, hs⟩ | ⟨hthread, -⟩ | ⟨-, hpc, hsem, hs⟩
  · rw [hs]
    exact h
  · rw [hs]
    cases h with
    | pending hn hret hk =>
      refine .pending (List.mem_cons_of_mem _ hn) ?_ hk
      show (s.calls ++ [.semCountGet])[n.id]? = some .returned
      rw [List.getElem?_append_left (hinv.pending_lt hn)]
      exact hret
    | exchanged hn hk => exact .exchanged hn hk
    | served hn => exact .served hn
  · rw [hs]
    exact coming_call .semGive s.sem hcall (by decide) h
  · rw [hs]
    exact coming_call .returned s.sem hcall (by decide) h
  · rw [hs]
    exact coming_call .returned _ hcall (by decide) h
  · exact absurd hthread he
  · rw [hs]
    cases h with
    | pending hn hret hk =>
      -- with a trigger to serve the take finds a token
      rcases hinv.awaited n hn hret with hsome | hwindow
      · exact absurd hsem hsome
      · rw [hpc] at hwindow
        cases hwindow
    | exchanged hn hk =>
      rw [hpc] at hn
      cases hn
    | served hn => exact .served hn

theorem coming_run (gs : List OtaEvent) (k : ℕ) (s : OtaSystem) (hinv : OtaInv cfg s)
    (h : Coming n k s) : Coming n (k - gs.count .thread) (Runs.run (stepOta cfg) s gs) := by
  induction gs generalizing s k with
  | nil => exact h
  | cons e gs ih =>
    rw [Runs.run_cons]
    by_cases he : e = .thread
    · subst he
      have hnext := ih (k - 1) _ (inv_step s .thread hinv) (coming_thread hinv h)
      rw [List.count_cons_self]
      rw [Nat.sub_sub, Nat.add_comm] at hnext
      exact hnext
    · rw [List.count_cons_of_ne he]
      exact ih k _ (inv_step s e hinv) (coming_other he hinv h)

/-- A notification stays pending until it is exchanged, and then until its check has started. -/
theorem place_step (s : OtaSystem) (e : OtaEvent)
    (h : n ∈ s.pending ∨ n ∈ exchanged s.pc ∨ n ∈ served s.checks) :
    n ∈ (stepOta cfg s e).pending ∨ n ∈ exchanged (stepOta cfg s e).pc ∨
      n ∈ served (stepOta cfg s e).checks := by
  rcases step_cases cfg s e with hs | ⟨t, -, hs⟩ | ⟨id, -, -, -, hs⟩ | ⟨id, -, -, -, hs⟩ |
    ⟨id, -, -, hs⟩ | ⟨-, hs⟩ | ⟨-, hpc, -, hs⟩
  · rw [hs]
    exact h
  · rw [hs]
    exact h.imp_left (List.mem_cons_of_mem _)
  · rw [hs]
    exact h
  · rw [hs]
    exact h
  · rw [hs]
    exact h
  · rw [hs]
    obtain ⟨flags, sem, pc, calls, pending, checks⟩ := s
    cases pc with
    | semTake =>
      cases sem with
      | none => exact h
      | some token => exact h
    | flagsGet token =>
      rcases h with hn | hn | hn
      · exact Or.inl hn
      · cases hn
      · exact Or.inr (Or.inr hn)
    | connectSleep token => exact h
    | consume token =>
      rcases h with hn | hn | hn
      · exact Or.inr (Or.inl hn)
      · cases hn
      · exact Or.inr (Or.inr hn)
    | scheduleOtaCheck token context ns =>
      rcases h with hn | hn | hn
      · exact Or.inl hn
      · exact Or.inr (Or.inr (List.mem_append_left _ hn))
      · exact Or.inr (Or.inr (List.mem_append_right _ hn))
  · rw [hs]
    rw [hpc] at h
    rcases h with hn | hn | hn
    · exact Or.inl hn
    · cases hn
    · exact Or.inr (Or.inr hn)

theorem place_run (fs : List OtaEvent) (s : OtaSystem) (h : n ∈ s.pending) :
    n ∈ (Runs.run (stepOta cfg) s fs).pending ∨ n ∈ exchanged (Runs.run (stepOta cfg) s fs).pc ∨
      n ∈ served (Runs.run (stepOta cfg) s fs).checks :=
  Runs.run_invariant_always place_step fs s (Or.inl h)

/-- **No lost trigger.**  After any run, with a flag set and every call returned, there is a token or the
thread is on its way to the exchange, so it is not blocked; and a pending notification, which no check has
served, is served once its call has returned and the thread has taken six more steps. -/
theorem no_lost_trigger (cfg : OtaConfig) (es : List OtaEvent) :
    let s := Runs.run (stepOta cfg) OtaSystem.boot es
    (s.flags ≠ 0 → (∀ pc ∈ s.calls, pc = .returned) →
      (s.semCount = 1 ∨ window s.pc = true) ∧ ¬ Blocked s) ∧
    ∀ n ∈ s.pending, (∀ c ∈ s.checks, n ∉ c.served) ∧
      ∀ fs gs, Returned (Runs.run (stepOta cfg) s fs) n → 6 ≤ gs.count .thread →
        ∃ c ∈ (Runs.run (stepOta cfg) s (fs ++ gs)).checks, n ∈ c.served := by
  intro s
  have hinv : OtaInv cfg s := otaInv_run cfg es
  constructor
  · intro hflags hreturned
    rw [hinv.flags_eq] at hflags
    obtain ⟨n, hn⟩ := List.exists_mem_of_ne_nil s.pending (mt (flagsOf_eq_zero_iff _).mpr hflags)
    have hret : Returned s n := by
      have hcall := List.getElem?_eq_getElem (hinv.pending_lt hn)
      rw [Returned, hcall, hreturned _ (List.getElem_mem _)]
    have htoken : s.semCount = 1 ∨ window s.pc = true :=
      (hinv.awaited n hn hret).imp_left fun hsem => if_pos (Option.isSome_iff_ne_none.mpr hsem)
    refine ⟨htoken, ?_⟩
    rintro ⟨hpc, hcount⟩
    rcases htoken with h | h
    · rw [hcount] at h
      cases h
    · rw [hpc] at h
      cases h
  · intro n hn
    refine ⟨fun c hc => hinv.pending_unserved hn hc, ?_⟩
    intro fs gs hret hthread
    have hinv' : OtaInv cfg (Runs.run (stepOta cfg) s fs) := by
      rw [← Runs.run_append]
      exact otaInv_run cfg (es ++ fs)
    have hcoming : Coming n 6 (Runs.run (stepOta cfg) s fs) := by
      rcases place_run fs s hn with h | h | h
      · exact .pending h hret (stepsToCheck_bounds _).2
      · exact .exchanged h (by decide)
      · exact .served h
    have hend := coming_run gs 6 _ hinv' hcoming
    rw [Nat.sub_eq_zero_of_le hthread] at hend
    rw [Runs.run_append]
    cases hend with
    | pending _ _ hk => exact absurd ((stepsToCheck_bounds _).1.trans hk) (by decide)
    | exchanged _ hk => exact absurd hk (by decide)
    | served h => exact List.mem_flatMap.mp h

/-- A button press while the thread sleeps for an earlier connect. -/
theorem no_lost_trigger_button_press :
    ∃ c ∈ (Runs.run (stepOta ⟨true⟩)
        (Runs.run (stepOta ⟨true⟩) OtaSystem.boot
          [.notifyConnected, .notifyStep 0, .notifyStep 0, .thread, .thread, .notifyButton])
        ([.notifyStep 1, .notifyStep 1] ++ List.replicate 6 .thread)).checks,
      ⟨1, .button⟩ ∈ c.served :=
  ((no_lost_trigger ⟨true⟩ [.notifyConnected, .notifyStep 0, .notifyStep 0, .thread, .thread,
    .notifyButton]).2 ⟨1, .button⟩ (by decide)).2 [.notifyStep 1, .notifyStep 1]
    (List.replicate 6 .thread) (by decide) (by decide)

end WifiMemfault.OtaNoLostTrigger
