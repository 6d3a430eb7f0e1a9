import WifiMemfault.CdrPath

/-!
# What a restore may replace

The restore does not look at the ready flag: what the partition holds replaces what is ready.  A snapshot
gets into the partition by the persist that collected it, so the stored one is never newer than the ready
one (`OrderInv`), and it is older as soon as the ready one is another.
-/

namespace WifiMemfault.CdrOrder

open NorFlash FwStatsCdr FwStatsImage FwStatsSpec CdrPath

/-- The restore does not put a snapshot in the place of a ready one that was collected later. -/
def KeepsNewer (s : CdrSystem) (os : ℕ → Outcome) : Prop :=
  (s.restoreRun os).1 = some 0 →
    ∀ r ∈ s.inRam, ∀ f ∈ (stepCdr s (.restoreFromFlash os)).inRam, ¬ f < r

/-- The stored snapshot was not collected after the ready one. -/
structure OrderInv (s : CdrSystem) : Prop where
  cdr : CdrInv s
  older : ∀ r ∈ s.inRam, ∀ f ∈ s.inFlash, f ≤ r

variable {s : CdrSystem}

theorem orderInv_boot (flash : List UInt8) : OrderInv (cdrBoot flash) :=
  ⟨cdrInv_boot flash, fun r hr => by cases hr⟩

/-- A new snapshot is newer than all others, and a persist stores the new one or none. -/
theorem orderInv_afterCollect (hinv : OrderInv s) {driver : DriverStats} {flash : List UInt8}
    {owner : Option ℕ} (h : PersistFlash s driver flash owner) (w : CdrWorld) :
    ∀ r ∈ (s.afterCollect driver w).inRam, ∀ f ∈ owner, f ≤ r := by
  intro r hr f hf
  rcases afterCollect_cases s driver w with ⟨snap, -, hs⟩ | ⟨-, hs⟩
  · rw [hs] at hr
    cases hr
    cases h with
    | kept hflash =>
      have howner := (flashOwner_true hinv.cdr (Or.inl hflash)).2 f hf
      exact (hinv.cdr.flash_lt f howner).le
    | empty hnone => cases hf
    | stored snap' hcol hstored =>
      cases hf
      exact le_rfl
  · rw [hs] at hr
    cases hr

theorem orderInv_step (s : CdrSystem) (e : CdrEvent) (hinv : OrderInv s) :
    OrderInv (stepCdr s e) := by
  have hcdr := cdrInv_step hinv.cdr e
  cases e with
  | collect driver =>
    rw [collect_keeps_flash hinv.cdr] at hcdr ⊢
    exact ⟨hcdr, orderInv_afterCollect hinv (PersistFlash.kept rfl) _⟩
  | persistToFlash driver os =>
    obtain ⟨flash, owner, h, hs⟩ := persist_step s hinv.cdr.buffer driver os
    rw [hs] at hcdr ⊢
    exact ⟨hcdr, orderInv_afterCollect hinv h _⟩
  | restoreFromFlash os =>
    obtain ⟨err, w, hexec, hleaves⟩ := restore_step s os
    have howner := (flashOwner_true hinv.cdr hleaves.content).2
    rw [stepCdr, hexec] at hcdr ⊢
    by_cases herr : err = 0
    · subst herr
      refine ⟨hcdr, fun r hr f hf => ?_⟩
      have hrf : some r = some f := Eq.trans (Eq.symm hr) (howner f hf)
      exact (Option.some.inj hrf).ge
    · rw [if_neg (by simp [herr])] at hcdr ⊢
      exact ⟨hcdr, fun r hr f hf => hinv.older r hr f (howner f hf)⟩
  | hasCdr => exact ⟨hcdr, hinv.older⟩
  | readData offset bufLen => exact ⟨hcdr, hinv.older⟩
  | markCdrRead => exact ⟨hcdr, fun r hr => by cases hr⟩

end WifiMemfault.CdrOrder
