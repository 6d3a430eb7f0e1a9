import WifiMemfault.LogStateSteps
import WifiMemfault.Lib.OneShotStore

/-!
# A restore that fails and the live ring buffer

`memfault_log_state_restore_on_connect` copies the stored context and the stored storage over the live
objects in two reads, and learns only from each of them whether it has succeeded.  Everything before the
first read leaves the live ring buffer alone.  A first read that fails leaves its prefix in the context; a
second read that fails leaves the whole stored context and a prefix of the stored storage, which is the
mismatched state the size check is there to prevent.
-/

namespace WifiMemfault.LogStateFailure

open EffectProgram ByteList NorFlash LogStateRestore LogStateSteps

/-- Any flash call may fail, also after part of its effect; `outer` is what the SDK calls do. -/
def restoreDevice (outer : LogCall → LogWorld → LogWorld) :
    Device (flashSig LogObj Unit LogCall) Outcome LogWorld := flashDevice tornFaults outer

variable (outer : LogCall → LogWorld → LogWorld)

/-- If the restore fails, the live context and the live storage are what they were. -/
def LiveKept (w : LogWorld) (os : ℕ → Outcome) : Prop :=
  ∀ err w', (restoreDevice outer).exec memfaultLogStateRestoreOnConnect os w = (some err, w') →
    err ≠ 0 → w'.ram .context = w.ram .context ∧ w'.ram .storage = w.ram .storage

/-! ### The condition -/

/-- The live objects are there, and the header is valid and gives their lengths. -/
def Matches (hdr : LogStateHdr) (w : LogWorld) : Prop :=
  hdr.Valid ∧ (w.ram .context).map (fun bs => UInt32.ofNat bs.length) = some hdr.contextLen ∧
    (w.ram .storage).map (fun bs => UInt32.ofNat bs.length) = some hdr.storageLen

instance (hdr : LogStateHdr) (w : LogWorld) : Decidable (Matches hdr w) :=
  inferInstanceAs (Decidable (_ ∧ _ ∧ _))

/-- The bytes the two reads of a failing copy put over the context and over the storage, `os` being the
outcomes of the two reads. -/
def copiedParts (flash : List UInt8) (cl sl : ℕ) (os : ℕ → Outcome) : List UInt8 × List UInt8 :=
  let context := tornFaults.readGot flash hdrSize cl (os 0)
  let storage := tornFaults.readGot flash (hdrSize + cl) sl (os 1)
  if context.2 = false then (context.1, [])
  else if storage.2 = false then (context.1, storage.1)
  else ([], [])

/-- The bytes a restore that fails puts over the live context and over the live storage. -/
def copiedOver (w : LogWorld) (os : ℕ → Outcome) : List UInt8 × List UInt8 :=
  match tornFaults.headerGot w.flash hdrSize os with
  | some bytes =>
    let hdr := LogStateHdr.ofBytes bytes
    if Matches hdr w then
      copiedParts w.flash hdr.contextLen.toNat hdr.storageLen.toNat fun i => os (i + 4)
    else ([], [])
  | none => ([], [])

/-- What a failing copy puts over the live objects are the bytes they have there. -/
def CopySpares (w : LogWorld) (os : ℕ → Outcome) : Prop :=
  (∀ bs ∈ w.ram .context, overwrite 0 (copiedOver w os).1 bs = bs) ∧
    ∀ bs ∈ w.ram .storage, overwrite 0 (copiedOver w os).2 bs = bs

/-! ### What a restore that fails leaves -/

/-- A restore has returned zero, or failed with these bytes over the live objects. -/
def RestoreOver (w : LogWorld) (xs : List UInt8 × List UInt8) (err : ℤ) (w' : LogWorld) : Prop :=
  (err = 0 ∧ xs = ([], [])) ∨
    (err ≠ 0 ∧ w'.ram = ((w.fill .context xs.1).fill .storage xs.2).ram)

theorem restoreOver_same {w w' : LogWorld} {err : ℤ} (herr : err ≠ 0) (hram : w'.ram = w.ram) :
    RestoreOver w ([], []) err w' := by
  refine Or.inr ⟨herr, ?_⟩
  rw [fill_nil, fill_nil, hram]

/-- The erase at the end touches no RAM and is not looked at. -/
theorem restoreErase_exec (w : LogWorld) (err : ℤ) (os : ℕ → Outcome) :
    ∃ w', (restoreDevice outer).exec (restoreErase w.flash.length err) os w = (some err, w') ∧
      w'.ram = w.ram := by
  have hrule : Always (restoreDevice outer) (fun e w' => e = err ∧ w'.ram = w.ram) (fun _ => True)
      (restoreErase w.flash.length err) w :=
    (always_erase 0 _ _ (by omega)).mpr
      (transferOk_intro ⟨rfl, rfl⟩ (fun _ _ _ _ => ⟨rfl, rfl⟩) fun _ _ => trivial)
  obtain ⟨e, w', hexec, rfl, hram⟩ := always_powered rfl hrule os
  exact ⟨w', hexec, hram⟩

theorem restoreCopyStorage_exec (w : LogWorld) (cl sl : ℕ) (os : ℕ → Outcome) :
    ∃ err w', (restoreDevice outer).exec (restoreCopyStorage cl sl w.flash.length) os w
        = (some err, w') ∧
      (err = 0 ↔ (tornFaults.readGot w.flash (hdrSize + cl) sl (os 0)).2 = true) ∧
      w'.ram = (w.fill .storage (tornFaults.readGot w.flash (hdrSize + cl) sl (os 0)).1).ram := by
  obtain ⟨err, hexec, hzero⟩ := exec_readInto_powered (F := tornFaults) rfl w (hdrSize + cl) .storage sl
    (restoreErase w.flash.length) os
  obtain ⟨w', herase, hram⟩ := restoreErase_exec outer
    (w.fill .storage (tornFaults.readGot w.flash (hdrSize + cl) sl (os 0)).1) err
    fun i => os (i + 1)
  exact ⟨err, w', hexec.trans herase, hzero, hram⟩

/-- The two reads: both succeed, or what they put over the live objects stays there. -/
theorem restoreCopyContext_exec (w : LogWorld) (cl sl : ℕ) (os : ℕ → Outcome) :
    ∃ err w', (restoreDevice outer).exec (restoreCopyContext cl sl w.flash.length) os w
        = (some err, w') ∧ RestoreOver w (copiedParts w.flash cl sl os) err w' := by
  obtain ⟨err, hexec, hzero⟩ := exec_readInto_powered (F := tornFaults) rfl w hdrSize .context cl
    (fun err => if err = 0 then restoreCopyStorage cl sl w.flash.length
      else restoreErase w.flash.length err) os
  rw [copiedParts]
  cases hcontext : (tornFaults.readGot w.flash hdrSize cl (os 0)).2 with
  | false =>
    have herr : err ≠ 0 := fun h => Bool.false_ne_true (hcontext.symm.trans (hzero.mp h))
    rw [if_neg herr] at hexec
    obtain ⟨w', herase, hram⟩ := restoreErase_exec outer
      (w.fill .context (tornFaults.readGot w.flash hdrSize cl (os 0)).1) err fun i => os (i + 1)
    refine ⟨err, w', hexec.trans herase, Or.inr ⟨herr, ?_⟩⟩
    rw [if_pos rfl, fill_nil]
    exact hram
  | true =>
    rw [if_pos (hzero.mpr hcontext)] at hexec
    obtain ⟨err', w', hcopy, hzero', hram⟩ := restoreCopyStorage_exec outer
      (w.fill .context (tornFaults.readGot w.flash hdrSize cl (os 0)).1) cl sl fun i => os (i + 1)
    refine ⟨err', w', hexec.trans hcopy, ?_⟩
    rw [if_neg (by decide)]
    cases hstorage : (tornFaults.readGot w.flash (hdrSize + cl) sl (os 1)).2 with
    | false =>
      have herr : err' ≠ 0 := fun h => Bool.false_ne_true (hstorage.symm.trans (hzero'.mp h))
      exact Or.inr ⟨herr, hram⟩
    | true => exact Or.inl ⟨hzero'.mpr hstorage, rfl⟩

/-- A restore that gives up before its copy. -/
theorem restoreErase_over (w : LogWorld) {err : ℤ} (herr : err ≠ 0) (os : ℕ → Outcome) :
    ∃ err' w', (restoreDevice outer).exec (restoreErase w.flash.length err) os w = (some err', w') ∧
      RestoreOver w ([], []) err' w' := by
  obtain ⟨w', hexec, hram⟩ := restoreErase_exec outer w err os
  exact ⟨err, w', hexec, restoreOver_same herr hram⟩

theorem restoreSized_exec (w : LogWorld) (hdr : LogStateHdr) (hvalid : hdr.Valid) (os : ℕ → Outcome) :
    ∃ err w', (restoreDevice outer).exec (restoreSized hdr w.flash.length
        ((w.ram .context).map List.length) ((w.ram .storage).map List.length)) os w = (some err, w') ∧
      RestoreOver w (if Matches hdr w then
        copiedParts w.flash hdr.contextLen.toNat hdr.storageLen.toNat os
      else ([], [])) err w' := by
  cases hc : w.ram .context with
  | none =>
    rw [if_neg (by simp [Matches, hc])]
    exact restoreErase_over outer w (by decide) os
  | some context =>
    cases hs : w.ram .storage with
    | none =>
      rw [if_neg (by simp [Matches, hs])]
      exact restoreErase_over outer w (by decide) os
    | some storage =>
      have hmatches : Matches hdr w ↔ hdr.contextLen = UInt32.ofNat context.length ∧
          hdr.storageLen = UInt32.ofNat storage.length := by
        simp only [Matches, hc, hs, hvalid, Option.map_some, Option.some.injEq, true_and]
        exact and_congr eq_comm eq_comm
      simp only [Option.map_some, restoreSized, hmatches]
      by_cases hsame : hdr.contextLen = UInt32.ofNat context.length ∧
          hdr.storageLen = UInt32.ofNat storage.length
      · rw [if_pos hsame, if_pos hsame]
        exact restoreCopyContext_exec outer w _ _ os
      · rw [if_neg hsame, if_neg hsame]
        exact restoreErase_over outer w (by decide) os

theorem restoreChecked_exec (w : LogWorld) (hdr : LogStateHdr) (os : ℕ → Outcome) :
    ∃ err w', (restoreDevice outer).exec (restoreChecked hdr w.flash.length) os w = (some err, w') ∧
      RestoreOver w (if Matches hdr w then
        copiedParts w.flash hdr.contextLen.toNat hdr.storageLen.toNat fun i => os (i + 2)
      else ([], [])) err w' := by
  rw [restoreChecked]
  by_cases hvalid : hdr.Valid
  · rw [if_pos hvalid]
    exact restoreSized_exec outer w hdr hvalid fun i => os (i + 2)
  · rw [if_neg hvalid, if_neg fun h : Matches hdr w => hvalid h.1]
    exact ⟨enoent, w, rfl, restoreOver_same (by decide) rfl⟩

/-- A restore of the partition returns zero, or fails with `copiedOver` over the live objects. -/
theorem restoreFromPartition_exec (w : LogWorld) (os : ℕ → Outcome) :
    ∃ err w', (restoreDevice outer).exec restoreFromPartition os w = (some err, w') ∧
      RestoreOver w (copiedOver w os) err w' := by
  have hrestore : (restoreDevice outer).exec restoreFromPartition os w =
      match tornFaults.headerGot w.flash hdrSize os with
      | some bytes =>
        (restoreDevice outer).exec (restoreHdrRead w.flash.length (.ok bytes)) (fun i => os (i + 2)) w
      | none => (some enoent, w) := by
    rw [restoreFromPartition_eq]
    exact exec_header_powered rfl hdrSize enoent restoreOpened restoreHdrRead (fun _ => rfl)
      (fun _ => rfl) (fun _ _ => rfl) os
  rw [hrestore, copiedOver]
  cases tornFaults.headerGot w.flash hdrSize os with
  | none => exact ⟨enoent, w, rfl, restoreOver_same (by decide) rfl⟩
  | some bytes => exact restoreChecked_exec outer w (LogStateHdr.ofBytes bytes) fun i => os (i + 2)

/-- The whole restore returns the error of its first part, or zero. -/
theorem restoreOnConnect_exec (w : LogWorld) (os : ℕ → Outcome) :
    ∃ err w', (restoreDevice outer).exec memfaultLogStateRestoreOnConnect os w = (some err, w') ∧
      RestoreOver w (copiedOver w os) err w' := by
  obtain ⟨err, w', hexec, hover⟩ := restoreFromPartition_exec outer w os
  obtain ⟨os', hbind⟩ := Device.exec_bind (restoreDevice outer) restoreFromPartition
    (fun err => if err = 0 then
        .call (.outside .memfaultLogDataSourceReset) fun _ =>
          .call (.outside .restoreMarker) fun _ => .ret 0
      else .ret err) os w
  rw [← memfaultLogStateRestoreOnConnect_eq, hexec] at hbind
  rcases hover with ⟨rfl, hnil⟩ | ⟨herr, hram⟩
  · exact ⟨0, _, hbind, Or.inl ⟨rfl, hnil⟩⟩
  · simp only [herr, if_false, Device.exec_ret] at hbind
    exact ⟨err, w', hbind, Or.inr ⟨herr, hram⟩⟩

/-! ### The condition is exact -/

theorem map_eq_self_iff (o : Option (List UInt8)) (f : List UInt8 → List UInt8) :
    o.map f = o ↔ ∀ bs ∈ o, f bs = bs := by
  cases o with
  | none => simp
  | some bs => simp

/-- **When a failing restore leaves the live ring buffer alone.**  Exactly if what its copy has put over the
live context and the live storage are the bytes they had there. -/
theorem failed_restore_keeps_live_iff (outer : LogCall → LogWorld → LogWorld) (w : LogWorld)
    (os : ℕ → Outcome) : LiveKept outer w os ↔ CopySpares w os := by
  obtain ⟨err, w', hexec, hover⟩ := restoreOnConnect_exec outer w os
  have hcontext : ((w.fill .context (copiedOver w os).1).fill .storage (copiedOver w os).2).ram .context
      = (w.ram .context).map (overwrite 0 (copiedOver w os).1) := rfl
  have hstorage : ((w.fill .context (copiedOver w os).1).fill .storage (copiedOver w os).2).ram .storage
      = (w.ram .storage).map (overwrite 0 (copiedOver w os).2) := rfl
  rw [CopySpares, ← map_eq_self_iff, ← map_eq_self_iff, ← hcontext, ← hstorage]
  constructor
  · intro h
    rcases hover with ⟨-, hnil⟩ | ⟨herr, hram⟩
    · rw [hnil, fill_nil, fill_nil]
      exact ⟨rfl, rfl⟩
    · rw [← hram]
      exact h err w' hexec herr
  · intro h err' w'' hexec' herr'
    rw [hexec] at hexec'
    cases hexec'
    rcases hover with ⟨hzero, -⟩ | ⟨-, hram⟩
    · exact absurd hzero herr'
    · rw [hram]
      exact h

/-! ### The second read fails -/

/-- A live ring buffer of one and two bytes, and a complete blob of these lengths. -/
def liveOverBlob : LogWorld where
  flash := (blobHdr 1 2).toBytes ++ [1, 2, 3]
  ram
    | .context => some [7]
    | .storage => some [8, 9]
  statics := ()

/-- The read of the storage fails before its first byte. -/
def storageReadFails (i : ℕ) : Outcome := if i = 5 then .fail ⟨-5, eio_neg⟩ 0 else .ok

/-- The restore returns an error, and the live context is the stored one. -/
theorem failed_restore_changes_context : ¬ LiveKept (fun _ w => w) liveOverBlob storageReadFails := by
  intro h
  have hfails : ((restoreDevice fun _ w => w).exec memfaultLogStateRestoreOnConnect storageReadFails
      liveOverBlob).1 = some (-5) := by decide +kernel
  obtain ⟨hcontext, -⟩ := h (-5) _ (Prod.ext hfails rfl) (by decide)
  exact absurd hcontext (by decide +kernel)

end WifiMemfault.LogStateFailure
