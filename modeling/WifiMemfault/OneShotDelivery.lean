import WifiMemfault.FwStatsSpec
import WifiMemfault.LogStateSpec
import WifiMemfault.Lib.OneShotStore

/-!
# One-shot restores

Both restores erase their partition after the copy and report success whatever the erase returns.  The log
state and the CDR partition are each a `OneShotStore`: a blob is restored once unless the erase of its
restore fails without an effect, and the next restore comes before another persist.
-/

namespace WifiMemfault.OneShotDelivery

open EffectProgram NorFlash

/-! ### The log state -/

section Log

open LogStateRestore LogStateImage LogStateSteps LogStateSpec

/-- The log-state partition, in a firmware whose restore marker changes the ring buffer by `marker`. -/
def logStore (marker : (LogObj → Option (List UInt8)) → LogObj → Option (List UInt8)) :
    OneShotStore LogObj Unit LogCall Unit where
  persist _ := memfaultLogStatePersistNow
  restore := memfaultLogStateRestoreOnConnect
  outer := logOutside marker

variable {outer : LogCall → LogWorld → LogWorld}

/-- What a persist leaves behind that returned `err`. -/
abbrev LeavesHeader (err : ℤ) (w : LogWorld) : Prop := err = 0 → ¬ NoHeader w.flash

theorem leavesHeader_of_ne {err : ℤ} (w : LogWorld) (h : err ≠ 0) : LeavesHeader err w :=
  fun hzero => absurd hzero h

theorem persistWriteHeader_leaves (cl sl : ℕ) (w : LogWorld) :
    Always (flashDevice tornFaults outer) LeavesHeader (fun _ => True) (persistWriteHeader cl sl) w :=
  always_writeHeader (UInt8.ofNat logStateMagic.toNat) (blobHdr cl sl).toBytes.tail (by decide) w

/-- A call before the header write that fails is passed on, whatever it left. -/
theorem leavesHeader_ite {err : ℤ} {w : LogWorld} {next : LogProg ℤ}
    (h : Always (flashDevice tornFaults outer) LeavesHeader (fun _ => True) next w) :
    Always (flashDevice tornFaults outer) LeavesHeader (fun _ => True)
      (if err = 0 then next else .ret err) w := by
  by_cases herr : err = 0
  · rw [if_pos herr]
    exact h
  · rw [if_neg herr]
    exact leavesHeader_of_ne w herr

theorem memfaultLogStatePersistNow_leaves (w : LogWorld) :
    Always (flashDevice tornFaults outer) LeavesHeader (fun _ => True) memfaultLogStatePersistNow
      w := by
  rw [memfaultLogStatePersistNow_eq, always_objectSize, always_objectSize]
  cases (w.ram .context).map List.length with
  | none => exact leavesHeader_of_ne w (by decide)
  | some cl =>
    cases (w.ram .storage).map List.length with
    | none => exact leavesHeader_of_ne w (by decide)
    | some sl =>
      refine (always_openArea (persistOpened cl sl)).mpr
        ⟨?_, fun _ e => leavesHeader_of_ne w e.property.ne, fun _ => trivial⟩
      rw [persistOpened]
      split
      · exact leavesHeader_of_ne w (by decide)
      · refine always_call_of_forall (fun err w₁ => leavesHeader_ite ?_) fun _ => trivial
        refine always_call_of_forall (fun err w₂ => leavesHeader_ite ?_) fun _ => trivial
        refine always_call_of_forall (fun err w₃ => leavesHeader_ite ?_) fun _ => trivial
        exact persistWriteHeader_leaves cl sl w₃

theorem restoreErase_restored {flash : List UInt8} {r : ℤ} (hr : r = 0 → ¬ NoHeader flash) (w : LogWorld)
    (hw : w.flash = flash) :
    Always (flashDevice tornFaults outer) (OneShotStore.Restored flash) (fun _ => True)
      (restoreErase flash.length r) w := by
  subst hw
  exact always_eraseAll rfl fun _ _ hcontent => ⟨hr, hcontent⟩

/-- A header that passes the test is there. -/
theorem header_of_valid {flash : List UInt8} (hlen : 0 + hdrSize ≤ flash.length)
    (hvalid : (LogStateHdr.ofBytes (readRange 0 hdrSize flash)).Valid) : ¬ NoHeader flash :=
  LogStateImage.accepts_first flash _ _ ⟨by omega, hvalid, UInt32.ofNat_toNat.symm,
    UInt32.ofNat_toNat.symm⟩

theorem restoreFromPartition_restored (w : LogWorld) :
    Always (flashDevice tornFaults outer) (OneShotStore.Restored w.flash) (fun _ => True)
      restoreFromPartition w := by
  have hsame : OneShotStore.Restored w.flash enoent w :=
    ⟨fun hzero => absurd hzero (by decide), Or.inl rfl⟩
  rw [restoreFromPartition_eq]
  refine (always_openArea restoreOpened).mpr ⟨?_, fun _ _ => hsame, fun _ => trivial⟩
  by_cases hlen : 0 + hdrSize ≤ w.flash.length
  · refine (always_readLocal 0 hdrSize (restoreHdrRead w.flash.length) hlen).mpr
      ⟨?_, fun _ _ => hsame, fun _ => trivial⟩
    rw [restoreHdrRead, restoreChecked]
    split
    · rename_i hvalid
      have hheader := header_of_valid hlen hvalid
      have hdiscard : ∀ r : ℤ, Always (flashDevice tornFaults outer) (OneShotStore.Restored w.flash)
          (fun _ => True) (restoreErase w.flash.length r) w :=
        fun r => restoreErase_restored (fun _ => hheader) w rfl
      rw [always_objectSize, always_objectSize]
      cases (w.ram .context).map List.length with
      | none => exact hdiscard einval
      | some cl =>
        cases (w.ram .storage).map List.length with
        | none => exact hdiscard einval
        | some sl =>
          rw [restoreSized]
          split
          · refine always_readInto_keeps fun err w₁ hw₁ => ?_
            split
            · refine always_readInto_keeps fun err' w₂ hw₂ => ?_
              exact restoreErase_restored (fun _ => hheader) w₂ (hw₂.trans hw₁)
            · exact restoreErase_restored (fun _ => hheader) w₁ hw₁
          · exact hdiscard enospc
    · exact hsame
  · exact (always_readLocal_outside 0 hdrSize (restoreHdrRead w.flash.length) hlen).mpr hsame

theorem logStore_lawful (marker : (LogObj → Option (List UInt8)) → LogObj → Option (List UInt8)) :
    (logStore marker).Lawful := by
  refine ⟨fun _ w => memfaultLogStatePersistNow_leaves w, fun w => ?_⟩
  show Always _ _ _ memfaultLogStateRestoreOnConnect w
  rw [memfaultLogStateRestoreOnConnect_eq, always_bind]
  refine always_mono (restoreFromPartition_restored w) (fun err w' h => ?_) fun _ h => h
  split
  · rename_i herr
    rw [always_outside, always_outside]
    exact ⟨fun _ => h.had_header herr, h.content⟩
  · exact h

end Log

/-! ### The CDR partition -/

section Cdr

open FwStatsCdr FwStatsImage FwStatsSpec

def cdrStore : OneShotStore CdrObj CdrStatics Empty DriverStats where
  persist := mfltNrf70FwStatsCdrPersistToFlash
  restore := mfltNrf70FwStatsCdrRestoreFromFlash
  outer _ w := w

variable {outer : Empty → CdrWorld → CdrWorld}

theorem persistWrite_leaves (w : CdrWorld) :
    Always (flashDevice tornFaults outer) (fun err w' => err = 0 → ¬ NoHeader w'.flash)
      (fun _ => True) persistWrite w := by
  refine always_call_of_forall (fun s w₁ => ?_) fun _ => trivial
  refine always_call_of_forall (fun err w₂ => ?_) fun _ => trivial
  show Always _ _ _ (headerAfter err) w₂
  rw [headerAfter]
  split
  · rename_i herr
    exact fun hzero => absurd hzero herr
  · refine always_call_of_forall (fun s₁ w₃ => ?_) fun _ => trivial
    exact always_writeHeader (UInt8.ofNat cdrStateMagic.toNat) (cdrHdr s₁.blobSize).toBytes.tail
      (by decide) w₃

theorem cdrPersist_leaves (driver : DriverStats) (w : CdrWorld) :
    Always (flashDevice tornFaults outer) (fun err w' => err = 0 → ¬ NoHeader w'.flash)
      (fun _ => True) (mfltNrf70FwStatsCdrPersistToFlash driver) w := by
  have hpersist : mfltNrf70FwStatsCdrPersistToFlash driver =
    persistErase driver >>= fun err => if err ≠ 0 then .ret err else persistWrite := rfl
  rw [hpersist, always_bind]
  refine always_mono (persistErase_always driver w) (fun err w₁ _ => ?_) fun _ h => h
  split
  · rename_i herr
    exact fun hzero => absurd hzero herr
  · exact persistWrite_leaves w₁

/-- The partition of a restore is left as it is, or loses its header. -/
theorem cdrRestore_content (w : CdrWorld) :
    Always (flashDevice tornFaults outer) (fun _ w' => w'.flash = w.flash ∨ NoHeader w'.flash)
      (fun _ => True) mfltNrf70FwStatsCdrRestoreFromFlash w := by
  have hsame : w.flash = w.flash ∨ NoHeader w.flash := Or.inl rfl
  refine (always_openArea cdrRestoreOpened).mpr
    ⟨?_, fun _ _ => hsame, fun _ => trivial⟩
  by_cases hlen : 0 + cdrHdrSize ≤ w.flash.length
  · refine (always_readLocal 0 cdrHdrSize (restoreHeader w.flash.length) hlen).mpr
      ⟨?_, fun _ _ => hsame, fun _ => trivial⟩
    rw [restoreHeader]
    split
    · exact hsame
    · refine always_readInto_keeps fun err w₁ hw₁ => ?_
      rw [restoreAfterCopy]
      refine always_eraseAll (congrArg List.length hw₁).symm fun _ flash hcontent => ?_
      rw [hw₁] at hcontent
      split
      · exact hcontent
      · rw [always_getStatics, always_putStatics]
        exact hcontent
  · exact (always_readLocal_outside 0 cdrHdrSize (restoreHeader w.flash.length) hlen).mpr hsame

theorem cdrStore_lawful : cdrStore.Lawful := by
  refine ⟨cdrPersist_leaves, fun w => ?_⟩
  refine always_mono (always_and (mfltNrf70FwStatsCdrRestoreFromFlash_always w)
    (cdrRestore_content w)) (fun err w' h => ⟨?_, h.2⟩) fun _ _ => trivial
  intro herr
  obtain ⟨snap, hstored, -⟩ := h.1.copied herr
  exact FwStatsImage.accepts_first (accepts_of_stored hstored)

end Cdr

/-! ### Every run -/

open OneShotStore (NoStaleRestore)
open LogStateRestore (LogObj LogWorld)
open FwStatsCdr (CdrObj CdrStatics CdrWorld DriverStats)

/-- **When each blob is restored at most once.**  In every run of either module, whatever flash calls fail,
no blob is restored by two calls that return zero, unless a restore is called on a blob whose header the
erase of an earlier restore has left. -/
theorem restored_at_most_once
    (marker : (LogObj → Option (List UInt8)) → LogObj → Option (List UInt8)) (w : LogWorld)
    (v : CdrWorld) (es : List (OneShotEvent LogObj Unit Unit))
    (fs : List (OneShotEvent CdrObj CdrStatics DriverStats)) :
    (Runs.EachStep (logStore marker).stepOneShot NoStaleRestore (OneShot.start w) es →
      ∀ n, (Runs.run (logStore marker).stepOneShot (OneShot.start w) es).restored.count n ≤ 1) ∧
    (Runs.EachStep cdrStore.stepOneShot NoStaleRestore (OneShot.start v) fs →
      ∀ n, (Runs.run cdrStore.stepOneShot (OneShot.start v) fs).restored.count n ≤ 1) :=
  ⟨OneShotStore.restored_once (logStore_lawful marker) w es,
    OneShotStore.restored_once cdrStore_lawful v fs⟩

/-- In particular where the erase of every restore that succeeds removes the header. -/
theorem restored_once_of_erases
    (marker : (LogObj → Option (List UInt8)) → LogObj → Option (List UInt8)) (w : LogWorld)
    (v : CdrWorld) (es : List (OneShotEvent LogObj Unit Unit))
    (fs : List (OneShotEvent CdrObj CdrStatics DriverStats)) :
    (Runs.EachStep (logStore marker).stepOneShot (logStore marker).ErasesHeader (OneShot.start w) es →
      ∀ n, (Runs.run (logStore marker).stepOneShot (OneShot.start w) es).restored.count n ≤ 1) ∧
    (Runs.EachStep cdrStore.stepOneShot cdrStore.ErasesHeader (OneShot.start v) fs →
      ∀ n, (Runs.run cdrStore.stepOneShot (OneShot.start v) fs).restored.count n ≤ 1) :=
  ⟨fun herases => OneShotStore.restored_once (logStore_lawful marker) w es
      (OneShotStore.noStaleRestore_of_erases es w herases),
    fun herases => OneShotStore.restored_once cdrStore_lawful v fs
      (OneShotStore.noStaleRestore_of_erases fs v herases)⟩

/-- The outcomes of a call whose flash call number `i` fails after `k` bytes. -/
def failsAt (i k : ℕ) : ℕ → Outcome := fun j => if j = i then .fail ⟨-5, eio_neg⟩ k else .ok

def noFailure : ℕ → Outcome := fun _ => .ok

/-- A log ring buffer of two bytes, and an erased partition. -/
def smallLog : LogWorld := ⟨erased 64, LogStateImage.liveRam ⟨[1], [2]⟩, ()⟩

/-- The buffer of the CDR source, and an erased partition. -/
def emptyCdr : CdrWorld := ⟨erased 64, fun _ => some (List.replicate 1024 0), ⟨0, false, 0, 0⟩⟩

/-- A persist, a restore whose erase fails after `k` bytes, and another restore. -/
def logTwice (k : ℕ) : List (OneShotEvent LogObj Unit Unit) :=
  [.persist () noFailure, .restore (failsAt 6 k), .restore noFailure]

def cdrTwice (k : ℕ) : List (OneShotEvent CdrObj CdrStatics DriverStats) :=
  [.persist (.stats [1, 2, 3]) noFailure, .restore (failsAt 3 k), .restore noFailure]

/-- An erase that fails after the first byte is enough. -/
theorem restored_at_most_once_torn_erase :
    (∀ n, (Runs.run (logStore id).stepOneShot (OneShot.start smallLog) (logTwice 1)).restored.count n
      ≤ 1) ∧
    ∀ n, (Runs.run cdrStore.stepOneShot (OneShot.start emptyCdr) (cdrTwice 1)).restored.count n ≤ 1 :=
  ⟨(restored_at_most_once id smallLog emptyCdr (logTwice 1) (cdrTwice 1)).1 (by decide +kernel),
    (restored_at_most_once id smallLog emptyCdr (logTwice 1) (cdrTwice 1)).2 (by decide +kernel)⟩

/-- **An erase that fails at once.**  The persist succeeds, and so do both restores. -/
theorem failed_erase_restores_twice :
    ¬ (∀ n ∈ (Runs.run (logStore id).stepOneShot (OneShot.start smallLog) (logTwice 0)).succeeded,
      (Runs.run (logStore id).stepOneShot (OneShot.start smallLog) (logTwice 0)).restored.count n
        ≤ 1) ∧
    ¬ ∀ n ∈ (Runs.run cdrStore.stepOneShot (OneShot.start emptyCdr) (cdrTwice 0)).succeeded,
      (Runs.run cdrStore.stepOneShot (OneShot.start emptyCdr) (cdrTwice 0)).restored.count n ≤ 1 := by
  decide +kernel

end WifiMemfault.OneShotDelivery
