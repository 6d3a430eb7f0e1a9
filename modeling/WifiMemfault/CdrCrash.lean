import WifiMemfault.CdrPath
import WifiMemfault.LogStateCrash

/-!
# Crash safety of the CDR partition

A history of the partition is a list of persists and restores.  Each of them finds the buffer and the
static variables in any state, since the SDK reads and marks between two calls and a reboot clears them.
Erases and writes may stop after any byte prefix, with an error return or with the power; opens and reads
succeed, as in the history of the log partition.

The header of this partition bounds the size from above only.  What makes a torn header harmless is its
byte 11, which `storedSnapshot` reads as erased until the last checked byte is out; the invariant of a
history is then that the partition stands for nothing or for one snapshot of the history.
-/

namespace WifiMemfault.CdrCrash

open EffectProgram ByteList NorFlash FwStatsCdr FwStatsImage FwStatsSpec CdrPath
open LogStateCrash (crashFaults)

inductive CdrFunction where
  | persistToFlash (driver : DriverStats)
  | restoreFromFlash

def CdrFunction.prog : CdrFunction → CdrProg ℤ
  | .persistToFlash driver => mfltNrf70FwStatsCdrPersistToFlash driver
  | .restoreFromFlash => mfltNrf70FwStatsCdrRestoreFromFlash

/-- The snapshot a call writes. -/
def CdrFunction.snapshot : CdrFunction → Option (List UInt8)
  | .persistToFlash driver => snapshotOf driver
  | .restoreFromFlash => none

/-- One call of a history: the function, the module it finds, and what becomes of each of its flash
calls. -/
structure CdrCall where
  fn : CdrFunction
  found : CdrModule
  outcomes : ℕ → Outcome

def crashDevice : Device (flashSig CdrObj CdrStatics Empty) Outcome CdrWorld :=
  flashDevice crashFaults fun _ w => w

/-- The call on its own: what it returned, if the power lasted, and the device afterwards. -/
def runCall (flash : List UInt8) (c : CdrCall) : Option ℤ × CdrWorld :=
  crashDevice.exec c.fn.prog c.outcomes (c.found.world flash)

/-- The partition after a history of calls. -/
def runCalls (flash : List UInt8) (cs : List CdrCall) : List UInt8 :=
  cs.foldl (fun fl c => (runCall fl c).2.flash) flash

/-- The snapshots the persists of a history wrote. -/
def persisted (cs : List CdrCall) : List (List UInt8) := cs.filterMap fun c => c.fn.snapshot

/-- A partition to start from: fully erased, or holding one completely persisted blob. -/
def StartsAs (flash : List UInt8) : Option (List UInt8) → Prop
  | none => flash = erased flash.length
  | some snap => SnapshotOk snap ∧ ∃ rest, flash = (cdrHdr snap.length).toBytes ++ snap ++ rest

theorem startsAs_stored {flash : List UInt8} {o : Option (List UInt8)} (h : StartsAs flash o) :
    storedSnapshot flash = o := by
  cases o with
  | none =>
    have hflash : flash = erased flash.length := h
    refine storedSnapshot_none fun hacc => accepts_first hacc ?_
    have hsize : cdrHdrSize = 16 := rfl
    have hle := hacc.1
    rw [hflash, List.getElem?_replicate, if_pos (by omega)]
  | some snap =>
    obtain ⟨hok, rest, rfl⟩ := h
    have hsplit : (cdrHdr snap.length).toBytes
        = checkedHdr snap.length ++ (cdrHdr snap.length).toBytes.drop 12 :=
      (List.take_append_drop 12 _).symm
    rw [hsplit]
    apply storedSnapshot_image hok _ rest
    rw [List.length_drop, toBytes_length]
    rfl

/-! ### One call -/

/-- Interrupted or not, a call leaves what was there, nothing, or its own snapshot. -/
theorem runCall_leavesStored (flash : List UInt8) (c : CdrCall) :
    LeavesStored (storedSnapshot flash) c.fn.snapshot (runCall flash c).2.flash := by
  have h : Ends (fun _ w' => LeavesStored (storedSnapshot flash) c.fn.snapshot w'.flash)
      (fun w' => LeavesStored (storedSnapshot flash) c.fn.snapshot w'.flash) (runCall flash c) := by
    refine always_exec ?_ c.outcomes
    cases c.fn with
    | persistToFlash driver =>
      exact always_mono
        (mfltNrf70FwStatsCdrPersistToFlash_crash driver (c.found.world flash) (c.found.bufferOk flash))
        (fun _ _ hleaves => hleaves.content) fun _ h => h
    | restoreFromFlash =>
      exact always_mono (mfltNrf70FwStatsCdrRestoreFromFlash_crash (c.found.world flash))
        (fun _ _ hleaves => leavesStored_of_kept hleaves.content) fun _ h => leavesStored_of_kept h
  generalize runCall flash c = run at h ⊢
  obtain ⟨_ | r, w⟩ := run
  · exact h
  · exact h

/-! ### A history of calls -/

/-- **The invariant.**  After any history the partition stands for nothing, for what it stood for at the
start, or for the snapshot of one persist of the history. -/
theorem runCalls_stored (cs : List CdrCall) (flash snap : List UInt8)
    (h : storedSnapshot (runCalls flash cs) = some snap) :
    storedSnapshot flash = some snap ∨ snap ∈ persisted cs := by
  induction cs generalizing flash with
  | nil => exact Or.inl h
  | cons c cs ih =>
    have htail : ∀ t, t ∈ persisted cs → t ∈ persisted (c :: cs) := by
      intro t ht
      obtain ⟨d, hd, hsnap⟩ := List.mem_filterMap.mp ht
      exact List.mem_filterMap.mpr ⟨d, List.mem_cons_of_mem c hd, hsnap⟩
    rcases ih (runCall flash c).2.flash h with hc | hc
    · rcases runCall_leavesStored flash c with hold | hnone | hnew
      · exact Or.inl (hold ▸ hc)
      · rw [hnone] at hc
        cases hc
      · exact Or.inr (List.mem_filterMap.mpr ⟨c, List.mem_cons_self, hnew ▸ hc⟩)
    · exact Or.inr (htail snap hc)

/-- What a restore that returned leaves in the module. -/
theorem restore_returns (flash : List UInt8) (found : CdrModule) (os : ℕ → Outcome) (r : ℤ)
    (hret : (runCall flash ⟨.restoreFromFlash, found, os⟩).1 = some r) :
    RestoreLeaves (found.world flash) r (runCall flash ⟨.restoreFromFlash, found, os⟩).2 ∧
      (∀ snap, storedSnapshot flash = some snap → r = 0) := by
  have hrule : Always crashDevice (RestoreLeaves (found.world flash)) (FlashKept (found.world flash))
      mfltNrf70FwStatsCdrRestoreFromFlash (found.world flash) :=
    mfltNrf70FwStatsCdrRestoreFromFlash_crash (found.world flash)
  have hleaves := always_exec hrule os
  have hzero : ∀ snap, storedSnapshot flash = some snap → Ends (fun err _ => err = 0)
      (fun _ => True) (runCall flash ⟨.restoreFromFlash, found, os⟩) :=
    fun snap hsnap => always_exec (restore_finds_stored (F := crashFaults) rfl rfl hsnap) os
  have hrun : runCall flash ⟨.restoreFromFlash, found, os⟩ =
    crashDevice.exec mfltNrf70FwStatsCdrRestoreFromFlash os (found.world flash) := rfl
  rw [← hrun] at hleaves
  generalize runCall flash ⟨.restoreFromFlash, found, os⟩ = run at hret hleaves hzero ⊢
  obtain ⟨r', w⟩ := run
  cases hret
  exact ⟨hleaves, hzero⟩

/-- **Crash safety.**  After any history from an erased or a complete partition, a restore that returns
has either returned zero, with the size and the bytes of one snapshot of the history, or an error, with
the buffer, its size and the ready flag as it found them. -/
theorem restore_single_snapshot (flash : List UInt8) (o : Option (List UInt8))
    (hstart : StartsAs flash o) (cs : List CdrCall) (found : CdrModule) (os : ℕ → Outcome) (r : ℤ)
    (hret : (runCall (runCalls flash cs) ⟨.restoreFromFlash, found, os⟩).1 = some r) :
    let w := (runCall (runCalls flash cs) ⟨.restoreFromFlash, found, os⟩).2
    (r = 0 ∧ ∃ snap, (o = some snap ∨ snap ∈ persisted cs) ∧
        w.statics = ⟨snap.length, true, 0, snap.length⟩ ∧
        (w.bytes .fwStatsBlob).take snap.length = snap) ∨
      (r ≠ 0 ∧ w.bytes .fwStatsBlob = found.blob ∧ w.statics = found.statics) := by
  obtain ⟨hleaves, hzero⟩ := restore_returns _ found os r hret
  intro w
  by_cases hr : r = 0
  · obtain ⟨snap, hstored, hstatics, hram⟩ := hleaves.copied hr
    obtain ⟨hok, -⟩ := storedSnapshot_ok hstored
    obtain ⟨-, hbytes⟩ := bufferOk_fill (found.bufferOk _) snap hok.le hram
    refine Or.inl ⟨hr, snap, ?_, hstatics, hbytes⟩
    rw [← startsAs_stored hstart]
    exact runCalls_stored cs flash snap hstored
  · have hnone : storedSnapshot (runCalls flash cs) = none := by
      by_contra hne
      obtain ⟨snap, hsnap⟩ := Option.ne_none_iff_exists'.mp hne
      exact hr (hzero snap hsnap)
    obtain ⟨-, hram⟩ := hleaves.rejected hnone
    refine Or.inr ⟨hr, ?_, (hleaves.kept hr).1⟩
    rw [World.bytes, hram]
    rfl

def clearedModule : CdrModule :=
  ⟨List.replicate nrf70FwStatsBlobMaxSize 0, List.length_replicate, ⟨0, false, 0, 0⟩⟩

/-- A complete persist, and one that loses power with 12 bytes of its header out, the last word of which
a restore does not look at. -/
def tornHeaderHistory : List CdrCall :=
  [⟨.persistToFlash (.stats [1, 2]), clearedModule, fun _ => .ok⟩,
    ⟨.persistToFlash (.stats [3, 4, 5]), clearedModule,
      fun i => if i = 14 then .powerLoss 12 else .ok⟩]

theorem restore_single_snapshot_torn_header :
    let w := (runCall (runCalls (erased 24) tornHeaderHistory)
      ⟨.restoreFromFlash, clearedModule, fun _ => .ok⟩).2
    ((0 : ℤ) = 0 ∧ ∃ snap, (none = some snap ∨ snap ∈ persisted tornHeaderHistory) ∧
        w.statics = ⟨snap.length, true, 0, snap.length⟩ ∧
        (w.bytes .fwStatsBlob).take snap.length = snap) ∨
      ((0 : ℤ) ≠ 0 ∧ w.bytes .fwStatsBlob = clearedModule.blob ∧ w.statics = clearedModule.statics) :=
  restore_single_snapshot (erased 24) none rfl tornHeaderHistory clearedModule (fun _ => .ok) 0
    (by decide +kernel)

end WifiMemfault.CdrCrash
