import WifiMemfault.FwStatsSpec
import WifiMemfault.Lib.Runs

/-!
# The CDR path of the device

The CDR source, its partition and the SDK's calls together, as a state machine.  The button collects, the
delayed work persists, `on_connect` restores, and the SDK asks, reads and marks, in any order; each call
is one step, and any flash call may fail after part of its effect.

Snapshots are numbered in the order of their collection.  `CdrSystem` keeps beside the world which
snapshot the static variables announce, which one the partition stands for, and which ones have been
read out; `CdrInv` says that these records are true.
-/

namespace WifiMemfault.CdrPath

open EffectProgram ByteList NorFlash FwStatsCdr FwStatsImage FwStatsSpec

/-- Any flash call may fail, also after part of its effect; the power stays on. -/
def cdrFaults : FaultModel := ⟨fun _ => true, true, false⟩

def cdrDevice : Device (flashSig CdrObj CdrStatics Empty) Outcome CdrWorld :=
  flashDevice cdrFaults fun _ w => w

structure CdrSystem where
  world : CdrWorld
  /-- The snapshots collected so far.  One the partition held at boot counts as the first. -/
  collected : List (List UInt8)
  /-- The snapshot that is ready in the buffer. -/
  inRam : Option ℕ
  /-- The snapshot the partition stands for. -/
  inFlash : Option ℕ
  /-- The snapshots that were ready when the SDK marked them read, in that order. -/
  readOut : List ℕ
  /-- A restore has failed halfway and left part of another snapshot in the buffer. -/
  mixed : Bool

inductive CdrEvent where
  | collect (driver : DriverStats)
  | persistToFlash (driver : DriverStats) (os : ℕ → Outcome)
  | restoreFromFlash (os : ℕ → Outcome)
  | hasCdr
  | readData (offset bufLen : ℕ)
  | markCdrRead

/-- After a boot with this partition. -/
def cdrBoot (flash : List UInt8) : CdrSystem where
  world := ⟨flash, fun _ => some (List.replicate nrf70FwStatsBlobMaxSize 0), ⟨0, false, 0, 0⟩⟩
  collected := (storedSnapshot flash).toList
  inRam := none
  inFlash := (storedSnapshot flash).map fun _ => 0
  readOut := []
  mixed := false

/-! ### The steps -/

/-- The outcomes of a call that makes no flash call. -/
def noFlashCalls : ℕ → Outcome := fun _ => .ok

/-- A partition that is `snap`'s if it holds anything. -/
def flashOwner (flash : List UInt8) (snap : Option ℕ) : Option ℕ :=
  if Accepts flash then snap else none

namespace CdrSystem

variable (s : CdrSystem)

def restoreRun (os : ℕ → Outcome) : Option ℤ × CdrWorld :=
  cdrDevice.exec mfltNrf70FwStatsCdrRestoreFromFlash os s.world

/-- The records after a collection that left the world `w`. -/
def afterCollect (driver : DriverStats) (w : CdrWorld) : CdrSystem :=
  match snapshotOf driver with
  | some snap =>
    { s with
      world := w
      collected := s.collected ++ [snap]
      inRam := some s.collected.length
      mixed := false }
  | none => { s with world := w, inRam := none }

/-- The snapshot a persist may have left in the partition: the old one until the erase is done. -/
def persistOwner (driver : DriverStats) (os : ℕ → Outcome) : Option ℕ :=
  if (cdrDevice.exec (persistErase driver) os s.world).1 = some 0 then some s.collected.length
  else s.inFlash

end CdrSystem

def stepCdr (s : CdrSystem) : CdrEvent → CdrSystem
  | .collect driver =>
    s.afterCollect driver
      (cdrDevice.exec (mfltNrf70FwStatsCdrCollect driver) noFlashCalls s.world).2
  | .persistToFlash driver os =>
    let w := (cdrDevice.exec (mfltNrf70FwStatsCdrPersistToFlash driver) os s.world).2
    { s.afterCollect driver w with inFlash := flashOwner w.flash (s.persistOwner driver os) }
  | .restoreFromFlash os =>
    let w := (s.restoreRun os).2
    let inFlash := flashOwner w.flash s.inFlash
    if (s.restoreRun os).1 = some 0 then
      { s with world := w, inRam := s.inFlash, inFlash := inFlash, mixed := false }
    else
      { s with
        world := w
        inFlash := inFlash
        mixed := s.mixed || w.bytes .fwStatsBlob ≠ s.world.bytes .fwStatsBlob }
  | .hasCdr => { s with world := (cdrDevice.exec hasCdrCb noFlashCalls s.world).2 }
  | .readData offset bufLen =>
    { s with world := (cdrDevice.exec (readDataCb offset bufLen) noFlashCalls s.world).2 }
  | .markCdrRead =>
    { s with
      world := (cdrDevice.exec markCdrReadCb noFlashCalls s.world).2
      readOut := if s.world.statics.dataReady then s.readOut ++ s.inRam.toList else s.readOut
      inRam := none }

/-! ### What each call does -/

/-- Every call returns, and where it returns its rule holds. -/
theorem exec_always {α : Type} {p : CdrProg α} {w : CdrWorld} {Q : α → CdrWorld → Prop}
    (h : Always cdrDevice Q (fun _ => True) p w) (os : ℕ → Outcome) :
    ∃ a w', cdrDevice.exec p os w = (some a, w') ∧ Q a w' :=
  always_powered (F := cdrFaults) rfl h os

/-- A program that can only end in one way does. -/
theorem exec_of_always {α : Type} {p : CdrProg α} {w w' : CdrWorld} {a : α} (os : ℕ → Outcome)
    (h : Always cdrDevice (fun b v => b = a ∧ v = w') (fun _ => True) p w) :
    cdrDevice.exec p os w = (some a, w') := by
  obtain ⟨b, v, hexec, rfl, rfl⟩ := exec_always h os
  exact hexec

theorem collect_exec (driver : DriverStats) (os : ℕ → Outcome) (w : CdrWorld) :
    cdrDevice.exec (mfltNrf70FwStatsCdrCollect driver) os w
      = (some (collectErr driver), collectedWorld driver w) :=
  exec_of_always os ((mfltNrf70FwStatsCdrCollect_always driver _ w).mpr ⟨rfl, rfl⟩)

theorem collect_step (s : CdrSystem) (driver : DriverStats) :
    stepCdr s (.collect driver) = s.afterCollect driver (collectedWorld driver s.world) := by
  rw [stepCdr, collect_exec]

/-- The buffer, an array of 1024 bytes. -/
def BufferOk (w : CdrWorld) : Prop :=
  ∃ bs, w.ram .fwStatsBlob = some bs ∧ bs.length = nrf70FwStatsBlobMaxSize

theorem bufferOk_fill {w w' : CdrWorld} (h : BufferOk w) (xs : List UInt8)
    (hxs : xs.length ≤ nrf70FwStatsBlobMaxSize) (hram : w'.ram = (w.fill .fwStatsBlob xs).ram) :
    BufferOk w' ∧ (w'.bytes .fwStatsBlob).take xs.length = xs := by
  obtain ⟨bs, hbs, hlen⟩ := h
  have hfill : w'.ram .fwStatsBlob = some (overwrite 0 xs bs) := by
    rw [hram]
    exact World.fill_of_some w .fwStatsBlob xs bs hbs
  refine ⟨⟨_, hfill, ?_⟩, ?_⟩
  · rw [overwrite_length _ _ _ (by omega), hlen]
  · rw [World.bytes, hfill]
    exact take_overwrite_zero xs bs

/-- What a call finds in the module: the buffer, an array of 1024 bytes, and the static variables. -/
structure CdrModule where
  blob : List UInt8
  blob_length : blob.length = nrf70FwStatsBlobMaxSize
  statics : CdrStatics

def CdrModule.world (m : CdrModule) (flash : List UInt8) : CdrWorld :=
  ⟨flash, fun _ => some m.blob, m.statics⟩

theorem CdrModule.bufferOk (m : CdrModule) (flash : List UInt8) : BufferOk (m.world flash) :=
  ⟨m.blob, rfl, m.blob_length⟩

/-- What a collection leaves in the buffer and the static variables. -/
theorem collectedWorld_some {driver : DriverStats} {snap : List UInt8} {w : CdrWorld}
    (hsnap : snapshotOf driver = some snap) (hbuf : BufferOk w) :
    BufferOk (collectedWorld driver w) ∧
      ((collectedWorld driver w).bytes .fwStatsBlob).take snap.length = snap ∧
      (collectedWorld driver w).statics.dataReady = true ∧
      (collectedWorld driver w).statics.blobSize = snap.length := by
  have hram : (collectedWorld driver w).ram = (w.fill .fwStatsBlob snap).ram := by
    rw [collectedWorld, hsnap]
  have hfill := bufferOk_fill hbuf snap (snapshotOf_ok hsnap).le hram
  refine ⟨hfill.1, hfill.2, ?_, ?_⟩
  · rw [collectedWorld, hsnap]
  · rw [collectedWorld, hsnap]

/-- What a partition may stand for after a call: what it stood for, nothing, or the snapshot the call
wrote. -/
def LeavesStored (old new : Option (List UInt8)) (flash : List UInt8) : Prop :=
  storedSnapshot flash = old ∨ storedSnapshot flash = none ∨ storedSnapshot flash = new

theorem leavesStored_of_kept {w w' : CdrWorld} {new : Option (List UInt8)} (h : FlashKept w w') :
    LeavesStored (storedSnapshot w.flash) new w'.flash := by
  rcases h with h | h
  · exact Or.inl (congrArg storedSnapshot h)
  · exact Or.inr (Or.inl h)

theorem leavesStored_of_holds {w : CdrWorld} {old : Option (List UInt8)} {snap : List UInt8}
    (h : HoldsAtMost snap w) : LeavesStored old (some snap) w.flash := by
  rcases h with h | h
  · exact Or.inr (Or.inl h)
  · exact Or.inr (Or.inr h)

/-- What a persist that returned `err` leaves: the collection, and in the partition the old snapshot,
nothing or the new one. -/
structure PersistLeaves (driver : DriverStats) (w : CdrWorld) (err : ℤ) (w' : CdrWorld) : Prop where
  ram_eq : w'.ram = (collectedWorld driver w).ram
  statics_eq : w'.statics = (collectedWorld driver w).statics
  content : LeavesStored (storedSnapshot w.flash) (snapshotOf driver) w'.flash
  collected : err = 0 → ∃ snap, snapshotOf driver = some snap

/-- After a collection and a complete erase the write of a persist finds what it needs. -/
theorem persistWrite_erased {F : FaultModel} {outer : Empty → CdrWorld → CdrWorld} {driver : DriverStats}
    {w w' : CdrWorld} (hbuf : BufferOk w) (herase : EraseLeaves driver w 0 w') :
    ∃ snap, snapshotOf driver = some snap ∧
      Always (flashDevice F outer) (WriteLeaves snap w') (HoldsAtMost snap) persistWrite w' := by
  obtain ⟨hflash, snap, hsnap, hroom⟩ := herase.erased rfl
  obtain ⟨-, hbytes, -, hsize⟩ := collectedWorld_some hsnap hbuf
  have hsplit : w'.flash = erased cdrHdrSize ++ erased (w.flash.length - cdrHdrSize) ++ [] := by
    rw [hflash, List.append_nil, List.replicate_append_replicate]
    congr 1
    omega
  have hram : w'.bytes .fwStatsBlob = (collectedWorld driver w).bytes .fwStatsBlob := by
    rw [World.bytes, herase.ram_eq, World.bytes]
  refine ⟨snap, hsnap, persistWrite_crash snap (snapshotOf_ok hsnap) w' _ hsplit (by omega) ?_ ?_⟩
  · rw [herase.statics_eq, hsize]
  · rw [hram, hbytes]

theorem mfltNrf70FwStatsCdrPersistToFlash_crash {F : FaultModel} {outer : Empty → CdrWorld → CdrWorld}
    (driver : DriverStats) (w : CdrWorld) (hbuf : BufferOk w) :
    Always (flashDevice F outer) (PersistLeaves driver w)
      (fun w' => LeavesStored (storedSnapshot w.flash) (snapshotOf driver) w'.flash)
      (mfltNrf70FwStatsCdrPersistToFlash driver) w := by
  have hpersist : mfltNrf70FwStatsCdrPersistToFlash driver =
    persistErase driver >>= fun err => if err ≠ 0 then .ret err else persistWrite := rfl
  rw [hpersist, always_bind]
  refine always_mono (persistErase_crash driver w) (fun err w' herase => ?_)
    fun w' h => leavesStored_of_kept h
  by_cases herr : err = 0
  · subst herr
    rw [if_neg (by decide)]
    obtain ⟨snap, hsnap, hwrite⟩ := persistWrite_erased hbuf herase
    rw [hsnap]
    refine always_mono hwrite (fun err w'' hleaves => ?_) fun _ h => leavesStored_of_holds h
    refine ⟨hleaves.ram_eq.trans herase.ram_eq, hleaves.statics_eq.trans herase.statics_eq, ?_,
      fun _ => ⟨snap, hsnap⟩⟩
    rw [hsnap]
    exact leavesStored_of_holds hleaves.content
  · rw [if_pos herr]
    exact ⟨herase.ram_eq, herase.statics_eq, leavesStored_of_kept (herase.kept herr),
      fun h => absurd h herr⟩

theorem persist_exec (driver : DriverStats) (os : ℕ → Outcome) {w : CdrWorld} (hbuf : BufferOk w) :
    ∃ err w', cdrDevice.exec (mfltNrf70FwStatsCdrPersistToFlash driver) os w = (some err, w') ∧
      PersistLeaves driver w err w' :=
  exec_always (always_mono (mfltNrf70FwStatsCdrPersistToFlash_crash driver w hbuf) (fun _ _ h => h)
    fun _ _ => trivial) os

/-- The partition after a persist, and whose it is. -/
inductive PersistFlash (s : CdrSystem) (driver : DriverStats) (flash : List UInt8) :
    Option ℕ → Prop where
  | kept (h : flash = s.world.flash) : PersistFlash s driver flash (flashOwner flash s.inFlash)
  | empty (h : storedSnapshot flash = none) : PersistFlash s driver flash none
  | stored (snap : List UInt8) (hcol : snapshotOf driver = some snap)
      (h : storedSnapshot flash = some snap) : PersistFlash s driver flash (some s.collected.length)

theorem world_eq_of {w v : CdrWorld} (hram : w.ram = v.ram) (hstatics : w.statics = v.statics) :
    w = { v with flash := w.flash } := by
  obtain ⟨flash, ram, statics⟩ := w
  simp only at hram hstatics
  rw [hram, hstatics]

theorem persist_step (s : CdrSystem) (hbuf : BufferOk s.world) (driver : DriverStats)
    (os : ℕ → Outcome) :
    ∃ flash owner, PersistFlash s driver flash owner ∧
      stepCdr s (.persistToFlash driver os) =
        { s.afterCollect driver { collectedWorld driver s.world with flash := flash } with
          inFlash := owner } := by
  obtain ⟨err, w, hexec, herase⟩ := exec_always (persistErase_always driver s.world) os
  obtain ⟨os', hbind⟩ := Device.exec_bind cdrDevice (persistErase driver)
    (fun err => if err ≠ 0 then .ret err else persistWrite) os s.world
  have hpersist : mfltNrf70FwStatsCdrPersistToFlash driver =
    persistErase driver >>= fun err => if err ≠ 0 then .ret err else persistWrite := rfl
  rw [hexec] at hbind
  by_cases herr : err = 0
  · subst herr
    obtain ⟨snap, hsnap, hrule⟩ := persistWrite_erased hbuf herase
    obtain ⟨err', w', hwrite, hleaves⟩ :=
      exec_always (always_mono hrule (fun _ _ h => h) fun _ _ => trivial) os'
    have hw' := world_eq_of (hleaves.ram_eq.trans herase.ram_eq)
      (hleaves.statics_eq.trans herase.statics_eq)
    simp only [ne_eq, not_true_eq_false, if_false, hwrite] at hbind
    refine ⟨w'.flash, flashOwner w'.flash (some s.collected.length), ?_, ?_⟩
    · rcases hleaves.content with h | h
      · rw [flashOwner, if_neg (not_accepts_of_none h)]
        exact .empty h
      · rw [flashOwner, if_pos (accepts_of_stored h)]
        exact .stored snap hsnap h
    · rw [stepCdr, hpersist, hbind, CdrSystem.persistOwner, hexec, if_pos rfl, ← hw']
  · have hw := world_eq_of herase.ram_eq herase.statics_eq
    simp only [ne_eq, herr, not_false_eq_true, if_true, Device.exec_ret] at hbind
    refine ⟨w.flash, flashOwner w.flash s.inFlash, ?_, ?_⟩
    · rcases herase.kept herr with h | h
      · rw [h]
        exact .kept rfl
      · rw [flashOwner, if_neg (not_accepts_of_none h)]
        exact .empty h
    · rw [stepCdr, hpersist, hbind, CdrSystem.persistOwner, hexec, if_neg (by simp [herr]), ← hw]

theorem restore_step (s : CdrSystem) (os : ℕ → Outcome) :
    ∃ err w, s.restoreRun os = (some err, w) ∧ RestoreLeaves s.world err w :=
  exec_always (mfltNrf70FwStatsCdrRestoreFromFlash_always s.world) os

theorem hasCdrCb_exec (w : CdrWorld) : cdrDevice.exec hasCdrCb noFlashCalls w =
    if w.statics.dataReady = false ∨ w.statics.blobSize = 0 then (some none, w)
    else (some (some w.statics.blobSize),
      { w with statics := { w.statics with dataSizeBytes := w.statics.blobSize } }) := by
  show cdrDevice.exec (if w.statics.dataReady = false ∨ w.statics.blobSize = 0 then .ret none
    else .call (.putStatics { w.statics with dataSizeBytes := w.statics.blobSize }) fun _ =>
      .ret (some w.statics.blobSize)) noFlashCalls w = _
  split
  · rfl
  · rfl

theorem readDataCb_exec (offset bufLen : ℕ) (w : CdrWorld) :
    cdrDevice.exec (readDataCb offset bufLen) noFlashCalls w =
      if offset ≥ w.statics.blobSize then
        (some none, { w with statics := { w.statics with readOffset := offset } })
      else
        (some (some (((w.bytes .fwStatsBlob).drop offset).take
            (min bufLen (w.statics.blobSize - offset)))),
          { w with statics := { w.statics with
            readOffset := offset + min bufLen (w.statics.blobSize - offset) } }) := by
  have hmin : (if bufLen < w.statics.blobSize - offset then bufLen else w.statics.blobSize - offset)
      = min bufLen (w.statics.blobSize - offset) := by
    split
    · omega
    · omega
  rw [← hmin]
  show cdrDevice.exec (if offset ≥ w.statics.blobSize then .ret none
    else .call (.load .fwStatsBlob offset
        (if bufLen < w.statics.blobSize - offset then bufLen else w.statics.blobSize - offset))
      fun bytes => modifyStatics (fun s => { s with readOffset := s.readOffset +
          if bufLen < w.statics.blobSize - offset then bufLen else w.statics.blobSize - offset })
        >>= fun _ => .ret (some bytes))
    noFlashCalls { w with statics := { w.statics with readOffset := offset } } = _
  split
  · rfl
  · rfl

theorem markCdrReadCb_exec (w : CdrWorld) : cdrDevice.exec markCdrReadCb noFlashCalls w =
    (some (), { w with statics := ⟨0, false, 0, 0⟩ }) := rfl

/-! ### The records are true -/

/-- The snapshot with this number. -/
def CdrSystem.snapshot (s : CdrSystem) (i : ℕ) : Option (List UInt8) := s.collected[i]?

/-- The records of a state and its bytes agree. -/
structure CdrInv (s : CdrSystem) : Prop where
  buffer : BufferOk s.world
  /-- The partition stands for the snapshot on record. -/
  flash : storedSnapshot s.world.flash = s.inFlash.bind s.snapshot
  flash_lt : ∀ f, s.inFlash = some f → f < s.collected.length
  /-- What is ready is the snapshot on record, unless it is mixed. -/
  ready : s.world.statics.dataReady = s.inRam.isSome
  ram : ∀ r, s.inRam = some r → ∃ snap, s.snapshot r = some snap ∧
    s.world.statics.blobSize = snap.length ∧
    (s.mixed = false → (s.world.bytes .fwStatsBlob).take snap.length = snap)

theorem cdrInv_boot (flash : List UInt8) : CdrInv (cdrBoot flash) := by
  refine ⟨⟨_, rfl, List.length_replicate⟩, ?_, ?_, rfl, ?_⟩
  · show storedSnapshot flash = ((storedSnapshot flash).map fun _ => 0).bind
      fun i => (storedSnapshot flash).toList[i]?
    cases storedSnapshot flash with
    | none => rfl
    | some snap => rfl
  · intro f hf
    show f < (storedSnapshot flash).toList.length
    change (storedSnapshot flash).map (fun _ => 0) = some f at hf
    cases hs : storedSnapshot flash with
    | none => simp [hs] at hf
    | some snap =>
      rw [hs] at hf
      cases hf
      exact Nat.one_pos
  · intro r hr
    cases hr

variable {s : CdrSystem}

/-- A collection adds one snapshot, or leaves none ready. -/
theorem afterCollect_cases (s : CdrSystem) (driver : DriverStats) (w : CdrWorld) :
    (∃ snap, snapshotOf driver = some snap ∧ s.afterCollect driver w =
      { s with
        world := w
        collected := s.collected ++ [snap]
        inRam := some s.collected.length
        mixed := false }) ∨
    (snapshotOf driver = none ∧ s.afterCollect driver w = { s with world := w, inRam := none }) := by
  rw [CdrSystem.afterCollect]
  cases h : snapshotOf driver with
  | none => exact Or.inr ⟨rfl, rfl⟩
  | some snap => exact Or.inl ⟨snap, rfl, rfl⟩

/-- Snapshots keep their numbers. -/
theorem snapshot_append {collected : List (List UInt8)} {i : ℕ} (snap : List UInt8)
    (h : i < collected.length) : (collected ++ [snap])[i]? = collected[i]? :=
  List.getElem?_append_left h

theorem stored_snapshot (hinv : CdrInv s) {f : ℕ} (hf : s.inFlash = some f) :
    ∃ snap, storedSnapshot s.world.flash = some snap ∧ s.snapshot f = some snap := by
  have hlt := hinv.flash_lt f hf
  refine ⟨s.collected[f], ?_, List.getElem?_eq_getElem hlt⟩
  rw [hinv.flash, hf]
  exact List.getElem?_eq_getElem hlt

theorem flashOwner_self (hinv : CdrInv s) : flashOwner s.world.flash s.inFlash = s.inFlash := by
  cases hf : s.inFlash with
  | none => simp [flashOwner]
  | some f =>
    obtain ⟨snap, hsnap, -⟩ := stored_snapshot hinv hf
    exact if_pos (accepts_of_stored hsnap)

/-- The record of the partition stays true when its content is kept or lost. -/
theorem flashOwner_true (hinv : CdrInv s) {flash : List UInt8}
    (h : flash = s.world.flash ∨ storedSnapshot flash = none) :
    storedSnapshot flash = (flashOwner flash s.inFlash).bind s.snapshot ∧
      ∀ f, flashOwner flash s.inFlash = some f → s.inFlash = some f := by
  rcases h with rfl | h
  · rw [flashOwner_self hinv]
    exact ⟨hinv.flash, fun f hf => hf⟩
  · rw [flashOwner, if_neg (not_accepts_of_none h), h]
    exact ⟨rfl, fun f hf => by cases hf⟩

/-- The record of the partition after a collection and what a persist has made of it. -/
theorem persistFlash_true (hinv : CdrInv s) {driver : DriverStats} {flash : List UInt8}
    {owner : Option ℕ} (h : PersistFlash s driver flash owner) (w : CdrWorld) :
    storedSnapshot flash = owner.bind (s.afterCollect driver w).snapshot ∧
      ∀ f, owner = some f → f < (s.afterCollect driver w).collected.length := by
  have hkeep : ∀ f, f < s.collected.length →
      (s.afterCollect driver w).snapshot f = s.snapshot f ∧
        f < (s.afterCollect driver w).collected.length := by
    intro f hf
    rcases afterCollect_cases s driver w with ⟨snap, -, hs⟩ | ⟨-, hs⟩
    · rw [hs]
      refine ⟨snapshot_append snap hf, ?_⟩
      simp only [List.length_append, List.length_singleton]
      omega
    · rw [hs]
      exact ⟨rfl, hf⟩
  cases h with
  | kept hflash =>
    subst hflash
    rw [flashOwner_self hinv]
    refine ⟨?_, fun f hf => (hkeep f (hinv.flash_lt f hf)).2⟩
    cases hf : s.inFlash with
    | none => rw [hinv.flash, hf]; rfl
    | some f =>
      rw [hinv.flash, hf]
      exact (hkeep f (hinv.flash_lt f hf)).1.symm
  | empty hnone => exact ⟨hnone, fun f hf => by cases hf⟩
  | stored snap hcol hsnap =>
    rcases afterCollect_cases s driver w with ⟨snap', hcol', hs⟩ | ⟨hcol', -⟩
    · rw [hcol] at hcol'
      cases hcol'
      rw [hs, hsnap]
      refine ⟨?_, fun f hf => ?_⟩
      · show some snap = (s.collected ++ [snap])[s.collected.length]?
        rw [List.getElem?_concat_length]
      · cases hf
        simp only [List.length_append, List.length_singleton]
        omega
    · rw [hcol] at hcol'
      cases hcol'

theorem cdrInv_afterCollect (hinv : CdrInv s) {driver : DriverStats} {flash : List UInt8}
    {owner : Option ℕ} (h : PersistFlash s driver flash owner) :
    CdrInv { s.afterCollect driver { collectedWorld driver s.world with flash := flash } with
      inFlash := owner } := by
  obtain ⟨htrue, hlt⟩ :=
    persistFlash_true hinv h { collectedWorld driver s.world with flash := flash }
  rcases afterCollect_cases s driver { collectedWorld driver s.world with flash := flash } with
    ⟨snap, hcol, hs⟩ | ⟨hcol, hs⟩
  · obtain ⟨hbuf, hbytes, hready, hsize⟩ := collectedWorld_some hcol hinv.buffer
    rw [hs] at htrue hlt ⊢
    refine ⟨hbuf, htrue, hlt, hready, ?_⟩
    intro r hr
    cases hr
    exact ⟨snap, List.getElem?_concat_length, hsize, fun _ => hbytes⟩
  · rw [hs] at htrue hlt ⊢
    have hworld : collectedWorld driver s.world
        = { s.world with statics := ⟨0, false, 0, s.world.statics.dataSizeBytes⟩ } := by
      rw [collectedWorld, hcol]
    refine ⟨?_, htrue, hlt, ?_, fun r hr => by cases hr⟩
    · rw [hworld]
      exact hinv.buffer
    · rw [hworld]
      rfl

/-- A collection is a persist that does not get to its flash calls. -/
theorem collect_keeps_flash (hinv : CdrInv s) (driver : DriverStats) :
    stepCdr s (.collect driver) =
      { s.afterCollect driver { collectedWorld driver s.world with flash := s.world.flash } with
        inFlash := flashOwner s.world.flash s.inFlash } := by
  have hw : { collectedWorld driver s.world with flash := s.world.flash }
      = collectedWorld driver s.world := by
    rw [← collectedWorld_flash driver s.world]
  rw [collect_step, flashOwner_self hinv, hw]
  rcases afterCollect_cases s driver (collectedWorld driver s.world) with ⟨snap, -, hs⟩ | ⟨-, hs⟩
  · rw [hs]
  · rw [hs]

theorem cdrInv_restore (hinv : CdrInv s) (os : ℕ → Outcome) :
    CdrInv (stepCdr s (.restoreFromFlash os)) := by
  obtain ⟨err, w, hexec, hleaves⟩ := restore_step s os
  obtain ⟨htrue, howner⟩ := flashOwner_true hinv hleaves.content
  rw [stepCdr, hexec]
  by_cases herr : err = 0
  · subst herr
    rw [if_pos rfl]
    obtain ⟨snap, hstored, hstatics, hram⟩ := hleaves.copied rfl
    obtain ⟨hok, -⟩ := storedSnapshot_ok hstored
    obtain ⟨hbuf, hbytes⟩ := bufferOk_fill hinv.buffer snap hok.le hram
    have hflash : ∃ f, s.inFlash = some f ∧ s.snapshot f = some snap := by
      rw [hinv.flash] at hstored
      exact Option.bind_eq_some_iff.mp hstored
    obtain ⟨f, hf, hsnap⟩ := hflash
    refine ⟨hbuf, htrue, fun g hg => hinv.flash_lt g (howner g hg), ?_, ?_⟩
    · show w.statics.dataReady = s.inFlash.isSome
      rw [hstatics, hf]
      rfl
    · intro r hr
      have hrf : r = f := by
        have h' : s.inFlash = some r := hr
        rw [hf] at h'
        exact (Option.some.inj h').symm
      subst hrf
      refine ⟨snap, hsnap, ?_, fun _ => hbytes⟩
      show w.statics.blobSize = snap.length
      rw [hstatics]
  · rw [if_neg (by simp [herr])]
    obtain ⟨hstatics, xs, hxs, hram⟩ := hleaves.kept herr
    obtain ⟨hbuf, -⟩ := bufferOk_fill hinv.buffer xs hxs hram
    refine ⟨hbuf, htrue, fun g hg => hinv.flash_lt g (howner g hg), ?_, ?_⟩
    · show w.statics.dataReady = s.inRam.isSome
      rw [hstatics]
      exact hinv.ready
    · intro r hr
      obtain ⟨snap, hsnap, hsize, hbytes⟩ := hinv.ram r hr
      refine ⟨snap, hsnap, ?_, fun hmixed => ?_⟩
      · show w.statics.blobSize = snap.length
        rw [hstatics]
        exact hsize
      · obtain ⟨hm, hsame⟩ : s.mixed = false ∧ w.bytes .fwStatsBlob = s.world.bytes .fwStatsBlob := by
          simpa using hmixed
        show (w.bytes .fwStatsBlob).take snap.length = snap
        rw [hsame]
        exact hbytes hm

/-- Changing only the read offset and the metadata changes no record. -/
theorem cdrInv_statics (hinv : CdrInv s) (readOffset dataSizeBytes : ℕ) :
    CdrInv { s with world := { s.world with statics :=
      ⟨s.world.statics.blobSize, s.world.statics.dataReady, readOffset, dataSizeBytes⟩ } } :=
  ⟨hinv.buffer, hinv.flash, hinv.flash_lt, hinv.ready, hinv.ram⟩

theorem cdrInv_step (hinv : CdrInv s) (e : CdrEvent) : CdrInv (stepCdr s e) := by
  cases e with
  | collect driver =>
    rw [collect_keeps_flash hinv]
    exact cdrInv_afterCollect hinv (PersistFlash.kept rfl)
  | persistToFlash driver os =>
    obtain ⟨flash, owner, h, hs⟩ := persist_step s hinv.buffer driver os
    rw [hs]
    exact cdrInv_afterCollect hinv h
  | restoreFromFlash os => exact cdrInv_restore hinv os
  | hasCdr =>
    rw [stepCdr, hasCdrCb_exec]
    split
    · exact hinv
    · exact cdrInv_statics hinv _ _
  | readData offset bufLen =>
    rw [stepCdr, readDataCb_exec]
    split
    · exact cdrInv_statics hinv _ _
    · exact cdrInv_statics hinv _ _
  | markCdrRead =>
    exact ⟨hinv.buffer, hinv.flash, hinv.flash_lt, rfl, fun r hr => by cases hr⟩

/-- **The records are true in every run.** -/
theorem cdrInv_run (flash : List UInt8) (es : List CdrEvent) :
    CdrInv (Runs.run stepCdr (cdrBoot flash) es) := by
  have hstep : ∀ s e, CdrInv s → CdrInv (stepCdr s e) := fun _ e hinv => cdrInv_step hinv e
  exact Runs.run_invariant_always hstep es _ (cdrInv_boot flash)

end WifiMemfault.CdrPath
