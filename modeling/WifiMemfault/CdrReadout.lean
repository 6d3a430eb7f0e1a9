import WifiMemfault.CdrPath

/-!
# Reading a CDR out in pieces

The SDK asks for a CDR and then fetches it in as many reads as its packets need.  Here the six functions
of the source run in any order, with any answers of the driver and of the flash, and between two calls the
partition may change to anything.  What they leave is always consistent: the ready flag says that the size
is not zero, and the size fits the buffer.  From there every way of splitting the announced range into reads
yields the blob.
-/

namespace WifiMemfault.CdrReadout

open EffectProgram ByteList NorFlash FwStatsCdr FwStatsImage FwStatsSpec CdrPath

/-- A call of one of the six functions, or a partition with other bytes. -/
inductive ModuleEvent where
  | call (e : CdrEvent)
  | flashBecomes (flash : List UInt8)

def callWorld (w : CdrWorld) : CdrEvent → CdrWorld
  | .collect driver => (cdrDevice.exec (mfltNrf70FwStatsCdrCollect driver) noFlashCalls w).2
  | .persistToFlash driver os => (cdrDevice.exec (mfltNrf70FwStatsCdrPersistToFlash driver) os w).2
  | .restoreFromFlash os => (cdrDevice.exec mfltNrf70FwStatsCdrRestoreFromFlash os w).2
  | .hasCdr => (cdrDevice.exec hasCdrCb noFlashCalls w).2
  | .readData offset bufLen => (cdrDevice.exec (readDataCb offset bufLen) noFlashCalls w).2
  | .markCdrRead => (cdrDevice.exec markCdrReadCb noFlashCalls w).2

def stepModule (w : CdrWorld) : ModuleEvent → CdrWorld
  | .call e => callWorld w e
  | .flashBecomes flash => { w with flash := flash }

/-! ### The module is consistent -/

/-- The ready flag, the size and the buffer agree. -/
structure Consistent (w : CdrWorld) : Prop where
  buffer : BufferOk w
  ready_iff : w.statics.dataReady = true ↔ w.statics.blobSize ≠ 0
  size_le : w.statics.blobSize ≤ nrf70FwStatsBlobMaxSize

variable {w w' : CdrWorld}

theorem consistent_boot (flash : List UInt8) : Consistent (cdrBoot flash).world := by
  refine ⟨⟨_, rfl, List.length_replicate⟩, ?_, Nat.zero_le _⟩
  constructor
  · intro h
    cases h
  · intro h
    exact absurd rfl h

/-- Nothing but the buffer, the flag and the size matters. -/
theorem consistent_of_eq (h : Consistent w) (hram : w'.ram = w.ram)
    (hready : w'.statics.dataReady = w.statics.dataReady)
    (hsize : w'.statics.blobSize = w.statics.blobSize) : Consistent w' := by
  obtain ⟨bs, hbs, hlen⟩ := h.buffer
  refine ⟨⟨bs, by rw [hram]; exact hbs, hlen⟩, ?_, ?_⟩
  · rw [hready, hsize]
    exact h.ready_iff
  · rw [hsize]
    exact h.size_le

theorem consistent_collected (h : Consistent w) (driver : DriverStats) :
    Consistent (collectedWorld driver w) := by
  cases hsnap : snapshotOf driver with
  | some snap =>
    obtain ⟨hbuf, -, hready, hsize⟩ := collectedWorld_some hsnap h.buffer
    have hok := snapshotOf_ok hsnap
    have hpos := hok.pos
    refine ⟨hbuf, ?_, ?_⟩
    · rw [hready, hsize]
      exact ⟨fun _ => by omega, fun _ => rfl⟩
    · rw [hsize]
      exact hok.le
  | none =>
    have hworld : collectedWorld driver w
        = { w with statics := ⟨0, false, 0, w.statics.dataSizeBytes⟩ } := by
      rw [collectedWorld, hsnap]
    rw [hworld]
    refine ⟨h.buffer, ?_, Nat.zero_le _⟩
    constructor
    · intro hready
      cases hready
    · intro hsize
      exact absurd rfl hsize

theorem consistent_restore (h : Consistent w) {err : ℤ} (hleaves : RestoreLeaves w err w') :
    Consistent w' := by
  by_cases herr : err = 0
  · obtain ⟨snap, hstored, hstatics, hram⟩ := hleaves.copied herr
    obtain ⟨hok, -⟩ := storedSnapshot_ok hstored
    have hpos := hok.pos
    refine ⟨(bufferOk_fill h.buffer snap hok.le hram).1, ?_, ?_⟩
    · rw [hstatics]
      exact ⟨fun _ => by simp only; omega, fun _ => rfl⟩
    · rw [hstatics]
      exact hok.le
  · obtain ⟨hstatics, xs, hxs, hram⟩ := hleaves.kept herr
    refine ⟨(bufferOk_fill h.buffer xs hxs hram).1, ?_, ?_⟩
    · rw [hstatics]
      exact h.ready_iff
    · rw [hstatics]
      exact h.size_le

theorem consistent_call (h : Consistent w) (e : CdrEvent) : Consistent (callWorld w e) := by
  cases e with
  | collect driver =>
    rw [callWorld, collect_exec]
    exact consistent_collected h driver
  | persistToFlash driver os =>
    obtain ⟨err, w', hexec, hleaves⟩ := persist_exec driver os h.buffer
    rw [callWorld, hexec]
    refine consistent_of_eq (consistent_collected h driver) hleaves.ram_eq ?_ ?_
    · rw [hleaves.statics_eq]
    · rw [hleaves.statics_eq]
  | restoreFromFlash os =>
    obtain ⟨err, w', hexec, hleaves⟩ :=
      exec_always (mfltNrf70FwStatsCdrRestoreFromFlash_always w) os
    rw [callWorld, hexec]
    exact consistent_restore h hleaves
  | hasCdr =>
    rw [callWorld, hasCdrCb_exec]
    split
    · exact h
    · exact consistent_of_eq h rfl rfl rfl
  | readData offset bufLen =>
    rw [callWorld, readDataCb_exec]
    split
    · exact consistent_of_eq h rfl rfl rfl
    · exact consistent_of_eq h rfl rfl rfl
  | markCdrRead =>
    rw [callWorld, markCdrReadCb_exec]
    refine ⟨h.buffer, ?_, Nat.zero_le _⟩
    constructor
    · intro hready
      cases hready
    · intro hsize
      exact absurd rfl hsize

/-- **The invariant of every run.** -/
theorem consistent_run (flash : List UInt8) (es : List ModuleEvent) :
    Consistent (Runs.run stepModule (cdrBoot flash).world es) := by
  refine Runs.run_invariant_always (fun w e h => ?_) es _ (consistent_boot flash)
  cases e with
  | call e => exact consistent_call h e
  | flashBecomes flash => exact consistent_of_eq h rfl rfl rfl

/-! ### Reading in pieces -/

/-- The size `has_cdr_cb` announces, none if it returns false. -/
def announcedSize (w : CdrWorld) : Option ℕ := (cdrDevice.exec hasCdrCb noFlashCalls w).1.join

/-- Lengths that split a range of `remaining` bytes, each part starting inside the range. -/
def Splits : ℕ → List ℕ → Prop
  | remaining, [] => remaining = 0
  | remaining, len :: lens => 0 < remaining ∧ len ≤ remaining ∧ Splits (remaining - len) lens

/-- What consecutive `read_data_cb` calls copy, each of them if it returns true. -/
def readParts (w : CdrWorld) (offset : ℕ) : List ℕ → List (Option (List UInt8))
  | [] => []
  | len :: lens =>
    let read := cdrDevice.exec (readDataCb offset len) noFlashCalls w
    read.1.join :: readParts read.2 (offset + len) lens

/-- A copy out of the buffer stays inside the blob, and the blob inside the buffer. -/
def LoadInside : FlashOp CdrObj CdrStatics Empty → CdrWorld → Prop
  | .load src off len, w => off + len ≤ w.statics.blobSize ∧ w.statics.blobSize ≤ (w.bytes src).length
  | _, _ => True

theorem announcedSize_eq (h : Consistent w) :
    announcedSize w = if w.statics.dataReady then some w.statics.blobSize else none := by
  rw [announcedSize, hasCdrCb_exec]
  cases hready : w.statics.dataReady with
  | false => simp
  | true =>
    have hsize := h.ready_iff.mp hready
    simp [hsize]

theorem size_le_buffer (h : Consistent w) : w.statics.blobSize ≤ (w.bytes .fwStatsBlob).length := by
  obtain ⟨bs, hbs, hlen⟩ := h.buffer
  rw [World.bytes, hbs]
  show w.statics.blobSize ≤ bs.length
  rw [hlen]
  exact h.size_le

/-- A part of a splitting is copied whole, and the next read finds the same blob. -/
theorem readDataCb_inside (w : CdrWorld) {offset len : ℕ} (hoffset : offset < w.statics.blobSize)
    (hlen : offset + len ≤ w.statics.blobSize) :
    cdrDevice.exec (readDataCb offset len) noFlashCalls w =
      (some (some (((w.bytes .fwStatsBlob).drop offset).take len)),
        { w with statics := { w.statics with readOffset := offset + len } }) := by
  rw [readDataCb_exec, if_neg (by omega), Nat.min_eq_left (by omega)]

/-- Reading on from `offset` yields the rest of the blob. -/
theorem readParts_from (lens : List ℕ) (w : CdrWorld) (offset : ℕ)
    (hoffset : offset ≤ w.statics.blobSize) (hsplit : Splits (w.statics.blobSize - offset) lens) :
    ∃ parts : List (List UInt8), readParts w offset lens = parts.map some ∧
      parts.flatten
        = ((w.bytes .fwStatsBlob).drop offset).take (w.statics.blobSize - offset) := by
  induction lens generalizing w offset with
  | nil =>
    have hzero : w.statics.blobSize - offset = 0 := hsplit
    refine ⟨[], rfl, ?_⟩
    rw [hzero, List.take_zero]
    rfl
  | cons len lens ih =>
    obtain ⟨hpos, hlen, hrest⟩ := hsplit
    have hread := readDataCb_inside w (show offset < _ by omega) (show offset + len ≤ _ by omega)
    obtain ⟨parts, hparts, hflat⟩ :=
      ih { w with statics := { w.statics with readOffset := offset + len } } (offset + len)
        (by simp only; omega) (by rw [← Nat.sub_sub]; exact hrest)
    refine ⟨((w.bytes .fwStatsBlob).drop offset).take len :: parts, ?_, ?_⟩
    · rw [readParts, hread, hparts]
      rfl
    · have hsum : w.statics.blobSize - offset = len + (w.statics.blobSize - (offset + len)) := by
        omega
      rw [List.flatten_cons, hflat, hsum, List.take_add, List.drop_drop]
      rfl

/-- The rest of a read, once it has found its offset inside the blob. -/
def copyOut (offset copyLen : ℕ) : CdrProg (Option (List UInt8)) :=
  .call (.load .fwStatsBlob offset copyLen) fun bytes =>
    modifyStatics (fun s => { s with readOffset := s.readOffset + copyLen }) >>= fun _ =>
      .ret (some bytes)

theorem copyOut_loads {offset copyLen : ℕ} (hsize : offset + copyLen ≤ w.statics.blobSize)
    (hbuf : w.statics.blobSize ≤ (w.bytes .fwStatsBlob).length) :
    CallsMeet cdrDevice LoadInside (copyOut offset copyLen) w := by
  refine ⟨⟨hsize, hbuf⟩, fun _ => ?_⟩
  exact ⟨trivial, fun _ => ⟨trivial, fun _ => trivial⟩⟩

/-- No read copies past the blob, whatever its offset and its length. -/
theorem readDataCb_loads (h : Consistent w) (offset bufLen : ℕ) :
    CallsMeet cdrDevice LoadInside (readDataCb offset bufLen) w := by
  have hbuf := size_le_buffer h
  have hrest : CallsMeet cdrDevice LoadInside
      (if offset ≥ w.statics.blobSize then .ret none
        else copyOut offset (if bufLen < w.statics.blobSize - offset then bufLen
          else w.statics.blobSize - offset))
      { w with statics := { w.statics with readOffset := offset } } := by
    split
    · exact trivial
    · rename_i hoffset
      refine copyOut_loads ?_ hbuf
      simp only
      split
      · omega
      · omega
  exact ⟨trivial, fun _ => ⟨trivial, fun _ => ⟨trivial, fun _ => hrest⟩⟩⟩

/-- **Reading out.**  After any calls, with any answers and any partition in between: the ready flag says
that the size is not zero, the size fits the buffer, `has_cdr_cb` announces it exactly then, the reads of
every splitting return true and yield the blob, and no read copies past it. -/
theorem reads_yield_blob (flash : List UInt8) (es : List ModuleEvent) :
    let w := Runs.run stepModule (cdrBoot flash).world es
    (w.statics.dataReady = true ↔ w.statics.blobSize ≠ 0) ∧
      w.statics.blobSize ≤ nrf70FwStatsBlobMaxSize ∧
      announcedSize w = (if w.statics.dataReady then some w.statics.blobSize else none) ∧
      (∀ lens, Splits w.statics.blobSize lens → ∃ parts : List (List UInt8),
        readParts w 0 lens = parts.map some ∧
          parts.flatten = (w.bytes .fwStatsBlob).take w.statics.blobSize) ∧
      ∀ offset bufLen, CallsMeet cdrDevice LoadInside (readDataCb offset bufLen) w := by
  have h := consistent_run flash es
  intro w
  refine ⟨h.ready_iff, h.size_le, announcedSize_eq h, fun lens hsplit => ?_, readDataCb_loads h⟩
  exact readParts_from lens w 0 (Nat.zero_le _) hsplit

end WifiMemfault.CdrReadout
