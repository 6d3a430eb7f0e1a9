import WifiMemfault.CdrPath

/-!
# One upload session

The SDK asks whether there is a CDR, reads it in chunks at consecutive offsets and marks it read, while
the button, the delayed work and `on_connect` go on calling the other functions.  Buffer, size and ready
flag carry no generation, so a snapshot that is collected or restored between two of the SDK's calls is
read on from the middle and cleared with the first one.

`QuietTurn` excludes exactly this: in between, no collection gets statistics from the driver and no
restore finds a valid header.
-/

namespace WifiMemfault.CdrUpload

open EffectProgram ByteList NorFlash FwStatsCdr FwStatsImage FwStatsSpec CdrPath

/-- A session after its `has_cdr_cb`: the device, and what the SDK knows. -/
structure UploadSession where
  device : CdrSystem
  /-- The offset of the next read. -/
  offset : ℕ
  /-- What the reads have copied. -/
  got : List UInt8
  allTrue : Bool

inductive SessionTurn where
  | readData (bufLen : ℕ)
  | collect (driver : DriverStats)
  | persistToFlash (driver : DriverStats) (os : ℕ → Outcome)
  | restoreFromFlash (os : ℕ → Outcome)

/-- The size `has_cdr_cb` announces. -/
def announced (s : CdrSystem) : Option ℕ := (cdrDevice.exec hasCdrCb noFlashCalls s.world).1.join

def startSession (s : CdrSystem) : UploadSession := ⟨stepCdr s .hasCdr, 0, [], true⟩

/-- What a read at the session's offset copies, if it returns true. -/
def UploadSession.chunk (u : UploadSession) (bufLen : ℕ) : Option (List UInt8) :=
  (cdrDevice.exec (readDataCb u.offset bufLen) noFlashCalls u.device.world).1.join

def stepSession (u : UploadSession) : SessionTurn → UploadSession
  | .readData bufLen =>
    { device := stepCdr u.device (.readData u.offset bufLen)
      offset := u.offset + bufLen
      got := u.got ++ (u.chunk bufLen).getD []
      allTrue := u.allTrue && (u.chunk bufLen).isSome }
  | .collect driver => { u with device := stepCdr u.device (.collect driver) }
  | .persistToFlash driver os => { u with device := stepCdr u.device (.persistToFlash driver os) }
  | .restoreFromFlash os => { u with device := stepCdr u.device (.restoreFromFlash os) }

/-- What a session that has read everything owes: the bytes are the snapshot that was ready when it
started, of the announced size, and no other snapshot is there to be cleared. -/
def SessionSound (s : CdrSystem) (turns : List SessionTurn) : Prop :=
  let u := Runs.run stepSession (startSession s) turns
  ∀ n ∈ announced s, u.allTrue = true → n ≤ u.offset →
    u.got.length = n ∧ (∃ r ∈ s.inRam, s.snapshot r = some u.got) ∧
      ∀ r ∈ u.device.inRam, r ∈ s.inRam

/-- A turn that brings no other snapshot into the buffer. -/
def QuietTurn (u : UploadSession) : SessionTurn → Prop
  | .readData _ => True
  | .collect driver | .persistToFlash driver _ => snapshotOf driver = none
  | .restoreFromFlash _ => ¬ Accepts u.device.world.flash

instance (u : UploadSession) (t : SessionTurn) : Decidable (QuietTurn u t) :=
  match t with
  | .readData _ => inferInstanceAs (Decidable True)
  | .collect _ | .persistToFlash _ _ => inferInstanceAs (Decidable (_ = none))
  | .restoreFromFlash _ => inferInstanceAs (Decidable (¬ _))

/-- During a quiet session the buffer stays, and the snapshot in it is ready or has been dropped. -/
structure SessionInv (s : CdrSystem) (n : ℕ) (u : UploadSession) : Prop where
  cdr : CdrInv u.device
  bytes : u.device.world.bytes .fwStatsBlob = s.world.bytes .fwStatsBlob
  got : u.allTrue = true → u.got = (s.world.bytes .fwStatsBlob).take (min u.offset n)
  collected : u.device.collected = s.collected
  inRam : (u.device.inRam = s.inRam ∧ u.device.world.statics.blobSize = n) ∨
    (u.device.inRam = none ∧ u.device.world.statics.blobSize = 0)

variable {s : CdrSystem} {n : ℕ} {u : UploadSession}

theorem announced_size (h : n ∈ announced s) :
    s.world.statics.dataReady = true ∧ s.world.statics.blobSize = n ∧ 0 < n := by
  rw [announced, hasCdrCb_exec] at h
  split at h
  · cases h
  · rename_i hready
    rw [not_or, Bool.not_eq_false] at hready
    have hn : s.world.statics.blobSize = n := Option.some.inj h
    exact ⟨hready.1, hn, by omega⟩

theorem sessionInv_start (hinv : CdrInv s) (h : n ∈ announced s) :
    SessionInv s n (startSession s) := by
  obtain ⟨hready, hsize, hpos⟩ := announced_size h
  have hexec : stepCdr s .hasCdr = { s with world :=
      { s.world with statics := { s.world.statics with dataSizeBytes := n } } } := by
    rw [stepCdr, hasCdrCb_exec, if_neg, hsize]
    rw [not_or, Bool.not_eq_false]
    exact ⟨hready, by omega⟩
  refine ⟨cdrInv_step hinv .hasCdr, ?_, fun _ => ?_, ?_, Or.inl ⟨?_, ?_⟩⟩
  · rw [startSession, hexec]
    rfl
  · rw [startSession, Nat.zero_min, List.take_zero]
  · rw [startSession, hexec]
  · rw [startSession, hexec]
  · rw [startSession, hexec]
    exact hsize

/-- A collection without statistics drops what is ready. -/
theorem sessionInv_dropped (hinv : SessionInv s n u) {driver : DriverStats}
    (hquiet : snapshotOf driver = none) (flash : List UInt8) (owner : Option ℕ)
    (hcdr : CdrInv { u.device.afterCollect driver
      { collectedWorld driver u.device.world with flash := flash } with inFlash := owner }) :
    SessionInv s n { u with device := { u.device.afterCollect driver
      { collectedWorld driver u.device.world with flash := flash } with inFlash := owner } } := by
  have hworld : collectedWorld driver u.device.world = { u.device.world with
      statics := ⟨0, false, 0, u.device.world.statics.dataSizeBytes⟩ } := by
    rw [collectedWorld, hquiet]
  rcases afterCollect_cases u.device driver
    { collectedWorld driver u.device.world with flash := flash } with ⟨snap, h, -⟩ | ⟨-, hs⟩
  · rw [hquiet] at h
    cases h
  · rw [hworld] at hs hcdr ⊢
    rw [hs] at hcdr ⊢
    exact ⟨hcdr, hinv.bytes, hinv.got, hinv.collected, Or.inr ⟨rfl, rfl⟩⟩

theorem chunk_eq (u : UploadSession) (bufLen : ℕ) :
    u.chunk bufLen = if u.offset ≥ u.device.world.statics.blobSize then none
      else some (((u.device.world.bytes .fwStatsBlob).drop u.offset).take
        (min bufLen (u.device.world.statics.blobSize - u.offset))) := by
  rw [UploadSession.chunk, readDataCb_exec]
  split
  · rfl
  · rfl

/-- The next chunk continues the bytes read so far. -/
theorem take_append_chunk (bs : List UInt8) (offset bufLen n : ℕ) (h : offset < n) :
    bs.take (min offset n) ++ (bs.drop offset).take (min bufLen (n - offset))
      = bs.take (min (offset + bufLen) n) := by
  have hsum : min (offset + bufLen) n = offset + min bufLen (n - offset) := by omega
  rw [Nat.min_eq_left h.le, hsum, List.take_add]

theorem sessionInv_read (hinv : SessionInv s n u) (bufLen : ℕ) :
    SessionInv s n (stepSession u (.readData bufLen)) := by
  have hworld : (stepCdr u.device (.readData u.offset bufLen)).world.bytes .fwStatsBlob
        = u.device.world.bytes .fwStatsBlob ∧
      (stepCdr u.device (.readData u.offset bufLen)).world.statics.blobSize
        = u.device.world.statics.blobSize := by
    rw [stepCdr, readDataCb_exec]
    split
    · exact ⟨rfl, rfl⟩
    · exact ⟨rfl, rfl⟩
  refine ⟨cdrInv_step hinv.cdr (.readData u.offset bufLen), hworld.1.trans hinv.bytes,
    fun hall => ?_, hinv.collected, ?_⟩
  · obtain ⟨hbefore, hsome⟩ : u.allTrue = true ∧ (u.chunk bufLen).isSome = true := by
      simpa [stepSession] using hall
    rw [chunk_eq] at hsome
    show u.got ++ (u.chunk bufLen).getD [] = _
    rw [chunk_eq]
    split at hsome
    · cases hsome
    · rename_i hoff
      rw [if_neg hoff]
      -- a read returns true only while the announced snapshot is there
      have hsize : u.device.world.statics.blobSize = n := by
        rcases hinv.inRam with ⟨-, h⟩ | ⟨-, h⟩
        · exact h
        · omega
      rw [hinv.got hbefore, hinv.bytes, hsize, Option.getD_some]
      exact take_append_chunk _ _ _ _ (by omega)
  · rcases hinv.inRam with ⟨hr, hsize⟩ | ⟨hr, hsize⟩
    · exact Or.inl ⟨hr, hworld.2.trans hsize⟩
    · exact Or.inr ⟨hr, hworld.2.trans hsize⟩

theorem sessionInv_restore (hinv : SessionInv s n u) (os : ℕ → Outcome)
    (hquiet : ¬ Accepts u.device.world.flash) :
    SessionInv s n (stepSession u (.restoreFromFlash os)) := by
  have hcdr := cdrInv_step hinv.cdr (.restoreFromFlash os)
  obtain ⟨err, w, hexec, hleaves⟩ := restore_step u.device os
  obtain ⟨herr, hram⟩ := hleaves.rejected (storedSnapshot_none hquiet)
  obtain ⟨hstatics, -⟩ := hleaves.kept herr
  rw [stepCdr, hexec, if_neg (by simp [herr])] at hcdr
  rw [stepSession, stepCdr, hexec, if_neg (by simp [herr])]
  refine ⟨hcdr, ?_, hinv.got, hinv.collected, ?_⟩
  · show w.bytes .fwStatsBlob = _
    rw [World.bytes, hram]
    exact hinv.bytes
  · show (u.device.inRam = s.inRam ∧ w.statics.blobSize = n) ∨
      (u.device.inRam = none ∧ w.statics.blobSize = 0)
    rw [hstatics]
    exact hinv.inRam

theorem sessionInv_step (u : UploadSession) (t : SessionTurn) (hinv : SessionInv s n u)
    (hquiet : QuietTurn u t) : SessionInv s n (stepSession u t) := by
  cases t with
  | readData bufLen => exact sessionInv_read hinv bufLen
  | collect driver =>
    have hcdr := cdrInv_step hinv.cdr (.collect driver)
    rw [collect_keeps_flash hinv.cdr] at hcdr
    rw [stepSession, collect_keeps_flash hinv.cdr]
    exact sessionInv_dropped hinv hquiet _ _ hcdr
  | persistToFlash driver os =>
    have hcdr := cdrInv_step hinv.cdr (.persistToFlash driver os)
    obtain ⟨flash, owner, -, hs⟩ := persist_step u.device hinv.cdr.buffer driver os
    rw [hs] at hcdr
    rw [stepSession, hs]
    exact sessionInv_dropped hinv hquiet flash owner hcdr
  | restoreFromFlash os => exact sessionInv_restore hinv os hquiet

/-- After an empty partition at boot and one button press. -/
def collectedDevice : CdrSystem :=
  Runs.run stepCdr (cdrBoot (erased 64)) [.collect (.stats [1, 2, 3, 4])]

end WifiMemfault.CdrUpload
