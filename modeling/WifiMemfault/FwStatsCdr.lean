import WifiMemfault.Lib.NorFlash

/-!
# The nRF70 firmware statistics CDR

The model of `cdr/app_memfault_nrf70_fw_stats_cdr.c`.  One snapshot of the firmware statistics lives in
the static buffer `s_nrf70_fw_stats_blob`, with its size, its ready flag and the read offset.  The SDK
reads it through three callbacks; the button and the delayed work collect a new one; the delayed work also
stores it in the `mflt-cdr-state` partition, from where `on_connect` loads it again.

The nRF70 driver is outside this code: what it answers to a collection is an argument.
-/

namespace WifiMemfault.FwStatsCdr

open EffectProgram ByteList NorFlash

/-! ### The static variables -/

/-- `s_nrf70_fw_stats_blob`, the only object the flash calls name. -/
inductive CdrObj where
  | fwStatsBlob
  deriving DecidableEq, Repr

/-- The static variables beside the buffer. -/
@[ext] structure CdrStatics where
  blobSize : ℕ
  dataReady : Bool
  readOffset : ℕ
  /-- `s_nrf70_fw_stats_metadata.data_size_bytes`. -/
  dataSizeBytes : ℕ
  deriving DecidableEq, Repr

abbrev CdrWorld := World CdrObj CdrStatics

abbrev CdrProg (α : Type) := FlashProg CdrObj CdrStatics Empty α

def nrf70FwStatsBlobMaxSize : ℕ := 1024

def eio : ℤ := -5
def enoent : ℤ := -2
def enodev : ℤ := -19
def enospc : ℤ := -28
def enodata : ℤ := -61

def modifyStatics (f : CdrStatics → CdrStatics) : CdrProg Unit := do
  let s ← getStatics
  putStatics (f s)

/-! ### The callbacks of the CDR source -/

/-- The metadata's size if there is a CDR. -/
def hasCdrCb : CdrProg (Option ℕ) := do
  let s ← getStatics
  if s.dataReady = false ∨ s.blobSize = 0 then
    return none
  putStatics { s with dataSizeBytes := s.blobSize }
  return some s.blobSize

/-- The bytes copied to the caller's buffer, none if the offset is past the blob. -/
def readDataCb (offset bufLen : ℕ) : CdrProg (Option (List UInt8)) := do
  modifyStatics fun s => { s with readOffset := offset }
  let s ← getStatics
  if offset ≥ s.blobSize then
    return none
  let remaining := s.blobSize - offset
  let copyLen := if bufLen < remaining then bufLen else remaining
  let bytes ← load CdrObj.fwStatsBlob offset copyLen
  modifyStatics fun s => { s with readOffset := s.readOffset + copyLen }
  return some bytes

def markCdrReadCb : CdrProg Unit :=
  modifyStatics fun _ => ⟨0, false, 0, 0⟩

/-! ### Collecting -/

/-- What the driver answers: there is no device, the call fails, or these are the firmware statistics. -/
inductive DriverStats where
  | noDevice
  | statsGetFailed
  | stats (fw : List UInt8)
  deriving DecidableEq, Repr

def collectNrf70FwStats : DriverStats → CdrProg ℤ
  | .noDevice => return enodev
  | .statsGetFailed => return eio
  | .stats fw => do
    let fwStatsSize :=
      if fw.length > nrf70FwStatsBlobMaxSize then nrf70FwStatsBlobMaxSize else fw.length
    store CdrObj.fwStatsBlob (fw.take fwStatsSize)
    modifyStatics fun s => { s with blobSize := fwStatsSize }
    return 0

def mfltNrf70FwStatsCdrCollect (driver : DriverStats) : CdrProg ℤ := do
  modifyStatics fun s => { s with dataReady := false, blobSize := 0, readOffset := 0 }
  let err ← collectNrf70FwStats driver
  if err ≠ 0 then
    return err
  let s ← getStatics
  if s.blobSize = 0 then
    return enodata
  modifyStatics fun s => { s with dataReady := true }
  return 0

/-! ### The partition -/

def cdrStateMagic : UInt32 := 0x43445253
def cdrStateVer : UInt16 := 1

/-- `struct cdr_state_hdr`. -/
@[ext] structure CdrStateHdr where
  magic : UInt32
  version : UInt16
  reserved : UInt16
  blobSize : UInt32
  reserved2 : UInt32
  deriving DecidableEq, Repr

/-- `sizeof(struct cdr_state_hdr)`. -/
def cdrHdrSize : ℕ := 16

/-- The header as it lies in memory, little-endian. -/
def CdrStateHdr.toBytes (h : CdrStateHdr) : List UInt8 :=
  leBytes 4 h.magic.toNat ++ leBytes 2 h.version.toNat ++ leBytes 2 h.reserved.toNat
    ++ leBytes 4 h.blobSize.toNat ++ leBytes 4 h.reserved2.toNat

def CdrStateHdr.ofBytes (bs : List UInt8) : CdrStateHdr where
  magic := UInt32.ofNat (ofLe (bs.take 4))
  version := UInt16.ofNat (ofLe ((bs.drop 4).take 2))
  reserved := UInt16.ofNat (ofLe ((bs.drop 6).take 2))
  blobSize := UInt32.ofNat (ofLe ((bs.drop 8).take 4))
  reserved2 := UInt32.ofNat (ofLe ((bs.drop 12).take 4))

/-- The header test of the restore.  The reserved words are not looked at. -/
def CdrStateHdr.Valid (h : CdrStateHdr) : Prop :=
  h.magic = cdrStateMagic ∧ h.version = cdrStateVer ∧ h.blobSize ≠ 0 ∧
    h.blobSize.toNat ≤ nrf70FwStatsBlobMaxSize

instance (h : CdrStateHdr) : Decidable h.Valid := inferInstanceAs (Decidable (_ ∧ _ ∧ _ ∧ _))

/-- The header of a blob of this size. -/
def cdrHdr (blobSize : ℕ) : CdrStateHdr :=
  ⟨cdrStateMagic, cdrStateVer, 0, UInt32.ofNat blobSize, 0⟩

/-- The persist up to its erase: zero says that the partition is erased and waits for the blob. -/
def persistErase (driver : DriverStats) : CdrProg ℤ := do
  modifyStatics fun s => { s with dataReady := false, blobSize := 0, readOffset := 0 }
  let err ← collectNrf70FwStats driver
  if err ≠ 0 then
    return err
  let s ← getStatics
  if s.blobSize = 0 then
    return enodata
  modifyStatics fun s => { s with dataReady := true }
  let fa ← flashAreaOpen
  match fa with
  | .error err => return err
  | .ok faSize =>
    let s ← getStatics
    let totalLen := cdrHdrSize + s.blobSize
    if totalLen > faSize then
      return enospc
    flashAreaErase 0 faSize

/-- The rest of the persist: payload first, header last. -/
def persistWrite : CdrProg ℤ := do
  let s ← getStatics
  let err ← flashAreaWriteFrom cdrHdrSize CdrObj.fwStatsBlob s.blobSize
  if err ≠ 0 then
    return err
  let s ← getStatics
  flashAreaWrite 0 (cdrHdr s.blobSize).toBytes

def mfltNrf70FwStatsCdrPersistToFlash (driver : DriverStats) : CdrProg ℤ := do
  let err ← persistErase driver
  if err ≠ 0 then
    return err
  persistWrite

def mfltNrf70FwStatsCdrRestoreFromFlash : CdrProg ℤ := do
  let fa ← flashAreaOpen
  match fa with
  | .error _ => return enoent
  | .ok faSize =>
    let bytes ← flashAreaRead 0 cdrHdrSize
    match bytes with
    | .error _ => return enoent
    | .ok bytes =>
      let hdr := CdrStateHdr.ofBytes bytes
      if ¬ hdr.Valid then
        return enoent
      let err ← flashAreaReadInto cdrHdrSize CdrObj.fwStatsBlob hdr.blobSize.toNat
      -- one-shot: the partition is erased whether the copy succeeded or not
      let _ ← flashAreaErase 0 faSize
      if err ≠ 0 then
        return err
      modifyStatics fun _ => ⟨hdr.blobSize.toNat, true, 0, hdr.blobSize.toNat⟩
      return 0

end WifiMemfault.FwStatsCdr
