import WifiMemfault.Lib.NorFlash

/-!
# Persisting and restoring the Memfault log state

The model of `core/app_memfault_log_state_restore.c`.  The live ring buffer is the pair of RAM
objects that `memfault_log_get_state` points to, the SDK's context struct and its storage bytes.
`memfaultLogStatePersistNow` writes both to the `mflt-log-state` partition behind a 16-byte header,
payload first and header last; `memfaultLogStateRestoreOnConnect` checks the header against the live
lengths, copies the payload back over the live objects and erases the partition.

Log lines of the functions themselves reach the ring buffer through the deferred logging thread, as
log saves of that thread, and are no calls here.  The one exception is the restore marker: it is
flushed synchronously by `log_flush` and is the outside call `LogCall.restoreMarker`.
-/

namespace WifiMemfault.LogStateRestore

open EffectProgram ByteList NorFlash

/-! ### The live ring buffer and the header -/

/-- The two RAM objects `memfault_log_get_state` points to. -/
inductive LogObj where
  | context | storage
  deriving DecidableEq, Repr

/-- The SDK calls of the restore path. -/
inductive LogCall where
  | memfaultLogDataSourceReset | restoreMarker
  deriving DecidableEq, Repr

abbrev LogWorld := World LogObj Unit

abbrev LogProg (α : Type) := FlashProg LogObj Unit LogCall α

def logStateMagic : UInt32 := 0x4d4c5352
def logStateVer : UInt16 := 2

/-- `struct log_state_hdr`. -/
@[ext] structure LogStateHdr where
  magic : UInt32
  version : UInt16
  reserved : UInt16
  contextLen : UInt32
  storageLen : UInt32
  deriving DecidableEq, Repr

/-- `sizeof(struct log_state_hdr)`. -/
def hdrSize : ℕ := 16

/-- The header as it lies in memory, little-endian. -/
def LogStateHdr.toBytes (h : LogStateHdr) : List UInt8 :=
  leBytes 4 h.magic.toNat ++ leBytes 2 h.version.toNat ++ leBytes 2 h.reserved.toNat
    ++ leBytes 4 h.contextLen.toNat ++ leBytes 4 h.storageLen.toNat

def LogStateHdr.ofBytes (bs : List UInt8) : LogStateHdr where
  magic := UInt32.ofNat (ofLe (bs.take 4))
  version := UInt16.ofNat (ofLe ((bs.drop 4).take 2))
  reserved := UInt16.ofNat (ofLe ((bs.drop 6).take 2))
  contextLen := UInt32.ofNat (ofLe ((bs.drop 8).take 4))
  storageLen := UInt32.ofNat (ofLe ((bs.drop 12).take 4))

/-- The header test of the restore: anything else means an empty partition or other firmware. -/
def LogStateHdr.Valid (h : LogStateHdr) : Prop :=
  h.magic = logStateMagic ∧ h.version = logStateVer ∧ h.contextLen ≠ 0 ∧ h.storageLen ≠ 0

instance (h : LogStateHdr) : Decidable h.Valid := inferInstanceAs (Decidable (_ ∧ _ ∧ _ ∧ _))

/-! ### The two functions -/

def enoent : ℤ := -2
def einval : ℤ := -22
def enospc : ℤ := -28

/-- `memfault_log_get_state`: the lengths of the live context and storage, none for NULL. -/
def memfaultLogGetState : LogProg (Option ℕ × Option ℕ) := do
  let contextLen ← objectSize LogObj.context
  let storageLen ← objectSize LogObj.storage
  return (contextLen, storageLen)

/-- The header of a blob with these lengths. -/
def blobHdr (contextLen storageLen : ℕ) : LogStateHdr :=
  ⟨logStateMagic, logStateVer, 0, UInt32.ofNat contextLen, UInt32.ofNat storageLen⟩

def memfaultLogStatePersistNow : LogProg ℤ := do
  let state ← memfaultLogGetState
  match state with
  | (some contextLen, some storageLen) =>
    let totalLen := hdrSize + contextLen + storageLen
    let fa ← flashAreaOpen
    match fa with
    | .error err => return err
    | .ok faSize =>
      if totalLen > faSize then
        return enospc
      let err ← flashAreaErase 0 faSize
      if err ≠ 0 then
        return err
      -- payload first, header last
      let mut werr ← flashAreaWriteFrom hdrSize LogObj.context contextLen
      if werr = 0 then
        werr ← flashAreaWriteFrom (hdrSize + contextLen) LogObj.storage storageLen
      if werr ≠ 0 then
        return werr
      let herr ← flashAreaWrite 0 (blobHdr contextLen storageLen).toBytes
      return herr
  | _ => return einval

/-- The part of `memfault_log_state_restore_on_connect` that works on the partition: everything up
to the erase after the copy. -/
def restoreFromPartition : LogProg ℤ := do
  let fa ← flashAreaOpen
  match fa with
  | .error _ => return enoent
  | .ok faSize =>
    let bytes ← flashAreaRead 0 hdrSize
    match bytes with
    | .error _ => return enoent
    | .ok bytes =>
      let hdr := LogStateHdr.ofBytes bytes
      if ¬ hdr.Valid then
        return enoent
      let live ← memfaultLogGetState
      match live with
      | (some contextLen, some storageLen) =>
        if hdr.contextLen ≠ UInt32.ofNat contextLen ∨ hdr.storageLen ≠ UInt32.ofNat storageLen then
          let _ ← flashAreaErase 0 faSize
          return enospc
        -- overwrite the live ring buffer in place
        let mut err ← flashAreaReadInto hdrSize LogObj.context hdr.contextLen.toNat
        if err = 0 then
          err ← flashAreaReadInto (hdrSize + hdr.contextLen.toNat) LogObj.storage
            hdr.storageLen.toNat
        -- one-shot: the partition is erased whether the copy succeeded or not
        let _ ← flashAreaErase 0 faSize
        return err
      | _ =>
        let _ ← flashAreaErase 0 faSize
        return einval

def memfaultLogStateRestoreOnConnect : LogProg ℤ := do
  let err ← restoreFromPartition
  if err ≠ 0 then
    return err
  outside LogCall.memfaultLogDataSourceReset
  outside LogCall.restoreMarker
  return 0

end WifiMemfault.LogStateRestore
