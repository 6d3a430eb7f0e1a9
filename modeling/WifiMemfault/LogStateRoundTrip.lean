import WifiMemfault.LogStateSpec

/-!
# A persist and the restores after it, when the flash works

Every flash call succeeds, the partition may hold anything before the persist, and the ring buffers of the
calls are unrelated.  A persist that fits leaves exactly the blob of its ring buffer and erased bytes behind
it (`persist_exec`), one that does not fit leaves the partition alone.  The first restore after a persist
copies the blob if its lengths are the live ones and refuses it otherwise; it erases the partition in both
cases, so that the second finds nothing.

The lengths are those of objects in a 32-bit memory, up to the exact fit of the partition.
-/

namespace WifiMemfault.LogStateRoundTrip

open EffectProgram ByteList NorFlash LogStateRestore LogStateImage LogStateSteps LogStateSpec

/-- A live ring buffer.  Header, context and storage are in memory at the same time, so that `total_len`
does not wrap. -/
structure RingBuffer extends LogSnapshot where
  total_lt : hdrSize + context.length + storage.length < 2 ^ 32

theorem RingBuffer.context_lt (s : RingBuffer) : s.context.length < 2 ^ 32 := by
  have htotal := s.total_lt
  omega

theorem RingBuffer.storage_lt (s : RingBuffer) : s.storage.length < 2 ^ 32 := by
  have htotal := s.total_lt
  omega

/-- Both lengths are the same. -/
def SameLengths (s t : LogSnapshot) : Prop :=
  s.context.length = t.context.length ∧ s.storage.length = t.storage.length

instance (s t : LogSnapshot) : Decidable (SameLengths s t) := inferInstanceAs (Decidable (_ ∧ _))

variable (marker : (LogObj → Option (List UInt8)) → LogObj → Option (List UInt8))

/-- The call on a partition, with this live ring buffer. -/
def quietCall (prog : LogProg ℤ) (flash : List UInt8) (live : LogSnapshot) : Option ℤ × LogWorld :=
  (flashDevice .none (logOutside marker)).exec prog (fun _ => .ok) (liveWorld flash live)

/-! ### Flash calls that succeed -/

section Quiet

variable {marker}
variable {Q : ℤ → LogWorld → Prop} {w : LogWorld}

/-- The calls of the program succeed, and it ends in `Q`. -/
abbrev Quiet (marker : (LogObj → Option (List UInt8)) → LogObj → Option (List UInt8))
    (Q : ℤ → LogWorld → Prop) (prog : LogProg ℤ) (w : LogWorld) : Prop :=
  Always (flashDevice .none (logOutside marker)) Q (fun _ => False) prog w

theorem quietCall_of_quiet {prog : LogProg ℤ} {flash : List UInt8} {live : LogSnapshot} {r : ℤ}
    {w' : LogWorld} (h : Quiet marker (fun r' v => r' = r ∧ v = w') prog (liveWorld flash live)) :
    quietCall marker prog flash live = (some r, w') := by
  obtain ⟨r', v, hexec, rfl, rfl⟩ := always_returns h fun _ => .ok
  exact hexec

theorem transferOk_quiet {kind : CallKind} {len : ℕ} {eff : ℕ → LogWorld} {next : ℤ → LogWorld → Prop}
    (h : next 0 (eff len)) : TransferOk .none kind len eff next (fun _ => False) :=
  ⟨h, fun hfail => Bool.noConfusion hfail, fun hloss => Bool.noConfusion hloss⟩

theorem quiet_openArea (next : Except ℤ ℕ → LogProg ℤ) (h : Quiet marker Q (next (.ok w.flash.length)) w) :
    Quiet marker Q (.call .openArea next) w :=
  (always_openArea next).mpr
    ⟨h, fun hfail => Bool.noConfusion hfail, fun hloss => Bool.noConfusion hloss⟩

theorem quiet_readLocal {off len : ℕ} (next : Except ℤ (List UInt8) → LogProg ℤ)
    (hfit : off + len ≤ w.flash.length) (h : Quiet marker Q (next (.ok (readRange off len w.flash))) w) :
    Quiet marker Q (.call (.readLocal off len) next) w :=
  (always_readLocal off len next hfit).mpr
    ⟨h, fun hfail => Bool.noConfusion hfail, fun hloss => Bool.noConfusion hloss⟩

end Quiet

/-! ### The persist -/

/-- The partition after a complete persist. -/
def persisted (s : LogSnapshot) (n : ℕ) : List UInt8 :=
  blobImage s ++ erased (n - (hdrSize + s.context.length + s.storage.length))

section Persist

variable {marker} (s : LogSnapshot)

theorem program_header (m : ℕ) :
    program 0 (snapshotHdr s).toBytes (erased hdrSize ++ s.context ++ s.storage ++ erased m)
      = blobImage s ++ erased m := by
  have h := program_zero_erased (snapshotHdr s).toBytes (s.context ++ (s.storage ++ erased m)) hdrSize
    (toBytes_length _).le
  rw [toBytes_length, Nat.sub_self] at h
  simp only [List.append_assoc, blobImage]
  exact h

theorem program_storage (m : ℕ) (h : s.storage.length ≤ m) :
    program (hdrSize + s.context.length) s.storage (erased hdrSize ++ s.context ++ erased m)
      = erased hdrSize ++ s.context ++ s.storage ++ erased (m - s.storage.length) := by
  have hprogram := program_erased (erased hdrSize ++ s.context) s.storage [] m h
  rw [List.append_nil, List.append_nil, List.length_append, List.length_replicate] at hprogram
  exact hprogram

theorem program_context (m : ℕ) (h : s.context.length ≤ m) :
    program hdrSize s.context (erased hdrSize ++ erased m)
      = erased hdrSize ++ s.context ++ erased (m - s.context.length) := by
  have hprogram := program_erased (erased hdrSize) s.context [] m h
  rw [List.append_nil, List.append_nil, List.length_replicate] at hprogram
  exact hprogram

theorem quiet_persistWriteHeader (m : ℕ) :
    Quiet marker (fun r w => r = 0 ∧ w = liveWorld (blobImage s ++ erased m) s)
      (persistWriteHeader s.context.length s.storage.length)
      (liveWorld (erased hdrSize ++ s.context ++ s.storage ++ erased m) s) := by
  have hfit : 0 + (snapshotHdr s).toBytes.length
      ≤ (erased hdrSize ++ s.context ++ s.storage ++ erased m).length := by
    rw [toBytes_length, List.length_append, List.length_append, List.length_append, List.length_replicate]
    omega
  apply (always_writeLocal 0 _ _ hfit).mpr
  apply transferOk_quiet
  refine ⟨rfl, ?_⟩
  rw [List.take_length, liveWorld_flash]
  exact congrArg (liveWorld · s) (program_header s m)

theorem quiet_persistWriteStorage (m : ℕ) (h : s.storage.length ≤ m) :
    Quiet marker (fun r w => r = 0 ∧ w = liveWorld (blobImage s ++ erased (m - s.storage.length)) s)
      (persistWriteStorage s.context.length s.storage.length)
      (liveWorld (erased hdrSize ++ s.context ++ erased m) s) := by
  have hfit : hdrSize + s.context.length + s.storage.length
      ≤ (erased hdrSize ++ s.context ++ erased m).length := by
    rw [List.length_append, List.length_append, List.length_replicate, List.length_replicate]
    omega
  apply (always_writeFrom _ _ _ _ hfit).mpr
  apply transferOk_quiet
  rw [if_pos rfl, liveWorld_bytes_storage, List.take_length, liveWorld_flash, program_storage s m h]
  exact quiet_persistWriteHeader s _

theorem quiet_persistWriteContext (m : ℕ) (h : s.context.length + s.storage.length ≤ m) :
    Quiet marker (fun r w => r = 0 ∧
        w = liveWorld (blobImage s ++ erased (m - s.context.length - s.storage.length)) s)
      (persistWriteContext s.context.length s.storage.length)
      (liveWorld (erased hdrSize ++ erased m) s) := by
  have hfit : hdrSize + s.context.length ≤ (erased hdrSize ++ erased m).length := by
    rw [List.length_append, List.length_replicate, List.length_replicate]
    omega
  apply (always_writeFrom _ _ _ _ hfit).mpr
  apply transferOk_quiet
  rw [if_pos rfl, liveWorld_bytes_context, List.take_length, liveWorld_flash,
    program_context s m (by omega)]
  exact quiet_persistWriteStorage s _ (by omega)

theorem quiet_persistErase (flash : List UInt8)
    (hfit : hdrSize + s.context.length + s.storage.length ≤ flash.length) :
    Quiet marker (fun r w => r = 0 ∧ w = liveWorld (persisted s flash.length) s)
      (persistErase s.context.length s.storage.length flash.length) (liveWorld flash s) := by
  have hsplit : eraseRange 0 flash.length flash = erased hdrSize ++ erased (flash.length - hdrSize) := by
    rw [eraseRange_all, List.replicate_append_replicate]
    congr 1
    omega
  have hrest : flash.length - (hdrSize + s.context.length + s.storage.length)
      = flash.length - hdrSize - s.context.length - s.storage.length := by omega
  apply (always_erase 0 _ _ (by simp)).mpr
  apply transferOk_quiet
  rw [if_pos rfl, liveWorld_flash, hsplit, persisted, hrest]
  exact quiet_persistWriteContext s _ (by omega)

theorem quiet_persistNow {Q : ℤ → LogWorld → Prop} (flash : List UInt8)
    (h : Quiet marker Q (persistOpened s.context.length s.storage.length (.ok flash.length))
      (liveWorld flash s)) :
    Quiet marker Q memfaultLogStatePersistNow (liveWorld flash s) := by
  rw [Quiet, memfaultLogStatePersistNow_eq, always_objectSize, always_objectSize]
  exact quiet_openArea (persistOpened s.context.length s.storage.length) h

/-- **The persist.**  It writes the blob if the partition has room for it, and does nothing otherwise. -/
theorem persist_exec (flash : List UInt8) :
    quietCall marker memfaultLogStatePersistNow flash s =
      if hdrSize + s.context.length + s.storage.length ≤ flash.length then
        (some 0, liveWorld (persisted s flash.length) s)
      else (some enospc, liveWorld flash s) := by
  by_cases hfit : hdrSize + s.context.length + s.storage.length ≤ flash.length
  · rw [if_pos hfit]
    apply quietCall_of_quiet
    apply quiet_persistNow
    rw [persistOpened, if_neg (Nat.not_lt.mpr hfit)]
    exact quiet_persistErase s flash hfit
  · rw [if_neg hfit]
    apply quietCall_of_quiet
    apply quiet_persistNow
    rw [persistOpened, if_pos (Nat.not_le.mp hfit)]
    exact ⟨rfl, rfl⟩

end Persist

/-! ### The restores -/

section Restore

variable {marker} {s : LogSnapshot} {flash : List UInt8}

theorem persisted_length (s : LogSnapshot) {n : ℕ}
    (hfit : hdrSize + s.context.length + s.storage.length ≤ n) : (persisted s n).length = n := by
  rw [persisted, List.length_append, blobImage_length, List.length_replicate]
  omega

theorem quiet_restoreErase (live : LogSnapshot) (r : ℤ) :
    Quiet marker (fun r' w => r' = r ∧ w = liveWorld (erased flash.length) live)
      (restoreErase flash.length r) (liveWorld flash live) := by
  apply (always_erase 0 _ _ (by simp)).mpr
  apply transferOk_quiet
  exact ⟨rfl, congrArg (liveWorld · live) (eraseRange_all flash)⟩

/-- A restore whose open and header read succeed goes on with its check of the header. -/
theorem quiet_restoreFromPartition {Q : ℤ → LogWorld → Prop} {live : LogSnapshot}
    (hfit : hdrSize ≤ flash.length)
    (h : Quiet marker Q (restoreChecked (LogStateHdr.ofBytes (readRange 0 hdrSize flash)) flash.length)
      (liveWorld flash live)) :
    Quiet marker Q restoreFromPartition (liveWorld flash live) := by
  rw [restoreFromPartition_eq]
  apply quiet_openArea restoreOpened
  apply quiet_readLocal (restoreHdrRead flash.length)
  · rw [liveWorld_flash]
    omega
  · exact h

theorem quiet_restoreCopyContext (live : LogSnapshot) (hsame : SameLengths s live)
    (hholds : Holds flash s) :
    Quiet marker (fun r w => r = 0 ∧ w = liveWorld (erased flash.length) s)
      (restoreCopyContext s.context.length s.storage.length flash.length) (liveWorld flash live) := by
  have hlen := holds_length flash s hholds
  obtain ⟨rest, hrest⟩ := hholds
  have hcontext : readRange hdrSize s.context.length flash = s.context := by
    rw [hrest, readRange_context]
  have hstorage : readRange (hdrSize + s.context.length) s.storage.length flash = s.storage := by
    rw [hrest, readRange_storage]
  apply (always_readInto _ _ _ _ (by rw [liveWorld_flash]; omega)).mpr
  apply transferOk_quiet
  rw [if_pos rfl, liveWorld_flash, hcontext, fill_context _ _ _ hsame.1]
  apply (always_readInto _ _ _ _ (by rw [liveWorld_flash]; omega)).mpr
  apply transferOk_quiet
  rw [liveWorld_flash, hstorage, fill_storage flash s.storage ⟨s.context, live.storage⟩ hsame.2]
  exact quiet_restoreErase s 0

/-- The header of a blob passes the header test. -/
theorem RingBuffer.hdr_valid (s : RingBuffer) (hcontext : s.context ≠ []) (hstorage : s.storage ≠ []) :
    (snapshotHdr s.toLogSnapshot).Valid :=
  snapshotHdr_valid (List.length_pos_iff.mpr hcontext) (List.length_pos_iff.mpr hstorage)
    s.context_lt s.storage_lt

/-- The comparison of the lengths in the header is that of the lengths themselves. -/
theorem RingBuffer.lengths_iff (s live : RingBuffer) :
    (snapshotHdr s.toLogSnapshot).contextLen = UInt32.ofNat live.context.length ∧
        (snapshotHdr s.toLogSnapshot).storageLen = UInt32.ofNat live.storage.length ↔
      SameLengths s.toLogSnapshot live.toLogSnapshot :=
  and_congr ⟨ofNat_inj_of_lt s.context_lt live.context_lt, congrArg UInt32.ofNat⟩
    ⟨ofNat_inj_of_lt s.storage_lt live.storage_lt, congrArg UInt32.ofNat⟩

/-- The check of a blob's header and what follows: the copy, or the refusal of other lengths. -/
theorem quiet_restoreChecked {s : RingBuffer} (hcontext : s.context ≠ []) (hstorage : s.storage ≠ [])
    (hholds : Holds flash s.toLogSnapshot) (live : RingBuffer) :
    Quiet marker (fun r w => r = (if SameLengths s.toLogSnapshot live.toLogSnapshot then 0 else enospc) ∧
        w = liveWorld (erased flash.length)
          (if SameLengths s.toLogSnapshot live.toLogSnapshot then s.toLogSnapshot else live.toLogSnapshot))
      (restoreChecked (LogStateHdr.ofBytes (readRange 0 hdrSize flash)) flash.length)
      (liveWorld flash live.toLogSnapshot) := by
  rw [holds_hdr flash _ hholds, restoreChecked, if_pos (s.hdr_valid hcontext hstorage), Quiet,
    always_objectSize, always_objectSize]
  show Always _ _ _ (restoreSized (snapshotHdr s.toLogSnapshot) flash.length (some live.context.length)
    (some live.storage.length)) _
  rw [restoreSized]
  by_cases hsame : SameLengths s.toLogSnapshot live.toLogSnapshot
  · rw [if_pos ((s.lengths_iff live).mpr hsame), snapshotHdr_contextLen s.context_lt,
      snapshotHdr_storageLen s.storage_lt, if_pos hsame, if_pos hsame]
    exact quiet_restoreCopyContext live.toLogSnapshot hsame hholds
  · rw [if_neg fun h => hsame ((s.lengths_iff live).mp h), if_neg hsame, if_neg hsame]
    exact quiet_restoreErase live.toLogSnapshot enospc

/-- The marker is saved after a restore of the partition that returned zero, and only then. -/
theorem quietCall_restoreOnConnect {live : LogSnapshot} {r : ℤ} {w' : LogWorld}
    (h : Quiet marker (fun r' v => r' = r ∧ v = w') restoreFromPartition (liveWorld flash live)) :
    quietCall marker memfaultLogStateRestoreOnConnect flash live
      = (some r, if r = 0 then { w' with ram := marker w'.ram } else w') := by
  apply quietCall_of_quiet
  rw [Quiet, memfaultLogStateRestoreOnConnect_eq, always_bind]
  refine always_mono h ?_ fun _ hloss => hloss
  rintro r' v ⟨rfl, rfl⟩
  by_cases hzero : r' = 0
  · rw [if_pos hzero, if_pos hzero, always_outside, always_outside, always_ret]
    exact ⟨hzero.symm, rfl⟩
  · rw [if_neg hzero, if_neg hzero, always_ret]
    exact ⟨rfl, rfl⟩

/-- **The restore of a blob.** -/
theorem restore_exec {s : RingBuffer} (hcontext : s.context ≠ []) (hstorage : s.storage ≠ [])
    (hholds : Holds flash s.toLogSnapshot) (live : RingBuffer) :
    quietCall marker memfaultLogStateRestoreOnConnect flash live.toLogSnapshot =
      if SameLengths s.toLogSnapshot live.toLogSnapshot then
        (some 0, ⟨erased flash.length, marker (liveRam s.toLogSnapshot), ()⟩)
      else (some enospc, liveWorld (erased flash.length) live.toLogSnapshot) := by
  have hlen := holds_length flash _ hholds
  rw [quietCall_restoreOnConnect (quiet_restoreFromPartition (by omega)
    (quiet_restoreChecked hcontext hstorage hholds live))]
  by_cases hsame : SameLengths s.toLogSnapshot live.toLogSnapshot
  · simp only [if_pos hsame, if_true]
    rfl
  · simp only [if_neg hsame]
    rfl

/-- A restore finds nothing in an erased partition. -/
theorem restore_erased_exec {n : ℕ} (hn : hdrSize ≤ n) (live : LogSnapshot) :
    quietCall marker memfaultLogStateRestoreOnConnect (erased n) live
      = (some enoent, liveWorld (erased n) live) := by
  have hinvalid : ¬ (LogStateHdr.ofBytes (readRange 0 hdrSize (erased n))).Valid := by
    have hread : readRange 0 hdrSize (erased n) = erased hdrSize := by
      rw [readRange, List.drop_zero, List.take_replicate, Nat.min_eq_left hn]
    rw [hread]
    decide
  have hchecked : Quiet marker (fun r w => r = enoent ∧ w = liveWorld (erased n) live)
      (restoreChecked (LogStateHdr.ofBytes (readRange 0 hdrSize (erased n))) (erased n).length)
      (liveWorld (erased n) live) := by
    rw [restoreChecked, if_neg hinvalid]
    exact ⟨rfl, rfl⟩
  rw [quietCall_restoreOnConnect (quiet_restoreFromPartition (by simpa using hn) hchecked)]
  rfl

end Restore

/-! ### The round trip -/

/-- **The round trip.**  A persist that fits returns zero.  The next restore, whatever is live then, returns
zero and has put exactly the persisted bytes over the live ones before the marker is saved, if both lengths
are the live ones, and otherwise returns `-ENOSPC` with the live ring buffer as it was; the one after it
returns `-ENOENT` and changes nothing.  A persist that does not fit leaves the partition as it was. -/
theorem persist_restore_round_trip (s : RingBuffer) (hcontext : s.context ≠ []) (hstorage : s.storage ≠ [])
    (flash : List UInt8) :
    let p := quietCall marker memfaultLogStatePersistNow flash s.toLogSnapshot
    (hdrSize + s.context.length + s.storage.length ≤ flash.length →
      p.1 = some 0 ∧
        ∀ live : RingBuffer,
          let r := quietCall marker memfaultLogStateRestoreOnConnect p.2.flash live.toLogSnapshot
          (SameLengths s.toLogSnapshot live.toLogSnapshot →
            r.1 = some 0 ∧ r.2.ram = marker (liveRam s.toLogSnapshot)) ∧
          (¬ SameLengths s.toLogSnapshot live.toLogSnapshot →
            r.1 = some enospc ∧ r.2.ram = liveRam live.toLogSnapshot) ∧
          r.2.flash = erased flash.length ∧
          ∀ again : RingBuffer,
            quietCall marker memfaultLogStateRestoreOnConnect r.2.flash again.toLogSnapshot
              = (some enoent, liveWorld r.2.flash again.toLogSnapshot)) ∧
    (flash.length < hdrSize + s.context.length + s.storage.length →
      p.1 = some enospc ∧ p.2.flash = flash) := by
  intro p
  refine ⟨fun hfit => ?_, fun hlarge => ?_⟩
  · have hp : p = (some 0, liveWorld (persisted s.toLogSnapshot flash.length) s.toLogSnapshot) :=
      (persist_exec s.toLogSnapshot flash).trans (if_pos hfit)
    have hlen : p.2.flash.length = flash.length := by
      rw [hp]
      exact persisted_length s.toLogSnapshot hfit
    have hholds : Holds p.2.flash s.toLogSnapshot := by
      rw [hp]
      exact ⟨_, rfl⟩
    refine ⟨by rw [hp], fun live => ?_⟩
    intro r
    have hr : r = _ := restore_exec hcontext hstorage hholds live
    have herased : r.2.flash = erased flash.length := by
      rw [hr, hlen]
      split
      · rfl
      · rfl
    refine ⟨fun hsame => ?_, fun hdiff => ?_, herased, fun again => ?_⟩
    · rw [hr, if_pos hsame]
      exact ⟨rfl, rfl⟩
    · rw [hr, if_neg hdiff]
      exact ⟨rfl, rfl⟩
    · rw [herased]
      exact restore_erased_exec (by omega) again.toLogSnapshot
  · have hp : p = (some enospc, liveWorld flash s.toLogSnapshot) :=
      (persist_exec s.toLogSnapshot flash).trans (if_neg (Nat.not_le.mpr hlarge))
    rw [hp]
    exact ⟨rfl, rfl⟩

/-- A ring buffer of one and two bytes fills a partition of 19 bytes. -/
def smallRing : RingBuffer := ⟨⟨[1], [2, 3]⟩, by decide⟩

theorem persist_restore_round_trip_exact_fit :
    (quietCall id memfaultLogStatePersistNow (List.replicate 19 0) smallRing.toLogSnapshot).1 = some 0 :=
  ((persist_restore_round_trip id smallRing (by decide) (by decide) (List.replicate 19 0)).1
    (by decide)).1

end WifiMemfault.LogStateRoundTrip
