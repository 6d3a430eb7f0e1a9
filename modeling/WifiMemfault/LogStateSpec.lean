import WifiMemfault.LogStateSteps

/-!
# What one persist and one restore leave behind

The two functions run alone on the partition, under any fault model.  A persist of the live bytes
`s` over a partition that represents `o` leaves one that represents `o`, nothing, or `s`, and the last
of these if it returns zero.  A restore leaves one that represents `o` or nothing, and if it returns
zero then `o` was a snapshot and is now live.

Both proofs go through the remainders of `LogStateSteps` from the last call to the first, one lemma
for each flash call.  Each lemma says which bytes are still erased while that call is under way: byte 0
until the header write, byte 15 until the end of the header write.
-/

namespace WifiMemfault.LogStateSpec

open EffectProgram ByteList NorFlash LogStateRestore LogStateImage LogStateSteps

/-- The device with the live ring buffer `s`. -/
def liveWorld (flash : List UInt8) (s : LogSnapshot) : LogWorld := ⟨flash, liveRam s, ()⟩

@[simp] theorem liveWorld_flash (flash : List UInt8) (s : LogSnapshot) :
    (liveWorld flash s).flash = flash := rfl

@[simp] theorem liveWorld_bytes_context (flash : List UInt8) (s : LogSnapshot) :
    (liveWorld flash s).bytes .context = s.context := rfl

@[simp] theorem liveWorld_bytes_storage (flash : List UInt8) (s : LogSnapshot) :
    (liveWorld flash s).bytes .storage = s.storage := rfl

/-! ### The persist -/

/-- What a persist of `s` over a partition of `n` bytes that represents `o` leaves, complete or not. -/
structure PersistLeaves (o : Option LogSnapshot) (s : LogSnapshot) (n : ℕ) (w : LogWorld) :
    Prop where
  ram_eq : w.ram = liveRam s
  length_eq : w.flash.length = n
  content : Represents w.flash o ∨ Represents w.flash none ∨ Represents w.flash (some s)

/-- The same when the persist has returned `r`. -/
def PersistPost (o : Option LogSnapshot) (s : LogSnapshot) (n : ℕ) (r : ℤ) (w : LogWorld) : Prop :=
  PersistLeaves o s n w ∧ (r = 0 → Represents w.flash (some s))

section Persist

variable {F : FaultModel} {outer : LogCall → LogWorld → LogWorld}
variable (o : Option LogSnapshot) (s : LogSnapshot)

/-- A partition no restore accepts is an admissible outcome of every failed or interrupted call. -/
theorem persistLeaves_rejected (n : ℕ) (flash : List UInt8) (hlen : flash.length = n)
    (hrej : Rejected flash) : PersistLeaves o s n (liveWorld flash s) :=
  ⟨rfl, hlen, Or.inr (Or.inl hrej)⟩

theorem persistLeaves_complete (n : ℕ) (rest : List UInt8) (hs : s.WellSized)
    (hlen : (blobImage s ++ rest).length = n) :
    PersistPost o s n 0 (liveWorld (blobImage s ++ rest) s) :=
  ⟨⟨rfl, hlen, Or.inr (Or.inr ⟨hs, rest, rfl⟩)⟩, fun _ => ⟨hs, rest, rfl⟩⟩

/-- A header write that got `k` of the 16 bytes out leaves byte 15 erased. -/
theorem torn_header_rejected (rest : List UInt8) (k : ℕ) (hk : k < hdrSize) :
    Rejected (program 0 ((snapshotHdr s).toBytes.take k) (erased hdrSize ++ rest)) := by
  have hlen : ((snapshotHdr s).toBytes.take k).length = k := by
    rw [List.length_take, toBytes_length]
    omega
  have hsize : hdrSize = 16 := rfl
  apply rejected_of_last
  rw [program_zero_erased _ _ _ (by omega), hlen, List.getElem?_append_right (by omega), hlen,
    List.getElem?_append_left (by simp only [List.length_replicate]; omega),
    List.getElem?_replicate, if_pos (by omega)]

theorem persistWriteHeader_always (hs : s.WellSized) (n : ℕ) (rest : List UInt8)
    (hn : n = hdrSize + (s.context ++ s.storage ++ rest).length) :
    Always (flashDevice F outer) (PersistPost o s n) (PersistLeaves o s n)
      (persistWriteHeader s.context.length s.storage.length)
      (liveWorld (erased hdrSize ++ (s.context ++ s.storage ++ rest)) s) := by
  have hfit : 0 + (snapshotHdr s).toBytes.length
      ≤ (erased hdrSize ++ (s.context ++ s.storage ++ rest)).length := by
    rw [toBytes_length, List.length_append, List.length_replicate]
    omega
  have hlen : ∀ k, (program 0 ((snapshotHdr s).toBytes.take k)
      (erased hdrSize ++ (s.context ++ s.storage ++ rest))).length = n := by
    intro k
    rw [program_length _ _ _ (by rw [List.length_take]; omega), List.length_append,
      List.length_replicate, hn]
  have hfull : program 0 ((snapshotHdr s).toBytes.take hdrSize)
      (erased hdrSize ++ (s.context ++ s.storage ++ rest)) = blobImage s ++ rest := by
    rw [List.take_of_length_le (toBytes_length _).le,
      program_zero_erased _ _ _ (toBytes_length _).le, toBytes_length, Nat.sub_self,
      show erased 0 = [] from rfl, List.nil_append, blobImage]
    simp only [List.append_assoc]
  have hpost : PersistPost o s n 0 (liveWorld (program 0 ((snapshotHdr s).toBytes.take hdrSize)
      (erased hdrSize ++ (s.context ++ s.storage ++ rest))) s) := by
    have hfl := hlen hdrSize
    rw [hfull] at hfl ⊢
    exact persistLeaves_complete o s n rest hs hfl
  have hleaves : ∀ k ≤ hdrSize, PersistLeaves o s n
      (liveWorld (program 0 ((snapshotHdr s).toBytes.take k)
        (erased hdrSize ++ (s.context ++ s.storage ++ rest))) s) := by
    intro k hk
    rcases Nat.lt_or_eq_of_le hk with hlt | rfl
    · exact persistLeaves_rejected o s n _ (hlen k) (torn_header_rejected s _ k hlt)
    · exact hpost.1
  refine (always_writeLocal 0 _ _ hfit).mpr (transferOk_intro ?_ ?_ ?_)
  · rw [show (blobHdr s.context.length s.storage.length).toBytes.length = hdrSize from
      toBytes_length _]
    exact hpost
  · intro e he k hk
    rw [show (blobHdr s.context.length s.storage.length).toBytes.length = hdrSize from
      toBytes_length _] at hk
    exact ⟨hleaves k hk, fun h => absurd h he⟩
  · intro k hk
    rw [show (blobHdr s.context.length s.storage.length).toBytes.length = hdrSize from
      toBytes_length _] at hk
    exact hleaves k hk

/-- A payload write leaves byte 0 erased, however far it got. -/
theorem persistLeaves_payload (n k : ℕ) (A B xs : List UInt8) (m : ℕ)
    (hA : A[0]? = some erasedByte) (hk : k ≤ xs.length) (hm : xs.length ≤ m)
    (hn : (A ++ erased m ++ B).length = n) :
    PersistLeaves o s n (liveWorld (program A.length (xs.take k) (A ++ erased m ++ B)) s) := by
  have hlen : (xs.take k).length = k := by
    rw [List.length_take]
    omega
  have hApos : 0 < A.length := by
    rcases Nat.eq_zero_or_pos A.length with h | h
    · rw [List.length_eq_zero_iff.mp h] at hA
      simp at hA
    · exact h
  refine persistLeaves_rejected o s n _ ?_ (rejected_of_first _ ?_)
  · rw [program_length _ _ _ ?_, hn]
    rw [List.length_append, List.length_append, List.length_replicate, hlen]
    omega
  · rw [program_erased _ _ _ _ (by omega), List.append_assoc, List.getElem?_append_left hApos, hA]

theorem persistWriteStorage_always (hs : s.WellSized) (n m : ℕ) (hm : s.storage.length ≤ m)
    (hn : n = hdrSize + s.context.length + m) :
    Always (flashDevice F outer) (PersistPost o s n) (PersistLeaves o s n)
      (persistWriteStorage s.context.length s.storage.length)
      (liveWorld (erased hdrSize ++ s.context ++ erased m ++ []) s) := by
  have hA : (erased hdrSize ++ s.context).length = hdrSize + s.context.length := by
    rw [List.length_append, List.length_replicate]
  have htotal : (erased hdrSize ++ s.context ++ erased m ++ []).length = n := by
    rw [List.append_nil, List.length_append, hA, List.length_replicate, hn]
  have hpart : ∀ k ≤ s.storage.length, PersistLeaves o s n (liveWorld
      (program (hdrSize + s.context.length) (s.storage.take k)
        (erased hdrSize ++ s.context ++ erased m ++ [])) s) := by
    intro k hk
    rw [← hA]
    exact persistLeaves_payload o s n k _ [] s.storage m (erased_head _ _ (by decide)) hk hm htotal
  refine (always_writeFrom _ _ _ _ ?_).mpr (transferOk_intro ?_ ?_ hpart)
  · show hdrSize + s.context.length + s.storage.length ≤ _
    rw [liveWorld_flash, htotal]
    omega
  · rw [if_pos rfl]
    have hfull : program (hdrSize + s.context.length)
        (((liveWorld (erased hdrSize ++ s.context ++ erased m ++ []) s).bytes .storage).take
          s.storage.length) (erased hdrSize ++ s.context ++ erased m ++ [])
        = erased hdrSize ++ (s.context ++ s.storage ++ (erased (m - s.storage.length) ++ [])) := by
      rw [liveWorld_bytes_storage, List.take_length, ← hA, program_erased _ _ _ _ hm]
      simp only [List.append_assoc]
    rw [liveWorld_flash, hfull]
    refine persistWriteHeader_always o s hs n _ ?_
    simp only [List.length_append, List.length_replicate, List.length_nil]
    omega
  · intro e he k hk
    rw [if_neg he]
    exact ⟨hpart k hk, fun h => absurd h he⟩

theorem persistWriteContext_always (hs : s.WellSized) (n m : ℕ)
    (hm : s.context.length + s.storage.length ≤ m) (hn : n = hdrSize + m) :
    Always (flashDevice F outer) (PersistPost o s n) (PersistLeaves o s n)
      (persistWriteContext s.context.length s.storage.length)
      (liveWorld (erased hdrSize ++ erased m ++ []) s) := by
  have hA : (erased hdrSize).length = hdrSize := List.length_replicate
  have htotal : (erased hdrSize ++ erased m ++ []).length = n := by
    rw [List.append_nil, List.length_append, hA, List.length_replicate, hn]
  have hpart : ∀ k ≤ s.context.length, PersistLeaves o s n (liveWorld
      (program hdrSize (s.context.take k) (erased hdrSize ++ erased m ++ [])) s) := by
    intro k hk
    have h := persistLeaves_payload o s n k (erased hdrSize) [] s.context m (by decide) hk (by omega)
      htotal
    rw [hA] at h
    exact h
  refine (always_writeFrom _ _ _ _ ?_).mpr (transferOk_intro ?_ ?_ hpart)
  · show hdrSize + s.context.length ≤ _
    rw [liveWorld_flash, htotal]
    omega
  · rw [if_pos rfl]
    have hfull : program hdrSize
        (((liveWorld (erased hdrSize ++ erased m ++ []) s).bytes .context).take s.context.length)
        (erased hdrSize ++ erased m ++ [])
        = erased hdrSize ++ s.context ++ erased (m - s.context.length) ++ [] := by
      have h := program_erased (erased hdrSize) s.context [] m (by omega)
      rw [hA] at h
      rw [liveWorld_bytes_context, List.take_length, h, List.append_assoc _ (erased _) []]
    rw [liveWorld_flash, hfull]
    exact persistWriteStorage_always o s hs n _ (by omega) (by omega)
  · intro e he k hk
    rw [if_neg he]
    exact ⟨hpart k hk, fun h => absurd h he⟩

/-- An erase of the whole partition has erased byte 0 or has not begun. -/
theorem represents_eraseRange (flash : List UInt8) (k : ℕ) (hrep : Represents flash o) :
    Represents (eraseRange 0 k flash) o ∨ Represents (eraseRange 0 k flash) none := by
  rcases Nat.eq_zero_or_pos k with rfl | hk
  · rw [eraseRange_zero]
    exact Or.inl hrep
  · exact Or.inr (rejected_of_first _ (eraseRange_head k flash hk))

theorem persistErase_always (hs : s.WellSized) (flash : List UInt8) (hrep : Represents flash o)
    (hfit : hdrSize + s.context.length + s.storage.length ≤ flash.length) :
    Always (flashDevice F outer) (PersistPost o s flash.length) (PersistLeaves o s flash.length)
      (persistErase s.context.length s.storage.length flash.length) (liveWorld flash s) := by
  have hpart : ∀ k ≤ flash.length, PersistLeaves o s flash.length
      (liveWorld (eraseRange 0 k flash) s) := by
    intro k hk
    refine ⟨rfl, eraseRange_length 0 k flash (by omega), ?_⟩
    rcases represents_eraseRange o flash k hrep with h | h
    · exact Or.inl h
    · exact Or.inr (Or.inl h)
  refine (always_erase 0 _ _ (by simp)).mpr (transferOk_intro ?_ ?_ hpart)
  · rw [if_pos rfl]
    have hfull : eraseRange 0 flash.length flash
        = erased hdrSize ++ erased (flash.length - hdrSize) ++ [] := by
      rw [eraseRange_all, List.append_nil, List.replicate_append_replicate]
      congr 1
      omega
    rw [liveWorld_flash, hfull]
    exact persistWriteContext_always o s hs _ _ (by omega) (by omega)
  · intro e he k hk
    rw [if_neg he]
    exact ⟨hpart k hk, fun h => absurd h he⟩

/-- **One persist.**  Whatever fails, the partition represents what it did before, nothing, or the
live bytes; a return value of zero means the live bytes. -/
theorem memfaultLogStatePersistNow_always (hs : s.WellSized) (flash : List UInt8)
    (hrep : Represents flash o) :
    Always (flashDevice F outer) (PersistPost o s flash.length) (PersistLeaves o s flash.length)
      memfaultLogStatePersistNow (liveWorld flash s) := by
  have hkeep : PersistLeaves o s flash.length (liveWorld flash s) := ⟨rfl, rfl, Or.inl hrep⟩
  rw [memfaultLogStatePersistNow_eq, always_objectSize, always_objectSize]
  refine (always_openArea (persistOpened s.context.length s.storage.length)).mpr
    ⟨?_, fun _ e => ⟨hkeep, fun h => ?_⟩, fun _ => hkeep⟩
  · show Always _ _ _ (if flash.length < hdrSize + s.context.length + s.storage.length then
      .ret enospc else persistErase s.context.length s.storage.length flash.length) _
    by_cases hlarge : flash.length < hdrSize + s.context.length + s.storage.length
    · rw [if_pos hlarge]
      exact ⟨hkeep, fun h => absurd h (by decide)⟩
    · rw [if_neg hlarge]
      exact persistErase_always o s hs flash hrep (by omega)
  · exact absurd h e.property.ne

end Persist

/-! ### The restore -/

/-- What a restore over a partition of `n` bytes that represents `o` leaves, complete or not. -/
structure RestoreLeaves (o : Option LogSnapshot) (n : ℕ) (w : LogWorld) : Prop where
  length_eq : w.flash.length = n
  content : Represents w.flash o ∨ Represents w.flash none

/-- The same when the restore has returned `r`; `live` is the ring buffer before the call. -/
def RestorePost (o : Option LogSnapshot) (live : LogSnapshot) (n : ℕ) (r : ℤ) (w : LogWorld) :
    Prop :=
  RestoreLeaves o n w ∧
    ((r = 0 ∧ ∃ s, o = some s ∧ w.ram = liveRam s) ∨ (r ≠ 0 ∧ w.ram = liveRam live))

theorem fill_context (flash xs : List UInt8) (t : LogSnapshot) (h : xs.length = t.context.length) :
    (liveWorld flash t).fill .context xs = liveWorld flash ⟨xs, t.storage⟩ := by
  have hram : Function.update (liveRam t) .context (some xs) = liveRam ⟨xs, t.storage⟩ := by
    funext obj
    cases obj with
    | context => rfl
    | storage => rfl
  show (⟨flash, Function.update (liveRam t) .context (some (overwrite 0 xs t.context)), ()⟩ :
    LogWorld) = _
  rw [overwrite_zero_of_length_eq xs t.context h, hram]
  rfl

theorem fill_storage (flash xs : List UInt8) (t : LogSnapshot) (h : xs.length = t.storage.length) :
    (liveWorld flash t).fill .storage xs = liveWorld flash ⟨t.context, xs⟩ := by
  have hram : Function.update (liveRam t) .storage (some xs) = liveRam ⟨t.context, xs⟩ := by
    funext obj
    cases obj with
    | context => rfl
    | storage => rfl
  show (⟨flash, Function.update (liveRam t) .storage (some (overwrite 0 xs t.storage)), ()⟩ :
    LogWorld) = _
  rw [overwrite_zero_of_length_eq xs t.storage h, hram]
  rfl

section Restore

variable {F : FaultModel} {outer : LogCall → LogWorld → LogWorld}
variable (o : Option LogSnapshot) (live : LogSnapshot)

/-- The erase at the end cannot spoil the outcome, it only empties the partition. -/
theorem restoreErase_always (flash : List UInt8) (t : LogSnapshot) (r : ℤ)
    (hrep : Represents flash o) (hr : (r = 0 ∧ o = some t) ∨ (r ≠ 0 ∧ t = live)) :
    Always (flashDevice F outer) (RestorePost o live flash.length) (RestoreLeaves o flash.length)
      (restoreErase flash.length r) (liveWorld flash t) := by
  have hpart : ∀ k ≤ flash.length, RestoreLeaves o flash.length
      (liveWorld (eraseRange 0 k flash) t) := fun k hk =>
    ⟨eraseRange_length 0 k flash (by omega), represents_eraseRange o flash k hrep⟩
  have hpost : ∀ k ≤ flash.length, RestorePost o live flash.length r
      (liveWorld (eraseRange 0 k flash) t) := by
    intro k hk
    refine ⟨hpart k hk, ?_⟩
    rcases hr with ⟨h0, ho⟩ | ⟨hne, rfl⟩
    · exact Or.inl ⟨h0, t, ho, rfl⟩
    · exact Or.inr ⟨hne, rfl⟩
  exact (always_erase 0 _ _ (by simp)).mpr
    (transferOk_intro (hpost _ le_rfl) (fun _ _ k hk => hpost k hk) hpart)

/-- The copy of a complete blob over a live ring buffer of the same lengths. -/
theorem restoreCopyContext_always (hread : F.mayFail .read = false) (s : LogSnapshot)
    (hs : s.WellSized) (flash : List UInt8) (hholds : Holds flash s)
    (hcl : live.context.length = s.context.length) (hsl : live.storage.length = s.storage.length) :
    Always (flashDevice F outer) (RestorePost (some s) live flash.length)
      (RestoreLeaves (some s) flash.length)
      (restoreCopyContext s.context.length s.storage.length flash.length) (liveWorld flash live) := by
  have hlen := holds_length flash s hholds
  have hrep : Represents flash (some s) := ⟨hs, hholds⟩
  obtain ⟨rest, hrest⟩ := hholds
  have hctx : readRange hdrSize s.context.length flash = s.context := by
    rw [hrest, readRange_context]
  have hsto : readRange (hdrSize + s.context.length) s.storage.length flash = s.storage := by
    rw [hrest, readRange_storage]
  refine (always_readInto _ _ _ _ (by rw [liveWorld_flash]; omega)).mpr ⟨?_, ?_, ?_⟩
  · show Always _ _ _ (restoreCopyStorage s.context.length s.storage.length flash.length)
      ((liveWorld flash live).fill .context (readRange hdrSize s.context.length flash))
    rw [hctx, fill_context _ _ _ hcl.symm]
    refine (always_readInto _ _ _ _ (by rw [liveWorld_flash]; omega)).mpr ⟨?_, ?_, ?_⟩
    · show Always _ _ _ (restoreErase flash.length 0) ((liveWorld flash ⟨s.context, live.storage⟩).fill
        .storage (readRange (hdrSize + s.context.length) s.storage.length flash))
      rw [hsto, fill_storage flash s.storage ⟨s.context, live.storage⟩ hsl.symm]
      exact restoreErase_always (some s) live flash s 0 hrep (Or.inl ⟨rfl, rfl⟩)
    · intro hfail
      rw [hread] at hfail
      exact absurd hfail (by decide)
    · intro _ k
      exact ⟨rfl, Or.inl hrep⟩
  · intro hfail
    rw [hread] at hfail
    exact absurd hfail (by decide)
  · intro _ k
    exact ⟨rfl, Or.inl hrep⟩

/-- A header that passes every test belongs to a complete blob of the live lengths. -/
theorem represents_accepted (hl : live.WellSized) (flash : List UInt8) (hrep : Represents flash o)
    (hacc : Accepts flash live.context.length live.storage.length) :
    ∃ s, o = some s ∧ s.WellSized ∧ Holds flash s ∧
      live.context.length = s.context.length ∧ live.storage.length = s.storage.length := by
  cases o with
  | none => exact absurd hacc (hrep _ _ hl.storage_lt)
  | some s =>
    obtain ⟨hs, hholds⟩ := hrep
    obtain ⟨-, -, hcl, hsl⟩ := hacc
    rw [holds_hdr flash s hholds] at hcl hsl
    exact ⟨s, rfl, hs, hholds, ofNat_inj_of_lt hl.context_word hs.context_word hcl.symm,
      ofNat_inj_of_lt hl.storage_word hs.storage_word hsl.symm⟩

theorem restoreChecked_always (hread : F.mayFail .read = false) (hl : live.WellSized)
    (flash : List UInt8) (hrep : Represents flash o) (hlen : hdrSize ≤ flash.length) :
    Always (flashDevice F outer) (RestorePost o live flash.length) (RestoreLeaves o flash.length)
      (restoreChecked (LogStateHdr.ofBytes (readRange 0 hdrSize flash)) flash.length)
      (liveWorld flash live) := by
  simp only [restoreChecked]
  by_cases hv : (LogStateHdr.ofBytes (readRange 0 hdrSize flash)).Valid
  · rw [if_pos hv, always_objectSize, always_objectSize]
    show Always _ _ _ (restoreSized _ flash.length (some live.context.length)
      (some live.storage.length)) _
    simp only [restoreSized]
    split
    · rename_i hsame
      obtain ⟨s, rfl, hs, hholds, hcl, hsl⟩ :=
        represents_accepted o live hl flash hrep ⟨hlen, hv, hsame⟩
      rw [holds_hdr flash s hholds]
      rw [snapshotHdr_contextLen hs.context_word, snapshotHdr_storageLen hs.storage_word]
      exact restoreCopyContext_always live hread s hs flash hholds hcl hsl
    · exact restoreErase_always o live flash live enospc hrep (Or.inr ⟨by decide, rfl⟩)
  · rw [if_neg hv]
    exact ⟨⟨rfl, Or.inl hrep⟩, Or.inr ⟨by decide, rfl⟩⟩

/-- **One restore.**  Zero means that the partition represented a snapshot and it is now live;
anything else means that the live ring buffer is untouched. -/
theorem restoreFromPartition_always (hread : F.mayFail .read = false) (hl : live.WellSized)
    (flash : List UInt8) (hrep : Represents flash o) :
    Always (flashDevice F outer) (RestorePost o live flash.length) (RestoreLeaves o flash.length)
      restoreFromPartition (liveWorld flash live) := by
  have hleaves : RestoreLeaves o flash.length (liveWorld flash live) := ⟨rfl, Or.inl hrep⟩
  have hreject : RestorePost o live flash.length enoent (liveWorld flash live) :=
    ⟨hleaves, Or.inr ⟨by decide, rfl⟩⟩
  rw [restoreFromPartition_eq]
  refine (always_openArea restoreOpened).mpr ⟨?_, fun _ _ => hreject, fun _ => hleaves⟩
  by_cases hlen : 0 + hdrSize ≤ flash.length
  · refine (always_readLocal 0 hdrSize (restoreHdrRead flash.length) hlen).mpr
      ⟨?_, fun _ _ => hreject, fun _ => hleaves⟩
    exact restoreChecked_always o live hread hl flash hrep (by omega)
  · exact (always_readLocal_outside 0 hdrSize (restoreHdrRead flash.length) hlen).mpr hreject

/-- The erase at the end changes neither the return value nor the live ring buffer. -/
theorem restoreErase_returns (flash : List UInt8) (t : LogSnapshot) (r : ℤ) :
    Always (flashDevice F outer) (fun r' w => r' = r ∧ w.ram = liveRam t) (fun _ => True)
      (restoreErase flash.length r) (liveWorld flash t) :=
  (always_erase 0 _ _ (by simp)).mpr
    (transferOk_intro ⟨rfl, rfl⟩ (fun _ _ _ _ => ⟨rfl, rfl⟩) fun _ _ => trivial)

/-- What a restore does with a stored blob: copy it, or reject it for its lengths. -/
def Settled (s live : LogSnapshot) (r : ℤ) (w : LogWorld) : Prop :=
  (r = 0 ∧ w.ram = liveRam s) ∨
    (r = enospc ∧
      (s.context.length ≠ live.context.length ∨ s.storage.length ≠ live.storage.length))

/-- **A readable blob is settled.**  If opens and reads succeed, a restore over a complete blob copies
it or returns `-ENOSPC` for a size mismatch. -/
theorem restoreFromPartition_settles (hopen : F.mayFail .openArea = false)
    (hread : F.mayFail .read = false) (hl : live.WellSized) (s : LogSnapshot) (hs : s.WellSized)
    (flash : List UInt8) (hholds : Holds flash s) :
    Always (flashDevice F outer) (Settled s live) (fun _ => True) restoreFromPartition
      (liveWorld flash live) := by
  have hnoread : ∀ P : Prop, F.mayFail .read = true → P := by
    intro P hfail
    rw [hread] at hfail
    exact absurd hfail (by decide)
  have hlen := holds_length flash s hholds
  have hdr := holds_hdr flash s hholds
  obtain ⟨rest, hrest⟩ := id hholds
  rw [restoreFromPartition_eq]
  refine (always_openArea restoreOpened).mpr ⟨?_, fun hfail => ?_, fun _ => trivial⟩
  · refine (always_readLocal 0 hdrSize (restoreHdrRead flash.length)
      (by rw [liveWorld_flash]; omega)).mpr ⟨?_, hnoread _, fun _ => trivial⟩
    show Always _ _ _ (restoreChecked (LogStateHdr.ofBytes (readRange 0 hdrSize flash)) _) _
    simp only [restoreChecked]
    rw [hdr, if_pos (hs.hdr_valid), always_objectSize, always_objectSize]
    show Always _ _ _ (restoreSized (snapshotHdr s) flash.length (some live.context.length)
      (some live.storage.length)) _
    simp only [restoreSized]
    split
    · rename_i hsame
      have hcl : s.context.length = live.context.length :=
        ofNat_inj_of_lt hs.context_word hl.context_word hsame.1
      have hsl : s.storage.length = live.storage.length :=
        ofNat_inj_of_lt hs.storage_word hl.storage_word hsame.2
      rw [snapshotHdr_contextLen hs.context_word, snapshotHdr_storageLen hs.storage_word]
      refine (always_readInto _ _ _ _ (by rw [liveWorld_flash]; omega)).mpr
        ⟨?_, hnoread _, fun _ _ => trivial⟩
      show Always _ _ _ (restoreCopyStorage s.context.length s.storage.length flash.length)
        ((liveWorld flash live).fill .context (readRange hdrSize s.context.length flash))
      rw [hrest, readRange_context, ← hrest, fill_context _ _ _ hcl]
      refine (always_readInto _ _ _ _ (by rw [liveWorld_flash]; omega)).mpr
        ⟨?_, hnoread _, fun _ _ => trivial⟩
      show Always _ _ _ (restoreErase flash.length 0)
        ((liveWorld flash ⟨s.context, live.storage⟩).fill .storage
          (readRange (hdrSize + s.context.length) s.storage.length flash))
      rw [hrest, readRange_storage, ← hrest, fill_storage flash s.storage ⟨s.context, live.storage⟩ hsl]
      exact always_mono (restoreErase_returns flash s 0) (fun _ _ h => Or.inl h) fun _ h => h
    · rename_i hdiff
      refine always_mono (restoreErase_returns flash live enospc) (fun r w h => Or.inr ⟨h.1, ?_⟩)
        fun _ h => h
      by_contra hsame
      rw [not_or, not_not, not_not] at hsame
      exact hdiff ⟨congrArg UInt32.ofNat hsame.1, congrArg UInt32.ofNat hsame.2⟩
  · rw [hopen] at hfail
    exact absurd hfail (by decide)

/-- What the outside calls of a restore do: the reset touches no log byte, and saving the marker
line changes the live ring buffer by `marker`. -/
def logOutside (marker : (LogObj → Option (List UInt8)) → LogObj → Option (List UInt8)) :
    LogCall → LogWorld → LogWorld
  | .memfaultLogDataSourceReset, w => w
  | .restoreMarker, w => { w with ram := marker w.ram }

/-- `RestorePost` after the marker line has been saved. -/
def RestoreConnectPost (marker : (LogObj → Option (List UInt8)) → LogObj → Option (List UInt8))
    (o : Option LogSnapshot) (live : LogSnapshot) (n : ℕ) (r : ℤ) (w : LogWorld) : Prop :=
  RestoreLeaves o n w ∧
    ((r = 0 ∧ ∃ s, o = some s ∧ w.ram = marker (liveRam s)) ∨ (r ≠ 0 ∧ w.ram = liveRam live))

theorem memfaultLogStateRestoreOnConnect_always
    (marker : (LogObj → Option (List UInt8)) → LogObj → Option (List UInt8))
    (hread : F.mayFail .read = false) (hl : live.WellSized)
    (flash : List UInt8) (hrep : Represents flash o) :
    Always (flashDevice F (logOutside marker)) (RestoreConnectPost marker o live flash.length)
      (RestoreLeaves o flash.length) memfaultLogStateRestoreOnConnect (liveWorld flash live) := by
  rw [memfaultLogStateRestoreOnConnect_eq, always_bind]
  refine always_mono (restoreFromPartition_always o live hread hl flash hrep) ?_ fun _ h => h
  rintro r w ⟨hleaves, ⟨rfl, s, ho, hram⟩ | ⟨hne, hram⟩⟩
  · rw [if_pos rfl, always_outside, always_outside, always_ret]
    refine ⟨⟨hleaves.length_eq, hleaves.content⟩, Or.inl ⟨rfl, s, ho, ?_⟩⟩
    show marker w.ram = _
    rw [hram]
  · rw [if_neg hne]
    exact ⟨hleaves, Or.inr ⟨hne, hram⟩⟩

end Restore

end WifiMemfault.LogStateSpec
