import WifiMemfault.LogStateRestore

/-!
# What the log-state partition stands for

A partition either stands for a complete blob or is one that no restore accepts.  `blobImage` is the
blob a persist leaves behind, `Accepts` is the test the restore applies to header and live lengths,
and `Represents` relates the bytes to the abstract content, at most one snapshot.

The crash argument rests on two bytes.  A header is accepted only if byte 0 and byte 15 are both
programmed: byte 0 is the first byte of the magic, byte 15 the top byte of `storage_len`, which is
zero for blobs below `2^24` bytes (`accepts_first`, `accepts_last`).  Everything short of a complete
header leaves one of them erased.
-/

namespace WifiMemfault.LogStateImage

open EffectProgram ByteList NorFlash LogStateRestore

/-- The context and storage bytes of a ring buffer at one instant. -/
@[ext] structure LogSnapshot where
  context : List UInt8
  storage : List UInt8
  deriving DecidableEq, Repr

/-- The lengths a live ring buffer of this firmware can have. -/
structure LogSnapshot.WellSized (s : LogSnapshot) : Prop where
  context_pos : 0 < s.context.length
  storage_pos : 0 < s.storage.length
  context_lt : s.context.length < 2 ^ 24
  storage_lt : s.storage.length < 2 ^ 24

/-- The RAM objects of a live ring buffer with these bytes. -/
def liveRam (s : LogSnapshot) : LogObj → Option (List UInt8)
  | .context => some s.context
  | .storage => some s.storage

/-- The header of a snapshot's blob. -/
def snapshotHdr (s : LogSnapshot) : LogStateHdr := blobHdr s.context.length s.storage.length

/-- The blob of a snapshot: header, context bytes, storage bytes. -/
def blobImage (s : LogSnapshot) : List UInt8 := (snapshotHdr s).toBytes ++ s.context ++ s.storage

/-! ### The header -/

@[simp] theorem toBytes_length (h : LogStateHdr) : h.toBytes.length = hdrSize := by
  simp [LogStateHdr.toBytes, hdrSize]

/-- **Header round trip.** -/
theorem ofBytes_toBytes (h : LogStateHdr) : LogStateHdr.ofBytes h.toBytes = h := by
  ext1
  · show UInt32.ofNat (ofLe (leBytes 4 h.magic.toNat)) = h.magic
    rw [ofLe_leBytes]
    simp
  · show UInt16.ofNat (ofLe (leBytes 2 h.version.toNat)) = h.version
    rw [ofLe_leBytes]
    simp
  · show UInt16.ofNat (ofLe (leBytes 2 h.reserved.toNat)) = h.reserved
    rw [ofLe_leBytes]
    simp
  · show UInt32.ofNat (ofLe (leBytes 4 h.contextLen.toNat)) = h.contextLen
    rw [ofLe_leBytes]
    simp
  · show UInt32.ofNat (ofLe (leBytes 4 h.storageLen.toNat)) = h.storageLen
    rw [ofLe_leBytes]
    simp

theorem ofNat_toNat_of_lt (n : ℕ) (h : n < 2 ^ 32) : (UInt32.ofNat n).toNat = n :=
  UInt32.toNat_ofNat_of_lt' h

theorem ofNat_ne_zero (n : ℕ) (hpos : 0 < n) (h : n < 2 ^ 32) : UInt32.ofNat n ≠ 0 := by
  intro hz
  have hn := ofNat_toNat_of_lt n h
  rw [hz] at hn
  simp at hn
  omega

theorem ofNat_inj_of_lt {m n : ℕ} (hm : m < 2 ^ 32) (hn : n < 2 ^ 32)
    (h : UInt32.ofNat m = UInt32.ofNat n) : m = n := by
  rw [← ofNat_toNat_of_lt m hm, ← ofNat_toNat_of_lt n hn, h]

section Lengths

variable {s : LogSnapshot}

theorem snapshotHdr_contextLen (h : s.context.length < 2 ^ 32) :
    (snapshotHdr s).contextLen.toNat = s.context.length := ofNat_toNat_of_lt _ h

theorem snapshotHdr_storageLen (h : s.storage.length < 2 ^ 32) :
    (snapshotHdr s).storageLen.toNat = s.storage.length := ofNat_toNat_of_lt _ h

theorem snapshotHdr_valid (hcontext : 0 < s.context.length) (hstorage : 0 < s.storage.length)
    (hc : s.context.length < 2 ^ 32) (hs : s.storage.length < 2 ^ 32) : (snapshotHdr s).Valid :=
  ⟨rfl, rfl, ofNat_ne_zero _ hcontext hc, ofNat_ne_zero _ hstorage hs⟩

theorem LogSnapshot.WellSized.context_word (hs : s.WellSized) : s.context.length < 2 ^ 32 :=
  hs.context_lt.trans (by decide)

theorem LogSnapshot.WellSized.storage_word (hs : s.WellSized) : s.storage.length < 2 ^ 32 :=
  hs.storage_lt.trans (by decide)

theorem LogSnapshot.WellSized.hdr_valid (hs : s.WellSized) : (snapshotHdr s).Valid :=
  snapshotHdr_valid hs.context_pos hs.storage_pos hs.context_word hs.storage_word

end Lengths

/-! ### Accepting a partition -/

/-- The restore's test: a header is there, it is valid, and both lengths are the live ones. -/
def Accepts (flash : List UInt8) (contextLen storageLen : ℕ) : Prop :=
  hdrSize ≤ flash.length ∧
    (LogStateHdr.ofBytes (readRange 0 hdrSize flash)).Valid ∧
    (LogStateHdr.ofBytes (readRange 0 hdrSize flash)).contextLen = UInt32.ofNat contextLen ∧
    (LogStateHdr.ofBytes (readRange 0 hdrSize flash)).storageLen = UInt32.ofNat storageLen

/-- No live ring buffer of an admissible size makes the restore accept this partition. -/
def Rejected (flash : List UInt8) : Prop :=
  ∀ contextLen storageLen, storageLen < 2 ^ 24 → ¬ Accepts flash contextLen storageLen

/-- The partition starts with the complete blob of `s`. -/
def Holds (flash : List UInt8) (s : LogSnapshot) : Prop := ∃ rest, flash = blobImage s ++ rest

/-- What a partition stands for: the snapshot of a complete blob, or nothing. -/
def Represents (flash : List UInt8) : Option LogSnapshot → Prop
  | some s => s.WellSized ∧ Holds flash s
  | none => Rejected flash

/-- An accepted header has its first byte programmed. -/
theorem accepts_first (flash : List UInt8) (cl sl : ℕ) (h : Accepts flash cl sl) :
    flash[0]? ≠ some erasedByte := by
  intro hff
  obtain ⟨hlen, ⟨hmagic, -⟩, -⟩ := h
  have hbyte : ((readRange 0 hdrSize flash).take 4)[0]? = some erasedByte := by
    simp [readRange, hdrSize, hff]
  have hval : ofLe ((readRange 0 hdrSize flash).take 4) = logStateMagic.toNat := by
    have hlt : ofLe ((readRange 0 hdrSize flash).take 4) < 2 ^ 32 := by
      have hb := ofLe_lt ((readRange 0 hdrSize flash).take 4)
      have h4 : ((readRange 0 hdrSize flash).take 4).length = 4 := by
        rw [List.length_take, readRange_length 0 hdrSize flash (by omega)]
        rfl
      rw [h4] at hb
      exact hb
    rw [← hmagic]
    show _ = (UInt32.ofNat _).toNat
    rw [UInt32.toNat_ofNat']
    exact (Nat.mod_eq_of_lt hlt).symm
  have hmod := ofLe_first _ _ hbyte
  rw [hval] at hmod
  exact absurd hmod (by decide)

/-- An accepted header has its last byte programmed: it is the top byte of a length below `2^24`. -/
theorem accepts_last (flash : List UInt8) (cl sl : ℕ) (hsl : sl < 2 ^ 24) (h : Accepts flash cl sl) :
    flash[15]? ≠ some erasedByte := by
  intro hff
  obtain ⟨hlen, -, -, hstorage⟩ := h
  have hbyte : (((readRange 0 hdrSize flash).drop 12).take 4)[3]? = some erasedByte := by
    simp [readRange, hdrSize, hff]
  have h4 : (((readRange 0 hdrSize flash).drop 12).take 4).length = 4 := by
    rw [List.length_take, List.length_drop, readRange_length 0 hdrSize flash (by omega)]
    rfl
  have hbound := ofLe_fourth _ _ h4 hbyte
  have hlt := ofLe_lt (((readRange 0 hdrSize flash).drop 12).take 4)
  rw [h4] at hlt
  have hval : ofLe (((readRange 0 hdrSize flash).drop 12).take 4) = sl := by
    rw [← ofNat_toNat_of_lt sl (hsl.trans (by decide)), ← hstorage]
    show _ = (UInt32.ofNat _).toNat
    rw [UInt32.toNat_ofNat']
    exact (Nat.mod_eq_of_lt hlt).symm
  have hff255 : erasedByte.toNat = 255 := rfl
  omega

theorem rejected_of_first (flash : List UInt8) (h : flash[0]? = some erasedByte) :
    Rejected flash :=
  fun cl sl _ hacc => accepts_first flash cl sl hacc h

theorem rejected_of_last (flash : List UInt8) (h : flash[15]? = some erasedByte) :
    Rejected flash :=
  fun cl sl hsl hacc => accepts_last flash cl sl hsl hacc h

/-! ### A complete blob is accepted for its own lengths only -/

theorem readRange_hdr (s : LogSnapshot) (rest : List UInt8) :
    readRange 0 hdrSize (blobImage s ++ rest) = (snapshotHdr s).toBytes := by
  have h := readRange_append [] (snapshotHdr s).toBytes (s.context ++ (s.storage ++ rest))
  rw [toBytes_length, List.length_nil, List.nil_append] at h
  rw [blobImage, List.append_assoc, List.append_assoc]
  exact h

theorem readRange_context (s : LogSnapshot) (rest : List UInt8) :
    readRange hdrSize s.context.length (blobImage s ++ rest) = s.context := by
  have h := readRange_append (snapshotHdr s).toBytes s.context (s.storage ++ rest)
  rw [toBytes_length] at h
  rw [blobImage, List.append_assoc]
  exact h

theorem readRange_storage (s : LogSnapshot) (rest : List UInt8) :
    readRange (hdrSize + s.context.length) s.storage.length (blobImage s ++ rest) = s.storage := by
  have h := readRange_append ((snapshotHdr s).toBytes ++ s.context) s.storage rest
  rw [List.length_append, toBytes_length] at h
  exact h

theorem blobImage_length (s : LogSnapshot) :
    (blobImage s).length = hdrSize + s.context.length + s.storage.length := by
  simp [blobImage, Nat.add_assoc]

theorem holds_hdr (flash : List UInt8) (s : LogSnapshot) (h : Holds flash s) :
    LogStateHdr.ofBytes (readRange 0 hdrSize flash) = snapshotHdr s := by
  obtain ⟨rest, rfl⟩ := h
  rw [readRange_hdr, ofBytes_toBytes]

theorem holds_length (flash : List UInt8) (s : LogSnapshot) (h : Holds flash s) :
    hdrSize + s.context.length + s.storage.length ≤ flash.length := by
  obtain ⟨rest, rfl⟩ := h
  rw [List.length_append, blobImage_length]
  omega

theorem holds_accepts (flash : List UInt8) (s : LogSnapshot) (hs : s.WellSized)
    (h : Holds flash s) : Accepts flash s.context.length s.storage.length := by
  have hlen := holds_length flash s h
  refine ⟨by omega, ?_⟩
  rw [holds_hdr flash s h]
  exact ⟨hs.hdr_valid, rfl, rfl⟩

theorem holds_unique (flash : List UInt8) (s t : LogSnapshot) (hs : s.WellSized) (ht : t.WellSized)
    (h : Holds flash s) (h' : Holds flash t) : s = t := by
  have hh : snapshotHdr s = snapshotHdr t := by rw [← holds_hdr flash s h, holds_hdr flash t h']
  have hcl : s.context.length = t.context.length :=
    ofNat_inj_of_lt hs.context_word ht.context_word (congrArg LogStateHdr.contextLen hh)
  have hsl : s.storage.length = t.storage.length :=
    ofNat_inj_of_lt hs.storage_word ht.storage_word (congrArg LogStateHdr.storageLen hh)
  obtain ⟨rest, rfl⟩ := h
  obtain ⟨rest', hrest⟩ := h'
  ext1
  · rw [← readRange_context s rest, hrest, hcl, readRange_context]
  · rw [← readRange_storage s rest, hrest, hcl, hsl, readRange_storage]

end WifiMemfault.LogStateImage
