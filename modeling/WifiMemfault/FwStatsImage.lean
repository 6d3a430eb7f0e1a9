import WifiMemfault.FwStatsCdr

/-!
# What the CDR partition stands for

`storedSnapshot` reads a partition as the restore does: one snapshot, or nothing.  The restore does not
look at the last word of the header, so a header write that got 12 of its 16 bytes out is as good as a
complete one.  Byte 11 decides: it is the top byte of the size, zero for every snapshot of at most 1024
bytes, and erased until then.
-/

namespace WifiMemfault.FwStatsImage

open EffectProgram ByteList NorFlash FwStatsCdr

/-- The snapshots the buffer can hold. -/
structure SnapshotOk (snap : List UInt8) : Prop where
  pos : 0 < snap.length
  le : snap.length ≤ nrf70FwStatsBlobMaxSize

/-- The size in the header at the start of a partition. -/
def hdrBlobSize (flash : List UInt8) : ℕ :=
  (CdrStateHdr.ofBytes (readRange 0 cdrHdrSize flash)).blobSize.toNat

/-- A restore gets as far as copying the blob, and the blob lies inside the partition. -/
def Accepts (flash : List UInt8) : Prop :=
  cdrHdrSize ≤ flash.length ∧ (CdrStateHdr.ofBytes (readRange 0 cdrHdrSize flash)).Valid ∧
    cdrHdrSize + hdrBlobSize flash ≤ flash.length

instance (flash : List UInt8) : Decidable (Accepts flash) := inferInstanceAs (Decidable (_ ∧ _ ∧ _))

/-- What a partition stands for: one snapshot, or nothing. -/
def storedSnapshot (flash : List UInt8) : Option (List UInt8) :=
  if Accepts flash then some (readRange cdrHdrSize (hdrBlobSize flash) flash) else none

/-- The bytes of the header a restore looks at. -/
def checkedHdr (len : ℕ) : List UInt8 := (cdrHdr len).toBytes.take 12

/-! ### The header -/

@[simp] theorem toBytes_length (h : CdrStateHdr) : h.toBytes.length = cdrHdrSize := by
  simp [CdrStateHdr.toBytes, cdrHdrSize]

theorem checkedHdr_length (len : ℕ) : (checkedHdr len).length = 12 := by
  rw [checkedHdr, List.length_take, toBytes_length]
  rfl

theorem checkedHdr_eq (len : ℕ) : checkedHdr len =
    leBytes 4 cdrStateMagic.toNat ++ leBytes 2 cdrStateVer.toNat ++ leBytes 2 0
      ++ leBytes 4 (UInt32.ofNat len).toNat :=
  rfl

theorem ofNat_toNat_of_le {n : ℕ} (h : n ≤ nrf70FwStatsBlobMaxSize) :
    (UInt32.ofNat n).toNat = n := by
  rw [UInt32.toNat_ofNat']
  refine Nat.mod_eq_of_lt ?_
  have hmax : nrf70FwStatsBlobMaxSize = 1024 := rfl
  omega

theorem ofNat_ne_zero_of_ok {snap : List UInt8} (h : SnapshotOk snap) :
    UInt32.ofNat snap.length ≠ 0 := by
  intro hz
  have hn := ofNat_toNat_of_le h.le
  have hpos := h.pos
  rw [hz] at hn
  simp at hn
  omega

/-- What the restore reads off a header it accepts. -/
theorem ofBytes_checkedHdr (len : ℕ) (reserved2 : List UInt8) :
    (CdrStateHdr.ofBytes (checkedHdr len ++ reserved2)).magic = cdrStateMagic ∧
      (CdrStateHdr.ofBytes (checkedHdr len ++ reserved2)).version = cdrStateVer ∧
      (CdrStateHdr.ofBytes (checkedHdr len ++ reserved2)).blobSize = UInt32.ofNat len := by
  rw [checkedHdr_eq]
  refine ⟨?_, ?_, ?_⟩
  · show UInt32.ofNat (ofLe (leBytes 4 cdrStateMagic.toNat)) = cdrStateMagic
    rw [ofLe_leBytes]
    simp
  · show UInt16.ofNat (ofLe (leBytes 2 cdrStateVer.toNat)) = cdrStateVer
    rw [ofLe_leBytes]
    simp
  · show UInt32.ofNat (ofLe (leBytes 4 (UInt32.ofNat len).toNat)) = UInt32.ofNat len
    have hlt : (UInt32.ofNat len).toNat < 256 ^ 4 := UInt32.toNat_lt _
    rw [ofLe_leBytes, Nat.mod_eq_of_lt hlt, UInt32.ofNat_toNat]

theorem toNat_ofNat_ofLe (bs : List UInt8) (h : bs.length = 4) :
    (UInt32.ofNat (ofLe bs)).toNat = ofLe bs := by
  have hlt := ofLe_lt bs
  rw [h] at hlt
  rw [UInt32.toNat_ofNat']
  exact Nat.mod_eq_of_lt hlt

/-- An accepted header has its first byte programmed. -/
theorem accepts_first {flash : List UInt8} (h : Accepts flash) : flash[0]? ≠ some erasedByte := by
  intro hff
  obtain ⟨hlen, ⟨hmagic, -⟩, -⟩ := h
  have h16 : cdrHdrSize = 16 := rfl
  have hbyte : ((readRange 0 cdrHdrSize flash).take 4)[0]? = some erasedByte := by
    simp [readRange, cdrHdrSize, hff]
  have h4 : ((readRange 0 cdrHdrSize flash).take 4).length = 4 := by
    rw [List.length_take, readRange_length 0 cdrHdrSize flash (by omega)]
    rfl
  have hval : ofLe ((readRange 0 cdrHdrSize flash).take 4) = cdrStateMagic.toNat := by
    rw [← hmagic]
    exact (toNat_ofNat_ofLe _ h4).symm
  have hmod := ofLe_first _ _ hbyte
  rw [hval] at hmod
  exact absurd hmod (by decide)

/-- An accepted header has byte 11 programmed: it is the top byte of a size up to 1024. -/
theorem accepts_size {flash : List UInt8} (h : Accepts flash) : flash[11]? ≠ some erasedByte := by
  intro hff
  obtain ⟨hlen, ⟨-, -, -, hsize⟩, -⟩ := h
  have h16 : cdrHdrSize = 16 := rfl
  have hbyte : (((readRange 0 cdrHdrSize flash).drop 8).take 4)[3]? = some erasedByte := by
    simp [readRange, cdrHdrSize, hff]
  have h4 : (((readRange 0 cdrHdrSize flash).drop 8).take 4).length = 4 := by
    rw [List.length_take, List.length_drop, readRange_length 0 cdrHdrSize flash (by omega)]
    rfl
  have hbound := ofLe_fourth _ _ h4 hbyte
  have hval : (CdrStateHdr.ofBytes (readRange 0 cdrHdrSize flash)).blobSize.toNat
      = ofLe (((readRange 0 cdrHdrSize flash).drop 8).take 4) := toNat_ofNat_ofLe _ h4
  have hmax : nrf70FwStatsBlobMaxSize = 1024 := rfl
  have hff255 : erasedByte.toNat = 255 := rfl
  omega

/-! ### A stored snapshot -/

theorem storedSnapshot_none {flash : List UInt8} (h : ¬ Accepts flash) : storedSnapshot flash = none :=
  if_neg h

theorem accepts_of_stored {flash snap : List UInt8} (h : storedSnapshot flash = some snap) :
    Accepts flash := by
  by_contra hacc
  rw [storedSnapshot_none hacc] at h
  cases h

theorem not_accepts_of_none {flash : List UInt8} (h : storedSnapshot flash = none) :
    ¬ Accepts flash := by
  intro hacc
  rw [storedSnapshot, if_pos hacc] at h
  cases h

/-- What a restore copies is a snapshot the buffer can hold. -/
theorem storedSnapshot_ok {flash snap : List UInt8} (h : storedSnapshot flash = some snap) :
    SnapshotOk snap ∧ snap = readRange cdrHdrSize snap.length flash ∧
      hdrBlobSize flash = snap.length := by
  have hacc := accepts_of_stored h
  rw [storedSnapshot, if_pos hacc] at h
  obtain ⟨-, ⟨-, -, hne, hle⟩, hfit⟩ := hacc
  have hlen : hdrBlobSize flash = snap.length := by
    rw [← Option.some.inj h, readRange_length _ _ _ hfit]
  have hpos : hdrBlobSize flash ≠ 0 := by
    intro hz
    exact hne (UInt32.toNat_inj.mp hz)
  refine ⟨⟨?_, ?_⟩, ?_, hlen⟩
  · omega
  · rw [← hlen]
    exact hle
  · rw [← hlen]
    exact (Option.some.inj h).symm

/-- A partition that starts with a header for `snap`, whatever its reserved word, and `snap`. -/
theorem storedSnapshot_image {snap : List UInt8} (hok : SnapshotOk snap) (reserved2 rest : List UInt8)
    (h4 : reserved2.length = 4) :
    storedSnapshot (checkedHdr snap.length ++ reserved2 ++ snap ++ rest) = some snap := by
  have hhead : (checkedHdr snap.length ++ reserved2).length = cdrHdrSize := by
    rw [List.length_append, checkedHdr_length, h4]
    rfl
  have hhdr : readRange 0 cdrHdrSize (checkedHdr snap.length ++ reserved2 ++ snap ++ rest)
      = checkedHdr snap.length ++ reserved2 := by
    have hread := readRange_append [] (checkedHdr snap.length ++ reserved2) (snap ++ rest)
    rw [hhead, List.length_nil, List.nil_append, ← List.append_assoc] at hread
    exact hread
  have hpayload : readRange cdrHdrSize snap.length
      (checkedHdr snap.length ++ reserved2 ++ snap ++ rest) = snap := by
    have hread := readRange_append (checkedHdr snap.length ++ reserved2) snap rest
    rw [hhead] at hread
    exact hread
  obtain ⟨hmagic, hver, hsize⟩ := ofBytes_checkedHdr snap.length reserved2
  have hblob : hdrBlobSize (checkedHdr snap.length ++ reserved2 ++ snap ++ rest) = snap.length := by
    rw [hdrBlobSize, hhdr, hsize, ofNat_toNat_of_le hok.le]
  have hacc : Accepts (checkedHdr snap.length ++ reserved2 ++ snap ++ rest) := by
    rw [Accepts, hblob, hhdr, CdrStateHdr.Valid, hmagic, hver, hsize, ofNat_toNat_of_le hok.le,
      List.length_append, List.length_append, hhead]
    exact ⟨by omega, ⟨rfl, rfl, ofNat_ne_zero_of_ok hok, hok.le⟩, by omega⟩
  rw [storedSnapshot, if_pos hacc, hblob, hpayload]

/-- A header write over an erased header, after `k` of its bytes: nothing until byte 11 is out, the
whole snapshot from then on. -/
theorem storedSnapshot_header_prefix {snap : List UInt8} (hok : SnapshotOk snap) (k : ℕ)
    (hk : k ≤ cdrHdrSize) (rest : List UInt8) :
    storedSnapshot (program 0 ((cdrHdr snap.length).toBytes.take k)
        (erased cdrHdrSize ++ (snap ++ rest))) = if k < 12 then none else some snap := by
  have h16 : cdrHdrSize = 16 := rfl
  have hlen : ((cdrHdr snap.length).toBytes.take k).length = k := by
    rw [List.length_take, toBytes_length]
    omega
  rw [program_zero_erased _ _ _ (by omega), hlen]
  by_cases hlt : k < 12
  · rw [if_pos hlt]
    refine storedSnapshot_none fun hacc => accepts_size hacc ?_
    rw [List.getElem?_append_right (by omega), hlen,
      List.getElem?_append_left (by simp only [List.length_replicate]; omega),
      List.getElem?_replicate, if_pos (by omega)]
  · rw [if_neg hlt]
    have hsplit : (cdrHdr snap.length).toBytes.take k
        = checkedHdr snap.length ++ ((cdrHdr snap.length).toBytes.take k).drop 12 := by
      have happ := List.take_append_drop 12 ((cdrHdr snap.length).toBytes.take k)
      rw [List.take_take, Nat.min_eq_left (by omega)] at happ
      exact happ.symm
    have himage := storedSnapshot_image hok
      (((cdrHdr snap.length).toBytes.take k).drop 12 ++ erased (cdrHdrSize - k)) rest (by
        rw [List.length_append, List.length_drop, hlen, List.length_replicate]
        omega)
    rw [← List.append_assoc (checkedHdr snap.length), ← hsplit] at himage
    simp only [List.append_assoc] at himage ⊢
    exact himage

/-- Without its first byte programmed a partition stands for nothing. -/
theorem storedSnapshot_of_first {flash : List UInt8} (h : flash[0]? = some erasedByte) :
    storedSnapshot flash = none :=
  storedSnapshot_none fun hacc => accepts_first hacc h

/-- An erase of the partition has emptied it or has not begun. -/
theorem storedSnapshot_eraseRange (k : ℕ) (flash : List UInt8) :
    eraseRange 0 k flash = flash ∨ storedSnapshot (eraseRange 0 k flash) = none := by
  rcases Nat.eq_zero_or_pos k with rfl | hk
  · exact Or.inl (eraseRange_zero 0 flash)
  · exact Or.inr (storedSnapshot_of_first (eraseRange_head k flash hk))

end WifiMemfault.FwStatsImage
