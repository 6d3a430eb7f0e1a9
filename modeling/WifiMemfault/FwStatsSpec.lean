import WifiMemfault.FwStatsImage

/-!
# What the functions of the CDR source leave behind

A collection is a function of what the driver answers (`collectErr`, `collectedWorld`).  A persist is a
collection, then an erase, then two writes: if the erase fails the partition is as before or empty, and
from an erased partition the writes leave nothing or the new snapshot.  A restore copies what the
partition stands for or leaves the static variables alone, and empties the partition or leaves it alone.
-/

namespace WifiMemfault.FwStatsSpec

open EffectProgram ByteList NorFlash FwStatsCdr FwStatsImage

/-! ### Collecting -/

/-- The snapshot a collection puts into the buffer. -/
def snapshotOf : DriverStats → Option (List UInt8)
  | .stats fw => if fw = [] then none else some (fw.take nrf70FwStatsBlobMaxSize)
  | .noDevice | .statsGetFailed => none

def collectErr : DriverStats → ℤ
  | .noDevice => enodev
  | .statsGetFailed => eio
  | .stats fw => if fw = [] then enodata else 0

/-- The world after a collection. -/
def collectedWorld (driver : DriverStats) (w : CdrWorld) : CdrWorld :=
  match snapshotOf driver with
  | some snap =>
    { w.fill .fwStatsBlob snap with statics := ⟨snap.length, true, 0, w.statics.dataSizeBytes⟩ }
  | none => { w with statics := ⟨0, false, 0, w.statics.dataSizeBytes⟩ }

variable {F : FaultModel} {outer : Empty → CdrWorld → CdrWorld}
variable {α : Type} {Q : α → CdrWorld → Prop} {C : CdrWorld → Prop}

theorem snapshotOf_ok {driver : DriverStats} {snap : List UInt8} (h : snapshotOf driver = some snap) :
    SnapshotOk snap := by
  cases driver with
  | noDevice => cases h
  | statsGetFailed => cases h
  | stats fw =>
    simp only [snapshotOf] at h
    split at h
    · cases h
    · rename_i hne
      have hpos := List.length_pos_iff.mpr hne
      have hmax : nrf70FwStatsBlobMaxSize = 1024 := rfl
      cases h
      refine ⟨?_, ?_⟩
      · rw [List.length_take]
        omega
      · exact List.length_take_le _ _

theorem collectErr_zero_iff (driver : DriverStats) :
    collectErr driver = 0 ↔ ∃ snap, snapshotOf driver = some snap := by
  cases driver with
  | noDevice => simp [collectErr, snapshotOf, enodev]
  | statsGetFailed => simp [collectErr, snapshotOf, eio]
  | stats fw => by_cases h : fw = [] <;> simp [collectErr, snapshotOf, enodata, h]

theorem modifyStatics_bind (f : CdrStatics → CdrStatics) (next : Unit → CdrProg α) :
    (modifyStatics f >>= next) = .call .getStatics fun s => .call (.putStatics (f s)) next := rfl

@[simp] theorem always_modifyStatics (f : CdrStatics → CdrStatics) (next : Unit → CdrProg α)
    (w : CdrWorld) :
    Always (flashDevice F outer) Q C (modifyStatics f >>= next) w ↔
      Always (flashDevice F outer) Q C (next ()) { w with statics := f w.statics } := by
  rw [modifyStatics_bind, always_getStatics, always_putStatics]

/-- The size `collect_nrf70_fw_stats` copies. -/
theorem take_min_length (fw : List UInt8) :
    fw.take (if fw.length > nrf70FwStatsBlobMaxSize then nrf70FwStatsBlobMaxSize else fw.length)
      = fw.take nrf70FwStatsBlobMaxSize := by
  split
  · rfl
  · rename_i h
    rw [List.take_length, List.take_of_length_le (by omega)]

theorem fwStatsSize_eq (fw : List UInt8) :
    (if fw.length > nrf70FwStatsBlobMaxSize then nrf70FwStatsBlobMaxSize else fw.length)
      = (fw.take nrf70FwStatsBlobMaxSize).length := by
  rw [List.length_take]
  split
  · omega
  · omega

theorem collectNrf70FwStats_always (driver : DriverStats) (next : ℤ → CdrProg α) (w : CdrWorld) :
    Always (flashDevice F outer) Q C (collectNrf70FwStats driver >>= next) w ↔
      match driver with
      | .noDevice => Always (flashDevice F outer) Q C (next enodev) w
      | .statsGetFailed => Always (flashDevice F outer) Q C (next eio) w
      | .stats fw => Always (flashDevice F outer) Q C (next 0)
          { w.fill .fwStatsBlob (fw.take nrf70FwStatsBlobMaxSize) with
            statics := { w.statics with blobSize := (fw.take nrf70FwStatsBlobMaxSize).length } } := by
  cases driver with
  | noDevice => exact Iff.rfl
  | statsGetFailed => exact Iff.rfl
  | stats fw =>
    show Always (flashDevice F outer) Q C (.call (.store .fwStatsBlob (fw.take (if fw.length >
      nrf70FwStatsBlobMaxSize then nrf70FwStatsBlobMaxSize else fw.length))) fun _ =>
        modifyStatics (fun s => { s with blobSize := if fw.length > nrf70FwStatsBlobMaxSize then
          nrf70FwStatsBlobMaxSize else fw.length }) >>= fun _ => next 0) w ↔ _
    rw [always_store, always_modifyStatics, take_min_length, fwStatsSize_eq]
    rfl

/-- The part a collection and a persist share, up to their ready flag. -/
theorem collectStart_always (driver : DriverStats) (next : CdrProg ℤ) (Q : ℤ → CdrWorld → Prop)
    (w : CdrWorld) :
    Always (flashDevice F outer) Q C
        (modifyStatics (fun s => { s with dataReady := false, blobSize := 0, readOffset := 0 })
          >>= fun _ => collectNrf70FwStats driver >>= fun err =>
            if err ≠ 0 then .ret err else .call .getStatics fun s =>
              if s.blobSize = 0 then .ret enodata else
                modifyStatics (fun s => { s with dataReady := true }) >>= fun _ => next) w ↔
      if collectErr driver = 0 then Always (flashDevice F outer) Q C next (collectedWorld driver w)
      else Q (collectErr driver) (collectedWorld driver w) := by
  rw [always_modifyStatics, collectNrf70FwStats_always]
  cases driver with
  | noDevice => exact Iff.rfl
  | statsGetFailed => exact Iff.rfl
  | stats fw =>
    simp only [ne_eq, not_true_eq_false, if_false, always_getStatics]
    by_cases hfw : fw = []
    · subst hfw
      simp only [collectErr, if_true, collectedWorld, snapshotOf, List.take_nil, List.length_nil,
        always_ret, fill_nil]
      exact Iff.rfl
    · have hpos : (fw.take nrf70FwStatsBlobMaxSize).length ≠ 0 := by
        have hsnap : snapshotOf (.stats fw) = some (fw.take nrf70FwStatsBlobMaxSize) := if_neg hfw
        have hlt := (snapshotOf_ok hsnap).pos
        omega
      rw [if_neg hpos, always_modifyStatics]
      simp only [collectErr, if_neg hfw, if_true, collectedWorld, snapshotOf]
      exact Iff.rfl

theorem mfltNrf70FwStatsCdrCollect_always (driver : DriverStats) (Q : ℤ → CdrWorld → Prop)
    (w : CdrWorld) :
    Always (flashDevice F outer) Q C (mfltNrf70FwStatsCdrCollect driver) w ↔
      Q (collectErr driver) (collectedWorld driver w) := by
  refine (collectStart_always driver (.ret 0) Q w).trans ?_
  split
  · rename_i h
    rw [h, always_ret]
  · exact Iff.rfl

/-! ### The persist -/

/-- What the first half of a persist leaves: the collection and, if it returned zero, an erased partition
with room for the blob. -/
structure EraseLeaves (driver : DriverStats) (w : CdrWorld) (err : ℤ) (w' : CdrWorld) : Prop where
  ram_eq : w'.ram = (collectedWorld driver w).ram
  statics_eq : w'.statics = (collectedWorld driver w).statics
  length_eq : w'.flash.length = w.flash.length
  erased : err = 0 → w'.flash = NorFlash.erased w.flash.length ∧
    ∃ snap, snapshotOf driver = some snap ∧ cdrHdrSize + snap.length ≤ w.flash.length
  kept : err ≠ 0 → w'.flash = w.flash ∨ storedSnapshot w'.flash = none

theorem collectedWorld_flash (driver : DriverStats) (w : CdrWorld) :
    (collectedWorld driver w).flash = w.flash := by
  rw [collectedWorld]
  split
  · rfl
  · rfl

theorem eraseLeaves_kept {driver : DriverStats} {w : CdrWorld} {err : ℤ} (h : err ≠ 0) :
    EraseLeaves driver w err (collectedWorld driver w) :=
  ⟨rfl, rfl, congrArg List.length (collectedWorld_flash driver w), fun h0 => absurd h0 h,
    fun _ => Or.inl (collectedWorld_flash driver w)⟩

/-- The partition is as it was or stands for nothing. -/
def FlashKept (w w' : CdrWorld) : Prop := w'.flash = w.flash ∨ storedSnapshot w'.flash = none

theorem persistErase_crash (driver : DriverStats) (w : CdrWorld) :
    Always (flashDevice F outer) (EraseLeaves driver w) (FlashKept w) (persistErase driver) w := by
  refine (collectStart_always driver (.call .openArea fun fa => match fa with
    | .error err => .ret err
    | .ok faSize => .call .getStatics fun s =>
      if cdrHdrSize + s.blobSize > faSize then .ret enospc
      else flashAreaErase 0 faSize) _ w).mpr ?_
  by_cases hcol : collectErr driver = 0
  · rw [if_pos hcol]
    obtain ⟨snap, hsnap⟩ := (collectErr_zero_iff driver).mp hcol
    have hsize : (collectedWorld driver w).statics.blobSize = snap.length := by
      rw [collectedWorld, hsnap]
    refine (always_openArea _).mpr ⟨?_, fun _ e => eraseLeaves_kept e.property.ne,
      fun _ => Or.inl (collectedWorld_flash driver w)⟩
    simp only [always_getStatics, hsize, collectedWorld_flash]
    split
    · exact eraseLeaves_kept (by decide)
    · rename_i hroom
      refine (always_erase 0 _ _ (by rw [collectedWorld_flash]; omega)).mpr
        (transferOk_intro ?_ ?_ ?_)
      · refine ⟨rfl, rfl, ?_, fun _ => ⟨?_, snap, hsnap, by omega⟩, fun h => absurd rfl h⟩
        · rw [collectedWorld_flash]
          exact eraseRange_length 0 _ _ (by omega)
        · rw [collectedWorld_flash]
          exact eraseRange_all w.flash
      · intro e he k hk
        refine ⟨rfl, rfl, ?_, fun h => absurd h he, fun _ => ?_⟩
        · rw [collectedWorld_flash]
          exact eraseRange_length 0 k _ (by omega)
        · rw [collectedWorld_flash]
          exact storedSnapshot_eraseRange k w.flash
      · intro k hk
        rw [FlashKept, collectedWorld_flash]
        exact storedSnapshot_eraseRange k w.flash
  · rw [if_neg hcol]
    exact eraseLeaves_kept hcol

theorem persistErase_always (driver : DriverStats) (w : CdrWorld) :
    Always (flashDevice F outer) (EraseLeaves driver w) (fun _ => True) (persistErase driver) w :=
  always_mono (persistErase_crash driver w) (fun _ _ h => h) fun _ _ => trivial

/-- What the second half of a persist leaves of `snap`. -/
structure WriteLeaves (snap : List UInt8) (w : CdrWorld) (err : ℤ) (w' : CdrWorld) : Prop where
  ram_eq : w'.ram = w.ram
  statics_eq : w'.statics = w.statics
  length_eq : w'.flash.length = w.flash.length
  content : storedSnapshot w'.flash = none ∨ storedSnapshot w'.flash = some snap
  stored : err = 0 → storedSnapshot w'.flash = some snap

/-- The partition stands for `snap` or for nothing. -/
def HoldsAtMost (snap : List UInt8) (w : CdrWorld) : Prop :=
  storedSnapshot w.flash = none ∨ storedSnapshot w.flash = some snap

theorem writeHeader_crash (snap : List UInt8) (hok : SnapshotOk snap) (w : CdrWorld)
    (rest : List UInt8) (hflash : w.flash = erased cdrHdrSize ++ (snap ++ rest)) :
    Always (flashDevice F outer) (WriteLeaves snap w) (HoldsAtMost snap)
      (flashAreaWrite 0 (cdrHdr snap.length).toBytes) w := by
  have htotal : cdrHdrSize ≤ w.flash.length := by
    rw [hflash, List.length_append, List.length_replicate]
    omega
  have hlen : ∀ k, (program 0 ((cdrHdr snap.length).toBytes.take k) w.flash).length
      = w.flash.length := by
    intro k
    refine program_length _ _ _ ?_
    rw [List.length_take, toBytes_length]
    omega
  have hstored := fun k hk => storedSnapshot_header_prefix hok k hk rest
  rw [← hflash] at hstored
  have hcontent : ∀ k ≤ cdrHdrSize, HoldsAtMost snap
      { w with flash := program 0 ((cdrHdr snap.length).toBytes.take k) w.flash } := by
    intro k hk
    have hk' := hstored k hk
    split at hk'
    · exact Or.inl hk'
    · exact Or.inr hk'
  refine (always_writeLocal 0 _ _ (by rw [toBytes_length]; omega)).mpr
    (transferOk_intro ?_ ?_ ?_)
  · have hfull := hstored cdrHdrSize le_rfl
    rw [if_neg (by decide)] at hfull
    rw [toBytes_length]
    exact ⟨rfl, rfl, hlen _, Or.inr hfull, fun _ => hfull⟩
  · intro e he k hk
    rw [toBytes_length] at hk
    exact ⟨rfl, rfl, hlen k, hcontent k hk, fun h => absurd h he⟩
  · intro k hk
    rw [toBytes_length] at hk
    exact hcontent k hk

/-- The header write, after a payload write that returned `err`. -/
def headerAfter (err : ℤ) : CdrProg ℤ :=
  if err ≠ 0 then .ret err
  else .call .getStatics fun s => .call (.writeLocal 0 (cdrHdr s.blobSize).toBytes) .ret

theorem persistWrite_crash (snap : List UInt8) (hok : SnapshotOk snap) (w : CdrWorld) (m : ℕ)
    (hflash : w.flash = erased cdrHdrSize ++ erased m ++ []) (hroom : snap.length ≤ m)
    (hsize : w.statics.blobSize = snap.length)
    (hbytes : (w.bytes .fwStatsBlob).take snap.length = snap) :
    Always (flashDevice F outer) (WriteLeaves snap w) (HoldsAtMost snap) persistWrite w := by
  have hA : (erased cdrHdrSize).length = cdrHdrSize := List.length_replicate
  have htotal : w.flash.length = cdrHdrSize + m := by
    rw [hflash, List.append_nil, List.length_append, hA, List.length_replicate]
  -- every prefix of the payload write leaves the header erased
  have hpart : ∀ k ≤ snap.length, program cdrHdrSize ((w.bytes .fwStatsBlob).take k) w.flash
      = erased cdrHdrSize ++ (snap.take k ++ erased (m - k)) := by
    intro k hk
    have htake : (w.bytes .fwStatsBlob).take k = snap.take k := by
      rw [← hbytes, List.take_take, Nat.min_eq_left hk]
    have hlen : (snap.take k).length = k := by
      rw [List.length_take]
      omega
    have hprog := program_erased (erased cdrHdrSize) (snap.take k) [] m (by omega)
    rw [hA, hlen] at hprog
    rw [htake, hflash, hprog, List.append_nil, List.append_assoc]
  refine (always_getStatics _).mpr ?_
  refine (always_writeFrom cdrHdrSize _ _ headerAfter (by omega)).mpr
    (transferOk_intro ?_ ?_ ?_)
  · rw [hsize, hpart snap.length le_rfl, List.take_length, headerAfter, if_neg (by decide),
      always_getStatics, hsize]
    refine always_mono (writeHeader_crash snap hok
      { w with flash := erased cdrHdrSize ++ (snap ++ erased (m - snap.length)) } _ rfl)
      (fun err w' h => ⟨h.ram_eq, h.statics_eq, ?_, h.content, h.stored⟩) fun _ h => h
    rw [h.length_eq, htotal, List.length_append, List.length_append, hA, List.length_replicate]
    omega
  · intro e he k hk
    rw [hsize] at hk
    rw [hpart k hk, headerAfter, if_pos he]
    refine ⟨rfl, rfl, ?_, Or.inl (storedSnapshot_of_first (erased_head _ _ (by decide))),
      fun h => absurd h he⟩
    show (erased cdrHdrSize ++ (snap.take k ++ erased (m - k))).length = w.flash.length
    rw [htotal, List.length_append, List.length_append, hA, List.length_take, List.length_replicate]
    omega
  · intro k hk
    rw [hsize] at hk
    rw [hpart k hk]
    exact Or.inl (storedSnapshot_of_first (erased_head _ _ (by decide)))

/-! ### The restore -/

/-- What a restore that returned `err` leaves. -/
structure RestoreLeaves (w : CdrWorld) (err : ℤ) (w' : CdrWorld) : Prop where
  length_eq : w'.flash.length = w.flash.length
  content : w'.flash = w.flash ∨ storedSnapshot w'.flash = none
  copied : err = 0 → ∃ snap, storedSnapshot w.flash = some snap ∧
    w'.statics = ⟨snap.length, true, 0, snap.length⟩ ∧ w'.ram = (w.fill .fwStatsBlob snap).ram
  kept : err ≠ 0 → w'.statics = w.statics ∧ ∃ xs, xs.length ≤ nrf70FwStatsBlobMaxSize ∧
    w'.ram = (w.fill .fwStatsBlob xs).ram
  rejected : storedSnapshot w.flash = none → err ≠ 0 ∧ w'.ram = w.ram

theorem restoreLeaves_same {w : CdrWorld} {err : ℤ} (h : err ≠ 0) : RestoreLeaves w err w :=
  ⟨rfl, Or.inl rfl, fun h0 => absurd h0 h,
    fun _ => ⟨rfl, [], Nat.zero_le _, by rw [fill_nil]⟩, fun _ => ⟨h, rfl⟩⟩

/-- The restore after its copy returned `err`: erase, then the static variables. -/
def restoreAfterCopy (len faSize : ℕ) (err : ℤ) : CdrProg ℤ :=
  .call (.erase 0 faSize) fun _ =>
    if err ≠ 0 then .ret err
    else .call .getStatics fun _ => .call (.putStatics ⟨len, true, 0, len⟩) fun _ => .ret 0

/-- The erase at the end leaves the partition as it was or empty, whatever it returns. -/
theorem restoreAfterCopy_always (w : CdrWorld) (len : ℕ) (err : ℤ) (Q : ℤ → CdrWorld → Prop)
    (hQ : ∀ flash, flash.length = w.flash.length → (flash = w.flash ∨ storedSnapshot flash = none) →
      Q err { w with
        flash := flash
        statics := if err = 0 then ⟨len, true, 0, len⟩ else w.statics }) :
    Always (flashDevice F outer) Q (FlashKept w) (restoreAfterCopy len w.flash.length err) w := by
  have hpart : ∀ k ≤ w.flash.length, Always (flashDevice F outer) Q (FlashKept w)
      (if err ≠ 0 then .ret err
        else .call .getStatics fun _ => .call (.putStatics ⟨len, true, 0, len⟩) fun _ => .ret 0)
      { w with flash := eraseRange 0 k w.flash } := by
    intro k hk
    have hq := hQ _ (eraseRange_length 0 k w.flash (by omega)) (storedSnapshot_eraseRange k w.flash)
    by_cases he : err = 0
    · subst he
      rw [if_neg (by decide), always_getStatics, always_putStatics]
      exact hq
    · rw [if_neg he] at hq
      rw [if_pos he]
      exact hq
  exact (always_erase 0 _ _ (by omega)).mpr
    (transferOk_intro (hpart _ le_rfl) (fun _ _ k hk => hpart k hk)
      fun k _ => storedSnapshot_eraseRange k w.flash)

/-- The restore once it has found a valid header. -/
theorem restoreCopy_always (w : CdrWorld) (hhdr : cdrHdrSize ≤ w.flash.length)
    (hvalid : (CdrStateHdr.ofBytes (readRange 0 cdrHdrSize w.flash)).Valid) :
    Always (flashDevice F outer) (RestoreLeaves w) (FlashKept w)
      (.call (.readInto cdrHdrSize .fwStatsBlob (hdrBlobSize w.flash)) fun err =>
        restoreAfterCopy (hdrBlobSize w.flash) w.flash.length err) w := by
  by_cases hfit : cdrHdrSize + hdrBlobSize w.flash ≤ w.flash.length
  · have hstored : storedSnapshot w.flash
        = some (readRange cdrHdrSize (hdrBlobSize w.flash) w.flash) := if_pos ⟨hhdr, hvalid, hfit⟩
    have hlen := readRange_length cdrHdrSize (hdrBlobSize w.flash) w.flash hfit
    refine (always_readInto _ _ _ _ hfit).mpr (transferOk_intro ?_ ?_ fun _ _ => Or.inl rfl)
    · refine restoreAfterCopy_always (w.fill .fwStatsBlob _) _ 0 _ fun flash hl hc => ?_
      refine ⟨hl, hc, fun _ => ⟨_, hstored, ?_, rfl⟩, fun h => absurd rfl h, fun h => ?_⟩
      · rw [hlen, if_pos rfl]
      · rw [hstored] at h
        cases h
    · intro e he k hk
      refine restoreAfterCopy_always (w.fill .fwStatsBlob _) _ e _ fun flash hl hc => ?_
      refine ⟨hl, hc, fun h => absurd h he, fun _ => ⟨if_neg he, _, ?_, rfl⟩, fun h => ?_⟩
      · rw [readRange_length _ _ _ (by omega)]
        exact hk.trans hvalid.2.2.2
      · rw [hstored] at h
        cases h
  · refine (always_readInto_outside _ _ _ _ hfit).mpr ?_
    have hne : errnoOutside ≠ 0 := by decide
    refine restoreAfterCopy_always w _ errnoOutside _ fun flash hl hc => ?_
    rw [if_neg hne]
    exact ⟨hl, hc, fun h => absurd h hne,
      fun _ => ⟨rfl, [], Nat.zero_le _, by rw [fill_nil]⟩, fun _ => ⟨hne, rfl⟩⟩

/-- The restore once it has read the header. -/
def restoreHeader (faSize : ℕ) : Except ℤ (List UInt8) → CdrProg ℤ
  | .error _ => .ret enoent
  | .ok bytes =>
    if ¬ (CdrStateHdr.ofBytes bytes).Valid then .ret enoent
    else .call (.readInto cdrHdrSize .fwStatsBlob (CdrStateHdr.ofBytes bytes).blobSize.toNat) fun err =>
      restoreAfterCopy (CdrStateHdr.ofBytes bytes).blobSize.toNat faSize err

/-- The restore once it has opened the partition. -/
def cdrRestoreOpened : Except ℤ ℕ → CdrProg ℤ
  | .error _ => .ret enoent
  | .ok faSize => .call (.readLocal 0 cdrHdrSize) (restoreHeader faSize)

theorem mfltNrf70FwStatsCdrRestoreFromFlash_crash (w : CdrWorld) :
    Always (flashDevice F outer) (RestoreLeaves w) (FlashKept w)
      mfltNrf70FwStatsCdrRestoreFromFlash w := by
  have hsame : RestoreLeaves w enoent w := restoreLeaves_same (by decide)
  refine (always_openArea cdrRestoreOpened).mpr
    ⟨?_, fun _ _ => hsame, fun _ => Or.inl rfl⟩
  by_cases hhdr : 0 + cdrHdrSize ≤ w.flash.length
  · refine (always_readLocal 0 cdrHdrSize (restoreHeader w.flash.length) hhdr).mpr
      ⟨?_, fun _ _ => hsame, fun _ => Or.inl rfl⟩
    simp only [restoreHeader]
    by_cases hvalid : (CdrStateHdr.ofBytes (readRange 0 cdrHdrSize w.flash)).Valid
    · rw [if_neg (not_not.mpr hvalid)]
      exact restoreCopy_always w (by omega) hvalid
    · rw [if_pos hvalid]
      exact hsame
  · exact (always_readLocal_outside 0 cdrHdrSize (restoreHeader w.flash.length) hhdr).mpr hsame

theorem mfltNrf70FwStatsCdrRestoreFromFlash_always (w : CdrWorld) :
    Always (flashDevice F outer) (RestoreLeaves w) (fun _ => True)
      mfltNrf70FwStatsCdrRestoreFromFlash w :=
  always_mono (mfltNrf70FwStatsCdrRestoreFromFlash_crash w) (fun _ _ h => h) fun _ _ => trivial

/-- If opens and reads do not fail, a restore finds a snapshot that is there. -/
theorem restore_finds_stored (hopen : F.mayFail .openArea = false) (hread : F.mayFail .read = false)
    {w : CdrWorld} {snap : List UInt8} (hstored : storedSnapshot w.flash = some snap) :
    Always (flashDevice F outer) (fun err _ => err = 0) (fun _ => True)
      mfltNrf70FwStatsCdrRestoreFromFlash w := by
  obtain ⟨hhdr, hvalid, hfit⟩ := accepts_of_stored hstored
  refine (always_openArea cdrRestoreOpened).mpr
    ⟨?_, fun h => (by rw [hopen] at h; cases h), fun _ => trivial⟩
  refine (always_readLocal 0 cdrHdrSize (restoreHeader w.flash.length) (by omega)).mpr
    ⟨?_, fun h => (by rw [hread] at h; cases h), fun _ => trivial⟩
  simp only [restoreHeader]
  rw [if_neg (not_not.mpr hvalid)]
  refine (always_readInto cdrHdrSize _ _ _ hfit).mpr
    ⟨?_, fun h => (by rw [hread] at h; cases h), fun _ _ => trivial⟩
  exact always_mono (restoreAfterCopy_always (w.fill .fwStatsBlob _) _ 0 (fun err _ => err = 0)
    fun _ _ _ => rfl) (fun _ _ h => h) fun _ _ => trivial

end WifiMemfault.FwStatsSpec
