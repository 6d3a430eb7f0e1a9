import WifiMemfault.CoredumpStorage
import WifiMemfault.Lib.FlashChip
import WifiMemfault.Lib.Runs

/-!
# The coredump storage over a whole run

The other functions of `core/app_memfault_flash_coredump_storage.c`, on the address space of the chip: the
buffered write, the reads, and the clear, which zeroes the first word of the partition and remembers for the
rest of the boot that it has.  Power may fail during any call, after any number of pages or words.

The bounds check wraps, so the ranges here are those that do not (`StorageRange`).  For them:

* nothing outside the partition ever changes (`run_frame`);
* after an erase of the partition, blocks that do not overlap are read back as they were written
  (`erased_then_written`);
* a cleared coredump stays cleared, through writes and reboots, until the first page is erased
  (`cleared_stays`).
-/

namespace WifiMemfault.CoredumpFlash

open NorFlash FlashChip CoredumpStorage

/-- The partition inside the flash, and `MEMFAULT_COREDUMP_STORAGE_WRITE_SIZE`. -/
structure CoredumpLayout extends CoredumpPartition where
  writeSize : UInt32
  inside : offset.toNat + size.toNat ≤ UInt32.size
  size_pos : 0 < size.toNat
  page_has_word : 4 ≤ pageSize.toNat
  writeSize_pos : 0 < writeSize.toNat
  whole_words : 4 ∣ writeSize.toNat

/-- A range whose end fits in 32 bits. -/
structure StorageRange where
  offset : UInt32
  len : UInt32
  no_wrap : offset.toNat + len.toNat < UInt32.size

/-- `sCoredumpWorkingBuffer`: a full buffer. -/
structure CoredumpWorkingBuffer (layout : CoredumpLayout) where
  writeOffset : UInt32
  data : List UInt8
  data_length : data.length = layout.writeSize.toNat
  no_wrap : writeOffset.toNat + layout.writeSize.toNat < UInt32.size

/-- The chip, and `last_coredump_cleared`. -/
structure StorageState where
  chip : Chip
  lastCoredumpCleared : Bool

variable (layout : CoredumpLayout)

/-- The bytes of the partition at this range. -/
def memfaultPlatformCoredumpStorageRead (chip : Chip) (offset readLen : UInt32) : Option (List UInt8) :=
  if ¬ prvOpWithinFlashBounds layout.toCoredumpPartition offset readLen then none
  else
    let address := layout.offset + offset
    some ((List.range readLen.toNat).map fun i => chip (address.toNat + i))

/-- What the call returns, and the pages it erases. -/
def eraseEffects (range : StorageRange) : Bool × List Effect :=
  match memfaultPlatformCoredumpStorageErase layout.toCoredumpPartition range.offset range.len
      (range.len.toNat + 1) with
  | some (ret, pages) => (ret, pages.map fun address => .erase address.toNat layout.pageSize.toNat)
  | none => (false, [])

/-- What the call returns, and the words it writes. -/
def memfaultPlatformCoredumpStorageBufferedWrite (blk : CoredumpWorkingBuffer layout) : Bool × List Effect :=
  let startAddr := layout.offset
  let addr := startAddr + blk.writeOffset
  if ¬ prvOpWithinFlashBounds layout.toCoredumpPartition blk.writeOffset layout.writeSize then (false, [])
  else (true, wordEffects addr.toNat (layout.writeSize.toNat / 4) blk.data)

/-- `memfault_coredump_read` -/
def memfaultCoredumpRead (s : StorageState) (offset readLen : UInt32) : Option (List UInt8) :=
  if s.lastCoredumpCleared then some (List.replicate readLen.toNat 0)
  else memfaultPlatformCoredumpStorageRead layout s.chip offset readLen

/-- What the flash map answers to a clear; a write that fails may have written some of the bytes. -/
inductive ClearAnswer where
  | openFailed
  | writeFailed (written : ℕ)
  | written
  deriving DecidableEq, Repr

/-- Whether the call sets `last_coredump_cleared`, and what it writes. -/
def memfaultPlatformCoredumpStorageClear : ClearAnswer → Bool × List Effect
  | .openFailed => (false, [])
  | .writeFailed written => (false, [.program layout.offset.toNat (List.replicate (min written 4) 0)])
  | .written => (true, [.program layout.offset.toNat (List.replicate 4 0)])

/-! ### Runs -/

inductive StorageCall where
  | erase (range : StorageRange)
  | bufferedWrite (blk : CoredumpWorkingBuffer layout)
  | clear (answer : ClearAnswer)

/-- A call, a call that power fails in after `done` of its pages or words, or a reboot. -/
inductive StorageEvent where
  | call (c : StorageCall layout)
  | cut (c : StorageCall layout) (done : ℕ)
  | reboot

variable {layout}

def StorageCall.effects : StorageCall layout → List Effect
  | .erase range => (eraseEffects layout range).2
  | .bufferedWrite blk => (memfaultPlatformCoredumpStorageBufferedWrite layout blk).2
  | .clear answer => (memfaultPlatformCoredumpStorageClear layout answer).2

/-- The call sets `last_coredump_cleared`. -/
def StorageCall.clears : StorageCall layout → Bool
  | .erase _ | .bufferedWrite _ => false
  | .clear answer => (memfaultPlatformCoredumpStorageClear layout answer).1

def stepStorage (s : StorageState) : StorageEvent layout → StorageState
  | .call c => ⟨applyAll c.effects s.chip, s.lastCoredumpCleared || c.clears⟩
  | .cut c done => ⟨applyAll (c.effects.take done) s.chip, false⟩
  | .reboot => ⟨s.chip, false⟩

/-! ### The addresses of a call -/

/-- A range that does not wrap is in bounds as a range of naturals. -/
theorem inBounds_iff (layout : CoredumpLayout) {offset len : UInt32} (hwrap : offset.toNat + len.toNat < UInt32.size) :
    prvOpWithinFlashBounds layout.toCoredumpPartition offset len = true ↔
      offset.toNat + len.toNat ≤ layout.size.toNat := by
  rw [prvOpWithinFlashBounds, decide_eq_true_iff, UInt32.le_iff_toNat_le, UInt32.toNat_add,
    Nat.mod_eq_of_lt hwrap]

theorem address_toNat (layout : CoredumpLayout) {x : UInt32} (hx : x.toNat < layout.size.toNat) :
    (layout.offset + x).toNat = layout.offset.toNat + x.toNat := by
  have hinside := layout.inside
  rw [UInt32.toNat_add]
  exact Nat.mod_eq_of_lt (show _ < UInt32.size by omega)

/-- A page that starts in the partition ends in it. -/
theorem page_inside (layout : CoredumpLayout) {j : ℕ} (hj : j * layout.pageSize.toNat < layout.size.toNat) :
    j * layout.pageSize.toNat + layout.pageSize.toNat ≤ layout.size.toNat := by
  obtain ⟨m, hm⟩ := layout.whole_pages
  have hlt : j < m := by
    rw [hm, Nat.mul_comm layout.pageSize.toNat m] at hj
    exact Nat.lt_of_mul_lt_mul_right hj
  have hle := Nat.mul_le_mul_right layout.pageSize.toNat (Nat.succ_le_of_lt hlt)
  rw [Nat.succ_mul] at hle
  rw [hm, Nat.mul_comm layout.pageSize.toNat m]
  exact hle

/-- **The erase loop ends.**  Its pages are those from the offset on that start before `erase_size`. -/
theorem erase_returns (layout : CoredumpLayout) (range : StorageRange) :
    ∃ ret pages, memfaultPlatformCoredumpStorageErase layout.toCoredumpPartition range.offset range.len
        (range.len.toNat + 1) = some (ret, pages) ∧
      (ret = true → range.offset.toNat + range.len.toNat ≤ layout.size.toNat) ∧
      ∀ address, address ∈ pages ↔ ret = true ∧
        ∃ j, range.offset.toNat ≤ j * layout.pageSize.toNat ∧ j * layout.pageSize.toNat < range.len.toNat ∧
          address = pageAddress layout.toCoredumpPartition j := by
  have hrefused : ∀ address, address ∈ ([] : List UInt32) ↔ false = true ∧
      ∃ j, range.offset.toNat ≤ j * layout.pageSize.toNat ∧ j * layout.pageSize.toNat < range.len.toNat ∧
        address = pageAddress layout.toCoredumpPartition j :=
    fun address => iff_of_false List.not_mem_nil fun h => Bool.false_ne_true h.1
  by_cases hbounds : prvOpWithinFlashBounds layout.toCoredumpPartition range.offset range.len = true
  · by_cases hoffset : range.offset % layout.pageSize = 0
    · have hsize := (inBounds_iff layout range.no_wrap).mp hbounds
      have hpos := layout.pageSize_pos
      have hstart : range.offset.toNat
          = range.offset.toNat / layout.pageSize.toNat * layout.pageSize.toNat := by
        have hmod := congrArg UInt32.toNat hoffset
        rw [UInt32.toNat_mod, UInt32.toNat_zero] at hmod
        exact (Nat.div_mul_cancel (Nat.dvd_of_mod_eq_zero hmod)).symm
      obtain ⟨pages, hrun, hmem⟩ := @erasePages_inside layout.toCoredumpPartition
        range.len (by omega) range.len.toNat _ range.offset hstart (by omega)
      refine ⟨true, pages, by rw [erase_accepted hoffset hbounds, hrun]; rfl, fun _ => hsize,
        fun address => (hmem address).trans ?_⟩
      rw [eq_self_iff_true, true_and]
      refine exists_congr fun j => and_congr_left fun _ => ?_
      conv_rhs => rw [hstart]
      exact (Nat.mul_le_mul_right_iff hpos).symm
    · exact ⟨false, [], by rw [memfaultPlatformCoredumpStorageErase, if_neg (not_not.mpr hbounds), if_pos hoffset],
        fun h => Bool.noConfusion h, hrefused⟩
  · exact ⟨false, [], by rw [memfaultPlatformCoredumpStorageErase, if_pos hbounds],
      fun h => Bool.noConfusion h, hrefused⟩

/-- **The pages of an erase.**  They start in the partition, at or after the offset and before
`erase_size`. -/
theorem eraseEffects_spec (range : StorageRange) (e : Effect) :
    e ∈ (eraseEffects layout range).2 ↔ (eraseEffects layout range).1 = true ∧
      ∃ j, range.offset.toNat ≤ j * layout.pageSize.toNat ∧ j * layout.pageSize.toNat < range.len.toNat ∧
        e = .erase (layout.offset.toNat + j * layout.pageSize.toNat) layout.pageSize.toNat := by
  obtain ⟨ret, pages, hrun, hbound, hmem⟩ := erase_returns layout range
  rw [eraseEffects, hrun]
  simp only [List.mem_map, hmem]
  constructor
  · rintro ⟨address, ⟨hret, j, hlow, hlt, rfl⟩, rfl⟩
    have hsize := hbound hret
    have hinside := layout.inside
    have hnat : (UInt32.ofNat (j * layout.pageSize.toNat)).toNat = j * layout.pageSize.toNat :=
      UInt32.toNat_ofNat_of_lt' (by omega)
    refine ⟨hret, j, hlow, hlt, ?_⟩
    rw [pageAddress, address_toNat layout (by omega), hnat]
  · rintro ⟨hret, j, hlow, hlt, rfl⟩
    have hsize := hbound hret
    have hinside := layout.inside
    have hnat : (UInt32.ofNat (j * layout.pageSize.toNat)).toNat = j * layout.pageSize.toNat :=
      UInt32.toNat_ofNat_of_lt' (by omega)
    refine ⟨_, ⟨hret, j, hlow, hlt, rfl⟩, ?_⟩
    rw [pageAddress, address_toNat layout (by omega), hnat]

theorem eraseEffects_bound {range : StorageRange} (h : (eraseEffects layout range).1 = true) :
    range.offset.toNat + range.len.toNat ≤ layout.size.toNat := by
  obtain ⟨ret, pages, hrun, hbound, -⟩ := erase_returns layout range
  rw [eraseEffects, hrun] at h
  exact hbound h

/-- **Every call stays in the partition.** -/
theorem effects_inside (c : StorageCall layout) {e : Effect} (he : e ∈ c.effects) {a : ℕ} (ha : e.Touches a) :
    layout.offset.toNat ≤ a ∧ a < layout.offset.toNat + layout.size.toNat := by
  cases c with
  | erase range =>
    obtain ⟨hret, j, -, hlt, rfl⟩ := (eraseEffects_spec range e).mp he
    have hsize := eraseEffects_bound hret
    have hpage := page_inside layout (j := j) (by omega)
    have htouch : layout.offset.toNat + j * layout.pageSize.toNat ≤ a ∧
      a < layout.offset.toNat + j * layout.pageSize.toNat + layout.pageSize.toNat := ha
    omega
  | bufferedWrite blk =>
    rw [StorageCall.effects, memfaultPlatformCoredumpStorageBufferedWrite] at he
    split at he
    · cases he
    · rename_i hbounds
      have hsize := (inBounds_iff layout blk.no_wrap).mp (not_not.mp hbounds)
      obtain ⟨hlow, hhigh⟩ := wordEffects_touches he ha
      rw [Nat.mul_div_cancel' layout.whole_words] at hhigh
      have hpos := layout.writeSize_pos
      rw [address_toNat layout (by omega)] at hlow hhigh
      omega
  | clear answer =>
    have hword := layout.page_has_word
    have hpage := page_inside layout (j := 0) (by rw [Nat.zero_mul]; exact layout.size_pos)
    have hzeros : ∀ n ≤ 4, (Effect.program layout.offset.toNat (List.replicate n 0)).Touches a →
        layout.offset.toNat ≤ a ∧ a < layout.offset.toNat + layout.size.toNat := by
      intro n hn h
      have htouch : layout.offset.toNat ≤ a ∧ a < layout.offset.toNat + (List.replicate n (0 : UInt8)).length := h
      rw [List.length_replicate] at htouch
      omega
    cases answer with
    | openFailed => cases he
    | writeFailed written =>
      cases List.mem_singleton.mp he
      exact hzeros _ (Nat.min_le_right _ _) ha
    | written =>
      cases List.mem_singleton.mp he
      exact hzeros 4 le_rfl ha

/-! ### Nothing else changes -/

theorem step_frame (s : StorageState) (e : StorageEvent layout) {a : ℕ}
    (ha : a < layout.offset.toNat ∨ layout.offset.toNat + layout.size.toNat ≤ a) :
    (stepStorage s e).chip a = s.chip a := by
  have hcall : ∀ c : StorageCall layout, ∀ effects : List Effect, (∀ e ∈ effects, e ∈ c.effects) →
      applyAll effects s.chip a = s.chip a := by
    intro c effects hsub
    refine applyAll_frame (fun e he htouch => ?_) s.chip
    have hinside := effects_inside c (hsub e he) htouch
    omega
  cases e with
  | call c => exact hcall c c.effects fun _ he => he
  | cut c done => exact hcall c _ fun _ he => List.mem_of_mem_take he
  | reboot => rfl

/-- **Frame.**  Whatever the calls, the failures and the power cuts, no byte outside the partition changes. -/
theorem run_frame (layout : CoredumpLayout) (s : StorageState) (es : List (StorageEvent layout)) (a : ℕ)
    (ha : a < layout.offset.toNat ∨ layout.offset.toNat + layout.size.toNat ≤ a) :
    (Runs.run stepStorage s es).chip a = s.chip a := by
  have hstep : ∀ (s' : StorageState) (e : StorageEvent layout), s'.chip a = s.chip a →
      (stepStorage s' e).chip a = s.chip a := fun s' e h => (step_frame s' e ha).trans h
  exact Runs.run_invariant_always hstep es s rfl

/-- The partition of eight pages, written 16 bytes at a time. -/
def smallLayout : CoredumpLayout :=
  { eightPages with
    writeSize := 16
    inside := by decide
    size_pos := by decide
    page_has_word := by decide
    writeSize_pos := by decide
    whole_words := by decide }

/-- Zeros everywhere. -/
def zeroFlash : StorageState := ⟨fun _ => 0, false⟩

def firstPage : StorageRange := ⟨0, 4096, by decide⟩

def blockAt (writeOffset : UInt32) (h : writeOffset.toNat + 16 < UInt32.size) (b : UInt8) :
    CoredumpWorkingBuffer smallLayout := ⟨writeOffset, List.replicate 16 b, rfl, h⟩

theorem run_frame_small :
    (Runs.run stepStorage zeroFlash [.call (.erase firstPage), .cut (.bufferedWrite (blockAt 32 (by decide) 7)) 1,
      .call (.clear (.writeFailed 9) : StorageCall smallLayout)]).chip 32768 = zeroFlash.chip 32768 :=
  run_frame smallLayout zeroFlash _ 32768 (Or.inr (by decide))

/-! ### A cleared coredump -/

/-- The event is no erase that starts at the first page. -/
def KeepsFirstPage : StorageEvent layout → Prop
  | .call (.erase range) | .cut (.erase range) _ => range.offset ≠ 0 ∨ range.len = 0
  | _ => True

/-- The first word of the partition is zero. -/
def FirstWordZero (layout : CoredumpLayout) (s : StorageState) : Prop :=
  ∀ i < 4, s.chip (layout.offset.toNat + i) = 0

theorem effects_spare {c : StorageCall layout} (hkeeps : KeepsFirstPage (.call c)) {e : Effect}
    (he : e ∈ c.effects) {i : ℕ} (hi : i < 4) : e.Spares (layout.offset.toNat + i) := by
  cases c with
  | erase range =>
    obtain ⟨-, j, hlow, hlt, rfl⟩ := (eraseEffects_spec range e).mp he
    have hword := layout.page_has_word
    have hoffset : 0 < range.offset.toNat := by
      rcases hkeeps with hoffset | hlen
      · exact Nat.pos_of_ne_zero fun hzero => hoffset (UInt32.toNat_inj.mp hzero)
      · rw [hlen, UInt32.toNat_zero] at hlt
        omega
    have hj : 1 ≤ j := by
      by_contra hj
      rw [Nat.lt_one_iff.mp (Nat.not_le.mp hj), Nat.zero_mul] at hlow
      omega
    have hstart := Nat.mul_le_mul_right layout.pageSize.toNat hj
    intro htouch
    omega
  | bufferedWrite blk =>
    rw [StorageCall.effects, memfaultPlatformCoredumpStorageBufferedWrite] at he
    split at he
    · cases he
    · exact wordEffects_spares he _
  | clear answer =>
    cases answer with
    | openFailed => cases he
    | writeFailed written =>
      cases List.mem_singleton.mp he
      exact trivial
    | written =>
      cases List.mem_singleton.mp he
      exact trivial

theorem firstWordZero_step (s : StorageState) (e : StorageEvent layout) (hzero : FirstWordZero layout s)
    (hkeeps : KeepsFirstPage e) : FirstWordZero layout (stepStorage s e) := by
  intro i hi
  cases e with
  | call c => exact applyAll_zero (fun e he => effects_spare hkeeps he hi) (hzero i hi)
  | cut c done =>
    have hcall : KeepsFirstPage (.call c) := by cases c <;> exact hkeeps
    exact applyAll_zero (fun e he => effects_spare hcall (List.mem_of_mem_take he) hi) (hzero i hi)
  | reboot => exact hzero i hi

theorem firstWordZero_clear (s : StorageState) :
    FirstWordZero layout (stepStorage s (.call (.clear .written) : StorageEvent layout)) := by
  intro i hi
  show s.chip (layout.offset.toNat + i) &&& mask layout.offset.toNat (List.replicate 4 0) (layout.offset.toNat + i)
    = 0
  rw [mask_inside (Nat.le_add_right _ _), Nat.add_sub_cancel_left, List.getD_eq_getElem?_getD,
    List.getElem?_replicate_of_lt hi, Option.getD_some, UInt8.and_zero]

/-- **Cleared stays cleared.**  After a clear that succeeds the first word reads as zero, whatever is written
and however often the device reboots, until an erase starts at the first page. -/
theorem cleared_stays (layout : CoredumpLayout) (s : StorageState) (es : List (StorageEvent layout))
    (hkeeps : Runs.EachStep stepStorage (fun _ e => KeepsFirstPage e)
      (stepStorage s (.call (.clear .written) : StorageEvent layout)) es) :
    memfaultCoredumpRead layout (Runs.run stepStorage s (.call (.clear .written) :: es)) 0 4
      = some (List.replicate 4 0) := by
  have hzero := Runs.run_invariant firstWordZero_step es _ (firstWordZero_clear s) hkeeps
  rw [Runs.run_cons, memfaultCoredumpRead]
  split
  · rfl
  · have hword := layout.page_has_word
    have hpage := page_inside layout (j := 0) (by rw [Nat.zero_mul]; exact layout.size_pos)
    have hbounds : prvOpWithinFlashBounds layout.toCoredumpPartition 0 4 = true :=
      (inBounds_iff layout (by decide)).mpr (show 0 + 4 ≤ layout.size.toNat by omega)
    rw [memfaultPlatformCoredumpStorageRead, if_neg (not_not.mpr hbounds), UInt32.add_zero]
    refine congrArg some (List.eq_replicate_iff.mpr ⟨by simp, fun b hb => ?_⟩)
    obtain ⟨i, hi, rfl⟩ := List.mem_map.mp hb
    exact hzero i (List.mem_range.mp hi)

theorem cleared_stays_small :
    memfaultCoredumpRead smallLayout (Runs.run stepStorage zeroFlash [.call (.clear .written),
      .call (.bufferedWrite (blockAt 0 (by decide) 7)), .reboot]) 0 4 = some (List.replicate 4 0) :=
  cleared_stays smallLayout zeroFlash _ ⟨trivial, trivial, trivial⟩

/-! ### Erase, write, read -/

namespace CoredumpWorkingBuffer

/-- The offset lies in the buffer's block. -/
def Covers (blk : CoredumpWorkingBuffer layout) (o : ℕ) : Prop :=
  blk.writeOffset.toNat ≤ o ∧ o < blk.writeOffset.toNat + layout.writeSize.toNat

/-- The two blocks do not overlap. -/
def Apart (blk other : CoredumpWorkingBuffer layout) : Prop :=
  blk.writeOffset.toNat + layout.writeSize.toNat ≤ other.writeOffset.toNat ∨
    other.writeOffset.toNat + layout.writeSize.toNat ≤ blk.writeOffset.toNat

instance (blk other : CoredumpWorkingBuffer layout) : Decidable (blk.Apart other) :=
  inferInstanceAs (Decidable (_ ∨ _))

/-- The block ends in the partition. -/
def InBounds (blk : CoredumpWorkingBuffer layout) : Prop :=
  blk.writeOffset.toNat + layout.writeSize.toNat ≤ layout.size.toNat

instance (blk : CoredumpWorkingBuffer layout) : Decidable blk.InBounds := inferInstanceAs (Decidable (_ ≤ _))

end CoredumpWorkingBuffer

open CoredumpWorkingBuffer

/-- What the blocks clear at an offset. -/
def cleared (blks : List (CoredumpWorkingBuffer layout)) (o : ℕ) : UInt8 :=
  blks.foldr (fun blk m => mask blk.writeOffset.toNat blk.data o &&& m) erasedByte

theorem mask_not_covered {blk : CoredumpWorkingBuffer layout} {o : ℕ} (h : ¬ blk.Covers o) :
    mask blk.writeOffset.toNat blk.data o = erasedByte := by
  refine mask_outside _ ?_
  rw [blk.data_length]
  exact h

theorem cleared_not_covered {blks : List (CoredumpWorkingBuffer layout)} {o : ℕ}
    (h : ∀ blk ∈ blks, ¬ blk.Covers o) : cleared blks o = erasedByte := by
  induction blks with
  | nil => rfl
  | cons blk blks ih =>
    obtain ⟨hblk, hrest⟩ := List.forall_mem_cons.mp h
    rw [cleared, List.foldr_cons, mask_not_covered hblk, and_erasedByte]
    exact ih hrest

/-- Of blocks that do not overlap each clears its own bytes. -/
theorem cleared_covered {blks : List (CoredumpWorkingBuffer layout)} (hapart : blks.Pairwise Apart)
    {blk : CoredumpWorkingBuffer layout} (hmem : blk ∈ blks) {o : ℕ} (ho : blk.Covers o) :
    cleared blks o = mask blk.writeOffset.toNat blk.data o := by
  have hother : ∀ {b c : CoredumpWorkingBuffer layout}, b.Apart c → b.Covers o → ¬ c.Covers o := by
    intro b c h hb hc
    simp only [Apart, Covers] at h hb hc
    omega
  induction blks with
  | nil => cases hmem
  | cons b blks ih =>
    obtain ⟨hb, hrest⟩ := List.pairwise_cons.mp hapart
    rw [cleared, List.foldr_cons]
    rcases List.mem_cons.mp hmem with rfl | hmem
    · have hnone := cleared_not_covered fun c hc => hother (hb c hc) ho
      rw [cleared] at hnone
      rw [hnone, and_erased]
    · have hnot : ¬ b.Covers o := fun hcovers => hother (hb blk hmem) hcovers ho
      rw [mask_not_covered hnot, and_erasedByte]
      exact ih hrest hmem

/-- One write. -/
theorem step_write (s : StorageState) {blk : CoredumpWorkingBuffer layout} (hin : blk.InBounds) (o : ℕ) :
    (stepStorage s (.call (.bufferedWrite blk))).chip (layout.offset.toNat + o)
      = s.chip (layout.offset.toNat + o) &&& mask blk.writeOffset.toNat blk.data o := by
  have hpos := layout.writeSize_pos
  have hsize : blk.writeOffset.toNat + layout.writeSize.toNat ≤ layout.size.toNat := hin
  have hbounds := (inBounds_iff layout blk.no_wrap).mpr hin
  have hwords : layout.writeSize.toNat / 4 * 4 = blk.data.length := by
    rw [blk.data_length]
    exact Nat.div_mul_cancel layout.whole_words
  have hdata : blk.data.take (4 * (layout.writeSize.toNat / 4)) = blk.data :=
    List.take_of_length_le (by omega)
  have hshift : mask (layout.offset + blk.writeOffset).toNat blk.data (layout.offset.toNat + o)
      = mask blk.writeOffset.toNat blk.data o := by
    rw [address_toNat layout (by omega), mask, mask, Nat.add_sub_add_left]
    simp only [Nat.add_le_add_iff_left]
  show applyAll (memfaultPlatformCoredumpStorageBufferedWrite layout blk).2 s.chip _ = _
  rw [memfaultPlatformCoredumpStorageBufferedWrite, if_neg (not_not.mpr hbounds)]
  rw [applyAll_wordEffects, hdata, hshift]

/-- The writes one after the other. -/
def writes (blks : List (CoredumpWorkingBuffer layout)) : List (StorageEvent layout) :=
  blks.map fun blk => .call (.bufferedWrite blk)

theorem run_writes (blks : List (CoredumpWorkingBuffer layout)) (hin : ∀ blk ∈ blks, blk.InBounds)
    (s : StorageState) (o : ℕ) :
    (Runs.run stepStorage s (writes blks)).chip (layout.offset.toNat + o)
      = s.chip (layout.offset.toNat + o) &&& cleared blks o := by
  induction blks generalizing s with
  | nil => exact (and_erased _).symm
  | cons blk blks ih =>
    obtain ⟨hblk, hrest⟩ := List.forall_mem_cons.mp hin
    have hrun := ih hrest (stepStorage s (.call (.bufferedWrite blk)))
    rw [step_write s hblk, UInt8.and_assoc] at hrun
    exact hrun

/-- An erase from the start of the partition leaves erased bytes. -/
theorem step_erase (s : StorageState) {range : StorageRange} (hstart : range.offset = 0)
    (hret : (eraseEffects layout range).1 = true) {o : ℕ} (ho : o < range.len.toNat) :
    (stepStorage s (.call (.erase range) : StorageEvent layout)).chip (layout.offset.toNat + o) = erasedByte := by
  have hpos := layout.pageSize_pos
  have hdiv := Nat.div_mul_le_self o layout.pageSize.toNat
  have hmod := Nat.lt_div_mul_add hpos (a := o)
  have hmem : Effect.erase (layout.offset.toNat + o / layout.pageSize.toNat * layout.pageSize.toNat)
      layout.pageSize.toNat ∈ (eraseEffects layout range).2 :=
    (eraseEffects_spec range _).mpr ⟨hret, _, by rw [hstart, UInt32.toNat_zero]; omega, by omega, rfl⟩
  refine applyAll_erased (fun e he => ?_) hmem ⟨by omega, by omega⟩ s.chip
  obtain ⟨-, j, -, -, rfl⟩ := (eraseEffects_spec range e).mp he
  exact ⟨_, _, rfl⟩

/-- **What is written is read.**  After an erase of the first `len` bytes and writes of blocks there that do
not overlap, in any order, and after a reboot, every block is read back, and the other bytes are erased. -/
theorem erased_then_written (layout : CoredumpLayout) (s : StorageState) (range : StorageRange)
    (hstart : range.offset = 0) (hret : (eraseEffects layout range).1 = true)
    (blks : List (CoredumpWorkingBuffer layout)) (hapart : blks.Pairwise Apart)
    (hin : ∀ blk ∈ blks, blk.writeOffset.toNat + layout.writeSize.toNat ≤ range.len.toNat) :
    let s' := Runs.run stepStorage s (.call (.erase range) :: writes blks ++ [.reboot])
    (∀ blk ∈ blks, memfaultCoredumpRead layout s' blk.writeOffset layout.writeSize = some blk.data) ∧
      ∀ o < range.len.toNat, (∀ blk ∈ blks, ¬ blk.Covers o) → s'.chip (layout.offset.toNat + o) = erasedByte := by
  have hsize : range.len.toNat ≤ layout.size.toNat := by
    have hbound := eraseEffects_bound hret
    omega
  have hinBounds : ∀ blk ∈ blks, blk.InBounds := fun blk hblk => (hin blk hblk).trans hsize
  intro s'
  have hcontent : ∀ o < range.len.toNat, s'.chip (layout.offset.toNat + o) = cleared blks o := by
    intro o ho
    have hrun := run_writes blks hinBounds (stepStorage s (.call (.erase range) : StorageEvent layout)) o
    rw [step_erase s hstart hret ho, and_erasedByte] at hrun
    show (Runs.run stepStorage s (.call (.erase range) :: writes blks ++ [.reboot])).chip _ = _
    rw [List.cons_append, Runs.run_cons, Runs.run_append]
    exact hrun
  refine ⟨fun blk hblk => ?_, fun o ho hnone => ?_⟩
  · have hflag : s'.lastCoredumpCleared = false := by
      show (Runs.run stepStorage s (.call (.erase range) :: writes blks ++ [.reboot])).lastCoredumpCleared = _
      rw [Runs.run_append]
      rfl
    have hpos := layout.writeSize_pos
    have hend := hin blk hblk
    have hbounds := (inBounds_iff layout blk.no_wrap).mpr (hinBounds blk hblk)
    have haddress := address_toNat layout (x := blk.writeOffset) (by omega)
    rw [memfaultCoredumpRead, hflag, memfaultPlatformCoredumpStorageRead, if_neg (not_not.mpr hbounds)]
    simp only [Bool.false_eq_true, if_false, haddress]
    refine congrArg some (List.ext_getElem (by simp [blk.data_length]) fun i hi hi' => ?_)
    have hi4 : i < layout.writeSize.toNat := blk.data_length ▸ hi'
    have hcovers : blk.Covers (blk.writeOffset.toNat + i) := ⟨by omega, by omega⟩
    rw [List.getElem_map, List.getElem_range, Nat.add_assoc, hcontent _ (by omega),
      cleared_covered hapart hblk hcovers, mask_inside (by omega), Nat.add_sub_cancel_left,
      List.getD_eq_getElem?_getD, List.getElem?_eq_getElem hi', Option.getD_some]
  · rw [hcontent o ho, cleared_not_covered hnone]

theorem erased_then_written_small :
    let s' := Runs.run stepStorage zeroFlash
      (.call (.erase firstPage) :: writes [blockAt 16 (by decide) 7, blockAt 0 (by decide) 9] ++ [.reboot])
    (∀ blk ∈ [blockAt 16 (by decide) 7, blockAt 0 (by decide) 9],
        memfaultCoredumpRead smallLayout s' blk.writeOffset smallLayout.writeSize = some blk.data) ∧
      ∀ o < firstPage.len.toNat, (∀ blk ∈ [blockAt 16 (by decide) 7, blockAt 0 (by decide) 9], ¬ blk.Covers o) →
        s'.chip (smallLayout.offset.toNat + o) = erasedByte :=
  erased_then_written smallLayout zeroFlash firstPage rfl (by decide +kernel) _ (by decide)
    (List.forall_mem_cons.mpr ⟨by decide, List.forall_mem_singleton.mpr (by decide)⟩)

end WifiMemfault.CoredumpFlash
