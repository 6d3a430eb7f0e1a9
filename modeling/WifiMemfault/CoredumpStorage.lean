import Mathlib.Algebra.Group.Nat.Defs
import Mathlib.Data.Int.Notation
import Mathlib.Data.List.Basic
import Mathlib.Tactic.Common

/-!
# Erasing the coredump storage

The erase of `core/app_memfault_flash_coredump_storage.c`.  All numbers are 32 bits wide and wrap, as
`uint32_t` and `size_t` do.  The effect of a call is the list of addresses it hands to
`nrfx_nvmc_page_erase`; the loop over the pages need not end, since its counter wraps, and is run with fuel.

The loop goes from `offset` to `erase_size`, which is where the range ends only if it starts at zero.
`erase_meets_iff` says when a call does what its arguments ask for.
-/

namespace WifiMemfault.CoredumpStorage

/-- The `memfault_storage` partition and the page size of the flash; the partition is made of whole pages. -/
structure CoredumpPartition where
  offset : UInt32
  size : UInt32
  pageSize : UInt32
  pageSize_pos : 0 < pageSize.toNat
  whole_pages : pageSize.toNat ∣ size.toNat

variable (part : CoredumpPartition)

/-- `prv_op_within_flash_bounds`; the sum wraps. -/
def prvOpWithinFlashBounds (offset dataLen : UInt32) : Bool := decide (offset + dataLen ≤ part.size)

/-- The loop of the erase from `page` on: the addresses it erases, none if it needs more fuel. -/
def erasePages (eraseSize : UInt32) : ℕ → UInt32 → Option (List UInt32)
  | 0, _ => none
  | fuel + 1, page =>
    if page < eraseSize then
      (erasePages eraseSize fuel (page + part.pageSize)).map ((part.offset + page) :: ·)
    else some []

/-- `memfault_platform_coredump_storage_erase`: what it returns, and the addresses it erases. -/
def memfaultPlatformCoredumpStorageErase (offset eraseSize : UInt32) (fuel : ℕ) :
    Option (Bool × List UInt32) :=
  if ¬ prvOpWithinFlashBounds part offset eraseSize then some (false, [])
  else if offset % part.pageSize ≠ 0 then some (false, [])
  else (erasePages part eraseSize fuel offset).map (true, ·)

/-! ### What an erase is asked for -/

/-- Page `k` of the partition has a byte in `[offset, offset + eraseSize)`. -/
def Intersects (offset eraseSize : UInt32) (k : ℕ) : Prop :=
  k * part.pageSize.toNat < offset.toNat + eraseSize.toNat ∧
    offset.toNat < (k + 1) * part.pageSize.toNat ∧ 0 < eraseSize.toNat

/-- The address of page `k` of the partition. -/
def pageAddress (k : ℕ) : UInt32 := part.offset + UInt32.ofNat (k * part.pageSize.toNat)

/-- What the caller may rely on: a true answer means that the range lies in the partition and exactly the
pages it meets are erased, a false one that nothing is. -/
structure Answers (offset eraseSize : UInt32) (ret : Bool) (erased : List UInt32) : Prop where
  in_bounds : ret = true → offset.toNat + eraseSize.toNat ≤ part.size.toNat
  erased_iff : ret = true →
    ∀ address, address ∈ erased ↔ ∃ k, Intersects part offset eraseSize k ∧ address = pageAddress part k
  untouched : ret = false → erased = []

/-- The call returns, and has done what it was asked for. -/
def Meets (offset eraseSize : UInt32) : Prop :=
  ∃ fuel ret erased, memfaultPlatformCoredumpStorageErase part offset eraseSize fuel = some (ret, erased) ∧
    Answers part offset eraseSize ret erased

/-! ### The loop -/

section Loop

variable {part} {eraseSize : UInt32}

/-- Whatever the loop erases lies below `erase_size`. -/
theorem erasePages_below {fuel : ℕ} {page : UInt32} {erased : List UInt32}
    (h : erasePages part eraseSize fuel page = some erased) :
    ∀ address ∈ erased, ∃ page' < eraseSize, address = part.offset + page' := by
  induction fuel generalizing page erased with
  | zero => cases h
  | succ fuel ih =>
    rw [erasePages] at h
    by_cases hpage : page < eraseSize
    · rw [if_pos hpage] at h
      obtain ⟨rest, hrest, rfl⟩ := Option.map_eq_some_iff.mp h
      intro address hmem
      rcases List.mem_cons.mp hmem with rfl | hmem
      · exact ⟨page, hpage, rfl⟩
      · exact ih hrest address hmem
    · rw [if_neg hpage] at h
      cases h
      intro address hmem
      cases hmem

/-- Before the end of the partition the next page starts where this one ends. -/
theorem next_page {k : ℕ} {page : UInt32} (hpage : page.toNat = k * part.pageSize.toNat)
    (hinside : page.toNat < part.size.toNat) :
    (page + part.pageSize).toNat = (k + 1) * part.pageSize.toNat := by
  obtain ⟨m, hm⟩ := part.whole_pages
  have hk : k < m := by
    rw [hpage, hm, Nat.mul_comm part.pageSize.toNat m] at hinside
    exact Nat.lt_of_mul_lt_mul_right hinside
  have hle : (k + 1) * part.pageSize.toNat ≤ part.size.toNat := by
    rw [hm, Nat.mul_comm part.pageSize.toNat m]
    exact Nat.mul_le_mul_right _ hk
  have hsum : page.toNat + part.pageSize.toNat = (k + 1) * part.pageSize.toNat := by
    rw [hpage, Nat.succ_mul]
  have hlt := part.size.toNat_lt
  rw [UInt32.toNat_add, hsum]
  exact Nat.mod_eq_of_lt (by omega)

theorem address_of_page {k : ℕ} {page : UInt32} (hpage : page.toNat = k * part.pageSize.toNat) :
    part.offset + page = pageAddress part k := by
  rw [pageAddress, ← hpage, UInt32.ofNat_toNat]

/-- No page starts at or after page `k` and below an `erase_size` that page `k` does not lie below. -/
theorem no_page_from {k : ℕ} (hend : eraseSize.toNat ≤ k * part.pageSize.toNat) (address : UInt32) :
    address ∈ ([] : List UInt32) ↔
      ∃ j, k ≤ j ∧ j * part.pageSize.toNat < eraseSize.toNat ∧ address = pageAddress part j := by
  refine iff_of_false List.not_mem_nil ?_
  rintro ⟨j, hkj, hj, -⟩
  have hmono := Nat.mul_le_mul_right part.pageSize.toNat hkj
  omega

/-- **The loop inside the partition.**  It ends, and erases the pages from its start to `erase_size`. -/
theorem erasePages_inside (hsize : eraseSize.toNat ≤ part.size.toNat) (n k : ℕ) (page : UInt32)
    (hpage : page.toNat = k * part.pageSize.toNat) (hn : eraseSize.toNat ≤ page.toNat + n) :
    ∃ erased, erasePages part eraseSize (n + 1) page = some erased ∧
      ∀ address, address ∈ erased ↔
        ∃ j, k ≤ j ∧ j * part.pageSize.toNat < eraseSize.toNat ∧ address = pageAddress part j := by
  induction n generalizing k page with
  | zero =>
    have hend : ¬ page < eraseSize := by
      rw [UInt32.lt_iff_toNat_lt]
      omega
    exact ⟨[], if_neg hend, no_page_from (by omega)⟩
  | succ n ih =>
    by_cases hin : page < eraseSize
    · have hlt : page.toNat < eraseSize.toNat := UInt32.lt_iff_toNat_lt.mp hin
      have hpos := part.pageSize_pos
      have hnext := next_page hpage (by omega)
      have hstep : (k + 1) * part.pageSize.toNat = page.toNat + part.pageSize.toNat := by
        rw [hpage, Nat.succ_mul]
      obtain ⟨erased, hrun, hmem⟩ := ih (k + 1) (page + part.pageSize) hnext (by omega)
      refine ⟨(part.offset + page) :: erased, ?_, fun address => ?_⟩
      · rw [erasePages, if_pos hin, hrun]
        rfl
      · rw [List.mem_cons, hmem address]
        constructor
        · rintro (rfl | ⟨j, hkj, hj, rfl⟩)
          · exact ⟨k, Nat.le_refl k, by omega, address_of_page hpage⟩
          · exact ⟨j, by omega, hj, rfl⟩
        · rintro ⟨j, hkj, hj, rfl⟩
          rcases Nat.eq_or_lt_of_le hkj with rfl | hkj
          · exact Or.inl (address_of_page hpage).symm
          · exact Or.inr ⟨j, hkj, hj, rfl⟩
    · have hend : eraseSize.toNat ≤ page.toNat :=
        Nat.not_lt.mp fun h => hin (UInt32.lt_iff_toNat_lt.mpr h)
      exact ⟨[], if_neg hin, no_page_from (by omega)⟩

end Loop

/-! ### When an erase does what it is asked for -/

section Erase

variable {part} {offset eraseSize : UInt32}

theorem meets_of_refused
    (h : offset % part.pageSize ≠ 0 ∨ prvOpWithinFlashBounds part offset eraseSize = false) :
    Meets part offset eraseSize := by
  refine ⟨0, false, [], ?_, ⟨fun h => Bool.noConfusion h, fun h => Bool.noConfusion h, fun _ => rfl⟩⟩
  rw [memfaultPlatformCoredumpStorageErase]
  by_cases hbounds : prvOpWithinFlashBounds part offset eraseSize
  · rw [if_neg (not_not.mpr hbounds)]
    rcases h with hoffset | hbounds'
    · exact if_pos hoffset
    · rw [hbounds] at hbounds'
      cases hbounds'
  · exact if_pos hbounds

/-- An accepted call answers true, and its pages are those of the loop. -/
theorem erase_accepted (hoffset : offset % part.pageSize = 0)
    (hbounds : prvOpWithinFlashBounds part offset eraseSize = true) (fuel : ℕ) :
    memfaultPlatformCoredumpStorageErase part offset eraseSize fuel
      = (erasePages part eraseSize fuel offset).map (true, ·) := by
  rw [memfaultPlatformCoredumpStorageErase, if_neg (not_not.mpr hbounds), if_neg (not_not.mpr hoffset)]

theorem meets_from_zero (hbounds : prvOpWithinFlashBounds part 0 eraseSize = true) :
    Meets part 0 eraseSize := by
  have hsize : eraseSize.toNat ≤ part.size.toNat := by
    have hle := of_decide_eq_true hbounds
    rw [UInt32.zero_add] at hle
    exact UInt32.le_iff_toNat_le.mp hle
  obtain ⟨erased, hrun, hmem⟩ := erasePages_inside hsize eraseSize.toNat 0 0 (by simp) (by simp)
  refine ⟨eraseSize.toNat + 1, true, erased, ?_,
    ⟨fun _ => by simpa using hsize, fun _ address => ?_, fun h => Bool.noConfusion h⟩⟩
  · rw [erase_accepted UInt32.zero_mod hbounds, hrun]
    rfl
  · have hpos := part.pageSize_pos
    rw [hmem address]
    refine exists_congr fun k => ?_
    have hpage : 0 < (k + 1) * part.pageSize.toNat := Nat.mul_pos (Nat.succ_pos k) hpos
    simp only [Intersects, UInt32.toNat_zero, Nat.zero_add, Nat.zero_le, true_and, hpage]
    constructor
    · rintro ⟨hk, rfl⟩
      exact ⟨⟨hk, by omega⟩, rfl⟩
    · rintro ⟨⟨hk, -⟩, rfl⟩
      exact ⟨hk, rfl⟩

theorem meets_empty (hoffset : offset % part.pageSize = 0)
    (hbounds : prvOpWithinFlashBounds part offset 0 = true) : Meets part offset 0 := by
  have hle := of_decide_eq_true hbounds
  rw [UInt32.add_zero] at hle
  refine ⟨1, true, [], ?_, ⟨fun _ => ?_, fun _ address => ?_, fun h => Bool.noConfusion h⟩⟩
  · rw [erase_accepted hoffset hbounds, erasePages, if_neg UInt32.not_lt_zero]
    rfl
  · exact UInt32.le_iff_toNat_le.mp hle
  · refine iff_of_false List.not_mem_nil ?_
    rintro ⟨k, ⟨-, -, hpos⟩, -⟩
    exact absurd hpos (Nat.lt_irrefl 0)

/-- **The loop stops too early.**  If the range starts behind the first page, its last page starts at or
after `erase_size`. -/
theorem not_meets_of_behind (hoffset : offset % part.pageSize = 0)
    (hbounds : prvOpWithinFlashBounds part offset eraseSize = true) (hpos : 0 < offset.toNat)
    (hsize : 0 < eraseSize.toNat) : ¬ Meets part offset eraseSize := by
  rintro ⟨fuel, ret, erased, hrun, hanswers⟩
  rw [erase_accepted hoffset hbounds] at hrun
  obtain ⟨erased, hpages, heq⟩ := Option.map_eq_some_iff.mp hrun
  cases heq
  have hbound := hanswers.in_bounds rfl
  have hlt := part.size.toNat_lt
  have hppos := part.pageSize_pos
  have hstart : part.pageSize.toNat ≤ offset.toNat := by
    have hmod := congrArg UInt32.toNat hoffset
    rw [UInt32.toNat_mod, UInt32.toNat_zero] at hmod
    exact Nat.le_of_dvd hpos (Nat.dvd_of_mod_eq_zero hmod)
  -- the last page of the range
  generalize hj : (offset.toNat + eraseSize.toNat - 1) / part.pageSize.toNat = j
  have hlow : j * part.pageSize.toNat ≤ offset.toNat + eraseSize.toNat - 1 := by
    rw [← hj]
    exact Nat.div_mul_le_self _ _
  have hhigh : offset.toNat + eraseSize.toNat - 1 < (j + 1) * part.pageSize.toNat := by
    rw [← hj, Nat.mul_comm]
    exact Nat.lt_mul_div_succ _ hppos
  have hmem : pageAddress part j ∈ erased :=
    (hanswers.erased_iff rfl _).mpr ⟨j, ⟨by omega, by omega, hsize⟩, rfl⟩
  obtain ⟨page, hpage, haddress⟩ := erasePages_below hpages _ hmem
  have hval : j * part.pageSize.toNat = page.toNat := by
    have hnat : (UInt32.ofNat (j * part.pageSize.toNat)).toNat = j * part.pageSize.toNat :=
      UInt32.toNat_ofNat_of_lt' (by rw [UInt32.size]; omega)
    rw [← hnat, (UInt32.add_right_inj _).mp haddress]
  have hbelow : page.toNat < eraseSize.toNat := UInt32.lt_iff_toNat_lt.mp hpage
  rw [Nat.succ_mul] at hhigh
  omega

end Erase

/-- **When an erase does what it is asked for.**  Exactly if the range starts at zero or is empty, or the
call is refused. -/
theorem erase_meets_iff (part : CoredumpPartition) (offset eraseSize : UInt32) :
    Meets part offset eraseSize ↔
      offset = 0 ∨ eraseSize = 0 ∨ offset % part.pageSize ≠ 0 ∨
        prvOpWithinFlashBounds part offset eraseSize = false := by
  by_cases hrefused : offset % part.pageSize ≠ 0 ∨ prvOpWithinFlashBounds part offset eraseSize = false
  · exact iff_of_true (meets_of_refused hrefused) (Or.inr (Or.inr hrefused))
  · obtain ⟨hoffset, hbounds⟩ := not_or.mp hrefused
    rw [not_not] at hoffset
    rw [Bool.not_eq_false] at hbounds
    constructor
    · intro h
      by_contra hcondition
      obtain ⟨hpos, hsize, -⟩ := not_or.mp hcondition |>.imp_right not_or.mp
      refine not_meets_of_behind hoffset hbounds ?_ ?_ h
      · exact Nat.pos_of_ne_zero fun hzero => hpos (UInt32.toNat_inj.mp hzero)
      · exact Nat.pos_of_ne_zero fun hzero => hsize (UInt32.toNat_inj.mp hzero)
    · rintro (rfl | rfl | hrest)
      · exact meets_from_zero hbounds
      · exact meets_empty hoffset hbounds
      · exact absurd hrest hrefused

/-- A partition of eight pages at the start of the flash. -/
def eightPages : CoredumpPartition := ⟨0, 32768, 4096, by decide, by decide⟩

/-- The erase of the second page answers true and erases nothing. -/
theorem second_page_not_erased : ¬ Meets eightPages 4096 4096 :=
  not_meets_of_behind (by decide) (by decide) (by decide) (by decide)

end WifiMemfault.CoredumpStorage
