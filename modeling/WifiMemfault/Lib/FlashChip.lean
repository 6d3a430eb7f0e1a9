import WifiMemfault.Lib.NorFlash

/-!
# A flash chip by addresses

The whole address space of a NOR flash as a function, where `NorFlash` has the bytes of one partition.  What
code does to it is a list of effects, erases and programs, of which a power cut leaves a prefix.

A byte that no effect touches stays (`applyAll_frame`), a cleared one stays cleared until it is erased
(`applyAll_zero`), and a write word by word clears what its data clear (`applyAll_wordEffects`).
-/

namespace FlashChip

open NorFlash

abbrev Chip := ℕ → UInt8

inductive Effect where
  | erase (start len : ℕ)
  | program (start : ℕ) (bytes : List UInt8)
  deriving DecidableEq, Repr

/-- What a program clears at an address. -/
def mask (start : ℕ) (bytes : List UInt8) (a : ℕ) : UInt8 :=
  if start ≤ a then bytes.getD (a - start) erasedByte else erasedByte

def Effect.Touches : Effect → ℕ → Prop
  | .erase start len, a => start ≤ a ∧ a < start + len
  | .program start bytes, a => start ≤ a ∧ a < start + bytes.length

instance (e : Effect) (a : ℕ) : Decidable (e.Touches a) :=
  match e with
  | .erase _ _ | .program _ _ => inferInstanceAs (Decidable (_ ∧ _))

def Effect.apply : Effect → Chip → Chip
  | .erase start len, chip => fun a => if start ≤ a ∧ a < start + len then erasedByte else chip a
  | .program start bytes, chip => fun a => chip a &&& mask start bytes a

def applyAll (effects : List Effect) (chip : Chip) : Chip := effects.foldl (fun chip e => e.apply chip) chip

theorem applyAll_append (es fs : List Effect) (chip : Chip) :
    applyAll (es ++ fs) chip = applyAll fs (applyAll es chip) := List.foldl_append

theorem and_erased (b : UInt8) : b &&& erasedByte = b := by
  rw [UInt8.and_comm, and_erasedByte]

theorem mask_inside {start a : ℕ} {bytes : List UInt8} (h : start ≤ a) :
    mask start bytes a = bytes.getD (a - start) erasedByte := if_pos h

theorem mask_outside (start : ℕ) {a : ℕ} {bytes : List UInt8} (h : ¬ (start ≤ a ∧ a < start + bytes.length)) :
    mask start bytes a = erasedByte := by
  rw [mask]
  split
  · rw [List.getD_eq_getElem?_getD, List.getElem?_eq_none (by omega)]
    rfl
  · rfl

/-! ### One byte under a list of effects -/

theorem apply_frame {e : Effect} {a : ℕ} (h : ¬ e.Touches a) (chip : Chip) : e.apply chip a = chip a := by
  cases e with
  | erase start len => exact if_neg h
  | program start bytes =>
    show chip a &&& mask start bytes a = chip a
    rw [mask_outside start h, and_erased]

/-- **Frame.** -/
theorem applyAll_frame {effects : List Effect} {a : ℕ} (h : ∀ e ∈ effects, ¬ e.Touches a) (chip : Chip) :
    applyAll effects chip a = chip a := by
  induction effects generalizing chip with
  | nil => rfl
  | cons e effects ih =>
    obtain ⟨he, hrest⟩ := List.forall_mem_cons.mp h
    exact (ih hrest (e.apply chip)).trans (apply_frame he chip)

/-- The effect is no erase of this byte. -/
def Effect.Spares : Effect → ℕ → Prop
  | .erase start len, a => ¬ (start ≤ a ∧ a < start + len)
  | .program _ _, _ => True

/-- **A cleared byte stays cleared.** -/
theorem applyAll_zero {effects : List Effect} {a : ℕ} (h : ∀ e ∈ effects, e.Spares a) {chip : Chip}
    (hzero : chip a = 0) : applyAll effects chip a = 0 := by
  induction effects generalizing chip with
  | nil => exact hzero
  | cons e effects ih =>
    obtain ⟨he, hrest⟩ := List.forall_mem_cons.mp h
    refine ih hrest ?_
    cases e with
    | erase start len => exact (if_neg he).trans hzero
    | program start bytes =>
      show chip a &&& mask start bytes a = 0
      rw [hzero, UInt8.zero_and]

/-- **Erasing.**  A byte of one of the erased ranges is erased. -/
theorem applyAll_erased {effects : List Effect} (hall : ∀ e ∈ effects, ∃ start len, e = .erase start len)
    {e : Effect} (he : e ∈ effects) {a : ℕ} (ha : e.Touches a) (chip : Chip) :
    applyAll effects chip a = erasedByte := by
  have hkeeps : ∀ es : List Effect, (∀ f ∈ es, ∃ start len, f = .erase start len) → ∀ chip : Chip,
      chip a = erasedByte → applyAll es chip a = erasedByte := by
    intro es hes chip hchip
    induction es generalizing chip with
    | nil => exact hchip
    | cons f es ih =>
      obtain ⟨⟨start, len, rfl⟩, hrest⟩ := List.forall_mem_cons.mp hes
      refine ih hrest _ ?_
      show (if start ≤ a ∧ a < start + len then erasedByte else chip a) = erasedByte
      rw [hchip, ite_self]
  obtain ⟨before, after, rfl⟩ := List.append_of_mem he
  obtain ⟨start, len, rfl⟩ := hall e he
  rw [applyAll_append]
  refine hkeeps after (fun f hf => hall f ?_) _ (if_pos ha)
  exact List.mem_append_right _ (List.mem_cons_of_mem _ hf)

/-! ### Words -/

/-- `count` words of four bytes from `addr` on, one effect for each. -/
def wordEffects : ℕ → ℕ → List UInt8 → List Effect
  | _, 0, _ => []
  | addr, count + 1, data => .program addr (data.take 4) :: wordEffects (addr + 4) count (data.drop 4)

theorem getD_take {data : List UInt8} {n i : ℕ} (h : i < n) :
    (data.take n).getD i erasedByte = data.getD i erasedByte := by
  rw [List.getD_eq_getElem?_getD, List.getD_eq_getElem?_getD, List.getElem?_take_of_lt h]

theorem getD_drop {data : List UInt8} {n i : ℕ} :
    (data.drop n).getD i erasedByte = data.getD (n + i) erasedByte := by
  rw [List.getD_eq_getElem?_getD, List.getD_eq_getElem?_getD, List.getElem?_drop]

/-- The first word and the rest. -/
theorem mask_words (addr count : ℕ) (data : List UInt8) (a : ℕ) :
    mask addr (data.take 4) a &&& mask (addr + 4) ((data.drop 4).take (4 * count)) a
      = mask addr (data.take (4 * (count + 1))) a := by
  by_cases hlow : addr ≤ a
  · by_cases hfirst : a < addr + 4
    · rw [mask_outside (addr + 4) (by omega), and_erased, mask_inside hlow, mask_inside hlow,
        getD_take (by omega), getD_take (by omega)]
    · have hshift : 4 + (a - (addr + 4)) = a - addr := by omega
      have htake : (data.drop 4).take (4 * count) = (data.take (4 * (count + 1))).drop 4 := by
        rw [List.drop_take]
        congr 1
      rw [mask_outside addr (by rw [List.length_take]; omega), and_erasedByte,
        mask_inside (by omega), mask_inside hlow, htake, getD_drop, hshift]
  · rw [mask_outside addr (by omega), mask_outside (addr + 4) (by omega),
      mask_outside addr (by omega), and_erased]

/-- **All words.** -/
theorem applyAll_wordEffects (count addr : ℕ) (data : List UInt8) (chip : Chip) (a : ℕ) :
    applyAll (wordEffects addr count data) chip a = chip a &&& mask addr (data.take (4 * count)) a := by
  induction count generalizing addr data chip with
  | zero =>
    rw [Nat.mul_zero, List.take_zero, mask_outside addr (by simp), and_erased]
    rfl
  | succ count ih =>
    have hrest := ih (addr + 4) (data.drop 4) ((Effect.program addr (data.take 4)).apply chip)
    rw [← mask_words, ← UInt8.and_assoc]
    exact hrest

/-- The words of a write touch nothing else. -/
theorem wordEffects_touches {count addr : ℕ} {data : List UInt8} {e : Effect}
    (he : e ∈ wordEffects addr count data) {a : ℕ} (ha : e.Touches a) : addr ≤ a ∧ a < addr + 4 * count := by
  induction count generalizing addr data with
  | zero => cases he
  | succ count ih =>
    rcases List.mem_cons.mp he with rfl | he
    · have hlen := List.length_take_le 4 data
      have htouch : addr ≤ a ∧ a < addr + (data.take 4).length := ha
      omega
    · have hrest := ih he
      omega

theorem wordEffects_spares {count addr : ℕ} {data : List UInt8} {e : Effect}
    (he : e ∈ wordEffects addr count data) (a : ℕ) : e.Spares a := by
  induction count generalizing addr data with
  | zero => cases he
  | succ count ih =>
    rcases List.mem_cons.mp he with rfl | he
    · exact trivial
    · exact ih he

end FlashChip
