import WifiMemfault.Lib.ByteList
import Mathlib.Data.List.TakeWhile

/-!
# Byte arrays and the C strings in them

`CArray n` is the `n` bytes of `char a[n]`; a store that fits keeps their number.  The string in an array
is what stands before its first zero byte, `textOf`, and it is a string only if there is one.  Writing a
zero cuts the string off there (`text_store_nul`), whatever the array held behind it.  `findText` is the
search of `strstr`: the first position at which the needle starts.  A `CText` is a string that is passed by
its address; `strcmp` compares two of them, and `strncpy` copies one into an array.
-/

namespace CString

open ByteList

/-- The bytes before the first zero. -/
def textOf (bytes : List UInt8) : List UInt8 := bytes.takeWhile (· != 0)

theorem textOf_append_nul (xs rest : List UInt8) : textOf (xs ++ 0 :: rest) = textOf xs := by
  induction xs with
  | nil => rfl
  | cons x xs ih =>
    by_cases hx : x = 0
    · subst hx
      rfl
    · have hne : (x != 0) = true := by simpa using hx
      simp only [textOf, List.cons_append, List.takeWhile_cons, hne, if_true] at ih ⊢
      rw [ih]

/-- Cutting bytes off cuts the string off. -/
theorem textOf_take (bytes : List UInt8) (k : ℕ) : textOf (bytes.take k) = (textOf bytes).take k :=
  List.take_takeWhile.symm

theorem zero_not_mem_textOf (bytes : List UInt8) : 0 ∉ textOf bytes := by
  intro hmem
  have hne := List.mem_takeWhile_imp hmem
  simp at hne

theorem textOf_of_nonzero {xs : List UInt8} (h : 0 ∉ xs) : textOf xs = xs := by
  refine List.takeWhile_eq_self_iff.mpr fun x hx => ?_
  rw [bne_iff_ne]
  rintro rfl
  exact h hx

/-! ### Strings -/

/-- What a `const char *` to a string points to. -/
@[ext] structure CText where
  text : List UInt8
  nonzero : 0 ∉ text
  deriving DecidableEq

/-- The string in a stretch of memory. -/
def CText.ofBytes (bytes : List UInt8) : CText := ⟨textOf bytes, zero_not_mem_textOf bytes⟩

/-- `strcmp`: the difference of the first bytes that differ, where the end of a string counts as zero. -/
def strcmp : List UInt8 → List UInt8 → ℤ
  | [], [] => 0
  | [], y :: _ => - y.toNat
  | x :: _, [] => x.toNat
  | x :: xs, y :: ys => if x = y then strcmp xs ys else x.toNat - y.toNat

/-- **Equal strings compare as zero**, and others do not. -/
theorem strcmp_eq_zero {xs ys : List UInt8} (hxs : 0 ∉ xs) (hys : 0 ∉ ys) : strcmp xs ys = 0 ↔ xs = ys := by
  have hval : ∀ {x : UInt8}, x ≠ 0 → x.toNat ≠ 0 := fun hx hzero => hx (UInt8.toNat_inj.mp hzero)
  induction xs generalizing ys with
  | nil =>
    cases ys with
    | nil => simp [strcmp]
    | cons y ys =>
      have hy : y ≠ 0 := fun h => hys (h ▸ List.mem_cons_self)
      simp [strcmp, hval hy]
  | cons x xs ih =>
    have hx : x ≠ 0 := fun h => hxs (h ▸ List.mem_cons_self)
    cases ys with
    | nil => simp [strcmp, hval hx]
    | cons y ys =>
      rw [strcmp]
      by_cases hxy : x = y
      · subst hxy
        have hrest : strcmp xs ys = 0 ↔ xs = ys :=
          ih (fun h => hxs (List.mem_cons_of_mem x h)) fun h => hys (List.mem_cons_of_mem x h)
        simp [hrest]
      · rw [if_neg hxy]
        have hdiff : (x.toNat : ℤ) ≠ y.toNat := fun h => hxy (UInt8.toNat_inj.mp (Int.ofNat_inj.mp h))
        simp [hxy, sub_eq_zero, hdiff]

theorem CText.strcmp_ne_zero (s t : CText) : strcmp s.text t.text ≠ 0 ↔ t ≠ s := by
  rw [ne_eq, strcmp_eq_zero s.nonzero t.nonzero, ← CText.ext_iff, ne_comm]

/-! ### Arrays -/

/-- `char a[n]`. -/
@[ext] structure CArray (n : ℕ) where
  bytes : List UInt8
  size_eq : bytes.length = n
  deriving DecidableEq

namespace CArray

variable {n : ℕ}

/-- An array of zeros. -/
def zeros (n : ℕ) : CArray n := ⟨List.replicate n 0, List.length_replicate⟩

/-- The array after `xs` has been stored at offset `off`. -/
def store (a : CArray n) (off : ℕ) (xs : List UInt8) (h : off + xs.length ≤ n) : CArray n :=
  ⟨overwrite off xs a.bytes, (overwrite_length off xs a.bytes (by rw [a.size_eq]; exact h)).trans a.size_eq⟩

theorem store_bytes (a : CArray n) (off : ℕ) (xs : List UInt8) (h : off + xs.length ≤ n) :
    (a.store off xs h).bytes = overwrite off xs a.bytes := rfl

/-- The string in the array. -/
def text (a : CArray n) : List UInt8 := textOf a.bytes

/-- There is a string in the array. -/
def Terminated (a : CArray n) : Prop := 0 ∈ a.bytes

instance (a : CArray n) : Decidable a.Terminated := inferInstanceAs (Decidable (0 ∈ a.bytes))

theorem zeros_text (n : ℕ) : (zeros n).text = [] := by
  cases n with
  | zero => rfl
  | succ n => rfl

theorem zeros_terminated (h : 0 < n) : (zeros n).Terminated :=
  List.mem_replicate.mpr ⟨h.ne', rfl⟩

/-- What stands before `off` stays. -/
theorem take_store (a : CArray n) {off k : ℕ} {xs : List UInt8} (h : off + xs.length ≤ n)
    (hk : off + xs.length = k) : (a.store off xs h).bytes.take k = a.bytes.take off ++ xs := by
  have hoff : (a.bytes.take off).length = off := by
    rw [List.length_take, a.size_eq]
    omega
  have hlen : k = (a.bytes.take off ++ xs).length := by
    rw [List.length_append, hoff, hk]
  rw [store_bytes, overwrite, hlen, List.take_left]

/-- **Terminating a string.** -/
theorem text_store_nul (a : CArray n) {off : ℕ} (h : off + [(0 : UInt8)].length ≤ n) :
    (a.store off [0] h).text = textOf (a.bytes.take off) := by
  rw [text, store_bytes, overwrite, List.append_assoc]
  exact textOf_append_nul _ _

theorem store_nul_terminated (a : CArray n) {off : ℕ} (h : off + [(0 : UInt8)].length ≤ n) :
    (a.store off [0] h).Terminated := by
  show 0 ∈ overwrite off [0] a.bytes
  simp [overwrite]

/-- `strncpy(a, src, k)`: the first `k` bytes of the string, padded with zeros to `k`. -/
def strncpy (a : CArray n) (src : List UInt8) (k : ℕ) (h : k ≤ n) : CArray n :=
  a.store 0 ((src ++ List.replicate k 0).take k) (by simpa using h)

/-- **A bounded copy, terminated.**  It is the first `k` bytes of the string, whatever was there before. -/
theorem text_strncpy (a : CArray n) {src : List UInt8} (hsrc : 0 ∉ src) {k : ℕ}
    (h : k + [(0 : UInt8)].length ≤ n) :
    ((a.strncpy src k (Nat.le_of_add_right_le h)).store k [0] h).text = src.take k := by
  have hpad : ((src ++ List.replicate k 0).take k).length = k := by
    rw [List.length_take, List.length_append, List.length_replicate]
    omega
  have htext : textOf (src ++ List.replicate k 0) = src := by
    cases k with
    | zero => rw [List.replicate_zero, List.append_nil, textOf_of_nonzero hsrc]
    | succ k => rw [List.replicate_succ, textOf_append_nul, textOf_of_nonzero hsrc]
  have hcopied : (a.strncpy src k (Nat.le_of_add_right_le h)).bytes.take k
      = a.bytes.take 0 ++ (src ++ List.replicate k 0).take k :=
    take_store a _ (by rw [hpad, Nat.zero_add])
  rw [text_store_nul, hcopied, List.take_zero, List.nil_append, textOf_take, htext]

end CArray

/-! ### Searching -/

section Search

variable {α : Type*}

/-- `needle` starts at `p`, and nowhere before. -/
def FirstAt (needle s : List α) (p : ℕ) : Prop :=
  needle <+: s.drop p ∧ ∀ q < p, ¬ needle <+: s.drop q

theorem firstAt_zero {needle s : List α} {p : ℕ} (h : needle <+: s) : FirstAt needle s p ↔ p = 0 := by
  constructor
  · rintro ⟨-, hbefore⟩
    by_contra hp
    exact hbefore 0 (Nat.pos_of_ne_zero hp) h
  · rintro rfl
    exact ⟨h, fun q hq => absurd hq (Nat.not_lt_zero q)⟩

theorem firstAt_succ {needle xs : List α} {x : α} {p : ℕ} (h : ¬ needle <+: x :: xs) :
    FirstAt needle (x :: xs) p ↔ ∃ q, FirstAt needle xs q ∧ q + 1 = p := by
  constructor
  · rintro ⟨hp, hbefore⟩
    cases p with
    | zero => exact absurd hp h
    | succ q => exact ⟨q, ⟨hp, fun r hr => hbefore (r + 1) (Nat.succ_lt_succ hr)⟩, rfl⟩
  · rintro ⟨q, ⟨hq, hbefore⟩, rfl⟩
    refine ⟨hq, fun r hr => ?_⟩
    cases r with
    | zero => exact h
    | succ r => exact hbefore r (Nat.lt_of_succ_lt_succ hr)

variable [DecidableEq α]

/-- The position `strstr` finds `needle` at. -/
def findText (needle : List α) : List α → Option ℕ
  | [] => if needle = [] then some 0 else none
  | x :: xs => if needle <+: x :: xs then some 0 else (findText needle xs).map (· + 1)

/-- **The search finds the first position.** -/
theorem findText_eq_some {needle s : List α} {p : ℕ} :
    findText needle s = some p ↔ FirstAt needle s p := by
  induction s generalizing p with
  | nil =>
    rw [findText]
    split
    · rename_i hneedle
      rw [firstAt_zero (hneedle ▸ List.nil_prefix)]
      simp [eq_comm]
    · rename_i hneedle
      refine iff_of_false (by simp) ?_
      rintro ⟨hp, -⟩
      exact hneedle (List.prefix_nil.mp (by simpa using hp))
  | cons x xs ih =>
    rw [findText]
    split
    · rename_i hstarts
      rw [firstAt_zero hstarts]
      simp [eq_comm]
    · rename_i hstarts
      rw [firstAt_succ hstarts]
      simp [ih]

theorem findText_eq_none {needle s : List α} (h : ¬ needle <:+: s) : findText needle s = none := by
  rw [Option.eq_none_iff_forall_not_mem]
  intro p hp
  have hfirst := findText_eq_some.mp hp
  exact h (hfirst.1.isInfix.trans (List.drop_suffix p s).isInfix)

end Search

end CString
