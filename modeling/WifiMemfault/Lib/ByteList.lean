import Mathlib.Tactic.Common
import Mathlib.Tactic.Ring

/-!
# Byte lists: overwriting a range, little-endian numbers

Memory objects and flash partitions are lists of bytes.  `overwrite off xs l` is the list after the
bytes `xs` have been stored at offset `off`; `leBytes w n` is the `w`-byte little-endian image of
`n`, and `ofLe` reads such an image back.
-/

namespace ByteList

/-! ### Overwriting a range -/

/-- The bytes of `l` after `xs` has been stored at offset `off`. -/
def overwrite {α : Type*} (off : ℕ) (xs l : List α) : List α :=
  l.take off ++ xs ++ l.drop (off + xs.length)

variable {α : Type*}

theorem overwrite_length (off : ℕ) (xs l : List α) (h : off + xs.length ≤ l.length) :
    (overwrite off xs l).length = l.length := by
  simp only [overwrite, List.length_append, List.length_take, List.length_drop]
  omega

@[simp] theorem overwrite_nil (off : ℕ) (l : List α) : overwrite off [] l = l := by
  simp [overwrite]

/-- Storing over the middle part of a list replaces exactly that part. -/
theorem overwrite_append (a xs y b : List α) (h : y.length = xs.length) :
    overwrite a.length xs (a ++ y ++ b) = a ++ xs ++ b := by
  have hdrop : (a ++ y ++ b).drop (a.length + xs.length) = b := by
    rw [← h, ← List.length_append, List.drop_left]
  rw [overwrite, hdrop, List.append_assoc a y b, List.take_left]

/-- Storing a whole object at offset zero. -/
theorem overwrite_zero_of_length_eq (xs l : List α) (h : xs.length = l.length) :
    overwrite 0 xs l = xs := by
  simp [overwrite, ← h]

theorem take_overwrite_zero (xs l : List α) : (overwrite 0 xs l).take xs.length = xs := by
  rw [overwrite, List.take_zero, List.nil_append, List.take_left]

theorem getElem?_overwrite_zero (xs l : List α) (i : ℕ) (h : i < xs.length) :
    (overwrite 0 xs l)[i]? = xs[i]? := by
  simp only [overwrite, List.take_zero, List.nil_append]
  exact List.getElem?_append_left h

/-! ### Little-endian numbers -/

/-- The `w`-byte little-endian image of `n`. -/
def leBytes : ℕ → ℕ → List UInt8
  | 0, _ => []
  | w + 1, n => UInt8.ofNat n :: leBytes w (n / 256)

@[simp] theorem leBytes_length (w n : ℕ) : (leBytes w n).length = w := by
  induction w generalizing n with
  | zero => rfl
  | succ w ih => simp [leBytes, ih]

/-- The number a little-endian byte list stands for. -/
def ofLe : List UInt8 → ℕ
  | [] => 0
  | b :: bs => b.toNat + 256 * ofLe bs

theorem ofLe_append (xs ys : List UInt8) : ofLe (xs ++ ys) = ofLe xs + 256 ^ xs.length * ofLe ys := by
  induction xs with
  | nil => simp [ofLe]
  | cons x xs ih =>
    simp only [List.cons_append, ofLe, ih, List.length_cons, pow_succ]
    ring

/-- **Round trip.**  Reading back the image gives the number modulo the width. -/
theorem ofLe_leBytes (w n : ℕ) : ofLe (leBytes w n) = n % 256 ^ w := by
  induction w generalizing n with
  | zero => simp [leBytes, ofLe, Nat.mod_one]
  | succ w ih =>
    have hbyte : (UInt8.ofNat n).toNat = n % 256 := by simp
    rw [leBytes, ofLe, ih, hbyte, pow_succ, Nat.mul_comm (256 ^ w) 256, Nat.mod_mul]

theorem ofLe_lt (bs : List UInt8) : ofLe bs < 256 ^ bs.length := by
  induction bs with
  | nil => simp [ofLe]
  | cons b bs ih =>
    have hb : b.toNat < 256 := b.toNat_lt
    simp only [ofLe, List.length_cons, pow_succ]
    omega

/-- The most significant byte bounds the number from below. -/
theorem le_ofLe_concat (bs : List UInt8) (b : UInt8) :
    256 ^ bs.length * b.toNat ≤ ofLe (bs ++ [b]) := by
  rw [ofLe_append]
  simp [ofLe]

/-- The first byte of a little-endian number is its remainder. -/
theorem ofLe_first (bs : List UInt8) (b : UInt8) (h : bs[0]? = some b) :
    ofLe bs % 256 = b.toNat := by
  cases bs with
  | nil => simp at h
  | cons c cs =>
    have hc : c = b := by simpa using h
    have hb : b.toNat < 256 := b.toNat_lt
    rw [ofLe, hc]
    omega

/-- The top byte of a four-byte number bounds it from below. -/
theorem ofLe_fourth (bs : List UInt8) (b : UInt8) (hlen : bs.length = 4) (h : bs[3]? = some b) :
    2 ^ 24 * b.toNat ≤ ofLe bs := by
  have hsplit : bs = bs.take 3 ++ [b] := by
    have hlast := List.take_append_drop 3 bs
    rw [List.drop_eq_getElem_cons (by omega), List.drop_eq_nil_of_le (by omega)] at hlast
    have hb : bs[3] = b := by
      rw [List.getElem?_eq_getElem (by omega)] at h
      exact Option.some.inj h
    rw [← hb]
    exact hlast.symm
  have hbound := le_ofLe_concat (bs.take 3) b
  rw [← hsplit, List.length_take, hlen] at hbound
  exact hbound

end ByteList
