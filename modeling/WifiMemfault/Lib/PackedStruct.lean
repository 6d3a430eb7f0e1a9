import WifiMemfault.Lib.ByteList
import Mathlib.Algebra.Order.Ring.Int
import Mathlib.Tactic.Zify

/-!
# Packed records of numbers

The format characters of Python's `struct` module in their standard sizes, without padding between the
fields.  `unpack` takes a byte string of exactly the size of its format apart; `pack` puts numbers in the
range of their characters together, and is undone by `unpack`.

Floating-point fields are only taken apart: their value is the width and the bits.
-/

namespace PackedStruct

open ByteList

inductive ByteOrder where
  | little | big
  deriving DecidableEq, Repr

/-- A character of a format. -/
inductive FormatChar where
  | b | B | h | H | i | I | l | L | q | Q | f | d
  deriving DecidableEq, Repr

/-- What a field of a record is unpacked to. -/
inductive PyValue where
  | int (n : ℤ)
  | float (width bits : ℕ)
  deriving DecidableEq, Repr

namespace FormatChar

def size : FormatChar → ℕ
  | .b | .B => 1
  | .h | .H => 2
  | .i | .I | .l | .L | .f => 4
  | .q | .Q | .d => 8

def isSigned : FormatChar → Bool
  | .b | .h | .i | .l | .q => true
  | _ => false

def isFloat : FormatChar → Bool
  | .f | .d => true
  | _ => false

end FormatChar

/-- The bytes in little-endian order. -/
def ByteOrder.toLittle (order : ByteOrder) (bytes : List UInt8) : List UInt8 :=
  match order with
  | .little => bytes
  | .big => bytes.reverse

@[simp] theorem ByteOrder.toLittle_length (order : ByteOrder) (bytes : List UInt8) :
    (order.toLittle bytes).length = bytes.length := by
  cases order with
  | little => rfl
  | big => exact List.length_reverse

theorem ByteOrder.toLittle_toLittle (order : ByteOrder) (bytes : List UInt8) :
    order.toLittle (order.toLittle bytes) = bytes := by
  cases order with
  | little => rfl
  | big => exact List.reverse_reverse bytes

/-- The two's complement number of `w` bytes with the bits of `n`. -/
def signedOf (w n : ℕ) : ℤ := if 2 * n < 256 ^ w then n else n - 256 ^ w

/-- The value of one field. -/
def FormatChar.decode (order : ByteOrder) (c : FormatChar) (bytes : List UInt8) : PyValue :=
  if c.isFloat then .float c.size (ofLe (order.toLittle bytes))
  else if c.isSigned then .int (signedOf c.size (ofLe (order.toLittle bytes)))
  else .int (ofLe (order.toLittle bytes))

/-- `struct.calcsize`. -/
def calcsize (format : List FormatChar) : ℕ := (format.map FormatChar.size).sum

/-- The fields of a record, one after the other. -/
def unpackFields (order : ByteOrder) : List FormatChar → List UInt8 → List PyValue
  | [], _ => []
  | c :: format, bytes =>
    c.decode order (bytes.take c.size) :: unpackFields order format (bytes.drop c.size)

/-- `struct.unpack`; it fails unless the bytes have the size of the format. -/
def unpack (order : ByteOrder) (format : List FormatChar) (bytes : List UInt8) : Option (List PyValue) :=
  if bytes.length = calcsize format then some (unpackFields order format bytes) else none

@[simp] theorem unpackFields_length (order : ByteOrder) (format : List FormatChar) (bytes : List UInt8) :
    (unpackFields order format bytes).length = format.length := by
  induction format generalizing bytes with
  | nil => rfl
  | cons c format ih => simp [unpackFields, ih]

/-! ### Packing -/

/-- The numbers a character can stand for. -/
def FormatChar.InRange (c : FormatChar) (n : ℤ) : Prop :=
  c.isFloat = false ∧
    if c.isSigned then -(256 : ℤ) ^ c.size ≤ 2 * n ∧ 2 * n < (256 : ℤ) ^ c.size
    else 0 ≤ n ∧ n < (256 : ℤ) ^ c.size

instance (c : FormatChar) (n : ℤ) : Decidable (c.InRange n) :=
  inferInstanceAs (Decidable (_ ∧ ite _ _ _))

def FormatChar.encode (order : ByteOrder) (c : FormatChar) (n : ℤ) : List UInt8 :=
  order.toLittle (leBytes c.size (n % 256 ^ c.size).toNat)

@[simp] theorem encode_length (order : ByteOrder) (c : FormatChar) (n : ℤ) :
    (c.encode order n).length = c.size := by
  rw [FormatChar.encode, ByteOrder.toLittle_length, leBytes_length]

theorem signedOf_emod {w : ℕ} {n : ℤ} (hlow : -(256 : ℤ) ^ w ≤ 2 * n) (hhigh : 2 * n < (256 : ℤ) ^ w) :
    signedOf w (n % 256 ^ w).toNat = n := by
  have hpos : (0 : ℤ) < 256 ^ w := pow_pos (by decide) _
  have hcast : ((n % 256 ^ w).toNat : ℤ) = n % 256 ^ w := Int.toNat_of_nonneg (Int.emod_nonneg n hpos.ne')
  by_cases hsign : 0 ≤ n
  · have hmod : n % 256 ^ w = n := Int.emod_eq_of_lt hsign (by omega)
    have hsmall : 2 * (n % 256 ^ w).toNat < 256 ^ w := by
      zify
      rw [hcast, hmod]
      exact hhigh
    rw [signedOf, if_pos hsmall, hcast, hmod]
  · have hmod : n % 256 ^ w = n + 256 ^ w := by
      rw [← Int.add_emod_right]
      exact Int.emod_eq_of_lt (by omega) (by omega)
    have hlarge : ¬ 2 * (n % 256 ^ w).toNat < 256 ^ w := by
      zify
      rw [hcast, hmod]
      omega
    rw [signedOf, if_neg hlarge, hcast, hmod]
    omega

/-- **One field.**  Decoding undoes encoding on the range of the character. -/
theorem decode_encode (order : ByteOrder) {c : FormatChar} {n : ℤ} (h : c.InRange n) :
    c.decode order (c.encode order n) = .int n := by
  obtain ⟨hfloat, hrange⟩ := h
  have hpos : (0 : ℤ) < 256 ^ c.size := pow_pos (by decide) _
  have hlt : (n % 256 ^ c.size).toNat < 256 ^ c.size := by
    zify
    rw [Int.toNat_of_nonneg (Int.emod_nonneg n hpos.ne')]
    exact Int.emod_lt_of_pos n hpos
  have hbytes : ofLe (order.toLittle (c.encode order n)) = (n % 256 ^ c.size).toNat := by
    rw [FormatChar.encode, ByteOrder.toLittle_toLittle, ofLe_leBytes, Nat.mod_eq_of_lt hlt]
  rw [FormatChar.decode, hfloat, hbytes]
  cases hsigned : c.isSigned with
  | true =>
    rw [hsigned, if_pos rfl] at hrange
    simp only [if_true, Bool.false_eq_true, if_false, signedOf_emod hrange.1 hrange.2]
  | false =>
    rw [hsigned, if_neg Bool.false_ne_true] at hrange
    simp only [Bool.false_eq_true, if_false, Int.emod_eq_of_lt hrange.1 hrange.2,
      Int.toNat_of_nonneg hrange.1]

/-- The record of these numbers. -/
def pack (order : ByteOrder) (fields : List (FormatChar × ℤ)) : List UInt8 :=
  fields.flatMap fun p => p.1.encode order p.2

theorem pack_length (order : ByteOrder) (fields : List (FormatChar × ℤ)) :
    (pack order fields).length = calcsize (fields.map Prod.fst) := by
  induction fields with
  | nil => rfl
  | cons p fields ih =>
    rw [pack] at ih
    simp [pack, calcsize, ih]

/-- **The record.**  Unpacking undoes packing. -/
theorem unpack_pack (order : ByteOrder) (fields : List (FormatChar × ℤ))
    (h : ∀ p ∈ fields, p.1.InRange p.2) :
    unpack order (fields.map Prod.fst) (pack order fields) = some (fields.map fun p => .int p.2) := by
  rw [unpack, if_pos (pack_length order fields)]
  congr 1
  induction fields with
  | nil => rfl
  | cons p fields ih =>
    have hlen := encode_length order p.1 p.2
    have hpack : pack order (p :: fields) = p.1.encode order p.2 ++ pack order fields := rfl
    rw [hpack, List.map_cons, unpackFields, List.take_left' hlen, List.drop_left' hlen,
      decode_encode order (h p List.mem_cons_self), ih fun q hq => h q (List.mem_cons_of_mem p hq)]
    rfl

end PackedStruct
