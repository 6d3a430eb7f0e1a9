import WifiMemfault.Lib.PyText

/-!
# Hexadecimal text

Python's `bytes.fromhex`, which takes pairs of digits of either case and skips ASCII white space between the
pairs, and `str.replace` of a text by nothing.

`fromHex_iff` says what is accepted: the digits of the bytes, two by two, with any white space before, between
and behind them.  `removeAll_singleton`, `removeAll_mark` and `removeAll_append` take a text with marks apart.
-/

namespace PyText

/-! ### Removing a text -/

/-- `s.replace(mark, '')` from here on, where the first `k` characters belong to a mark. -/
def removeFrom (mark : PyStr) : ℕ → PyStr → PyStr
  | _, [] => []
  | k + 1, _ :: s => removeFrom mark k s
  | 0, c :: s => if mark <+: c :: s then removeFrom mark (mark.length - 1) s else c :: removeFrom mark 0 s

/-- `s.replace(mark, '')`, for a mark that is not empty. -/
def removeAll (mark s : PyStr) : PyStr := removeFrom mark 0 s

theorem removeAll_nil (mark : PyStr) : removeAll mark [] = [] := rfl

/-- Removing a character is filtering it out. -/
theorem removeAll_singleton (m : Char) (s : PyStr) : removeAll [m] s = s.filter (· ≠ m) := by
  rw [removeAll]
  induction s with
  | nil => rfl
  | cons c s ih =>
    rw [removeFrom, List.filter_cons]
    by_cases hc : c = m
    · subst hc
      rw [if_pos (List.cons_prefix_cons.mpr ⟨rfl, List.nil_prefix⟩), if_neg (by simp)]
      exact ih
    · have hne : ¬ [m] <+: c :: s := fun h => hc (List.cons_prefix_cons.mp h).1.symm
      rw [if_neg hne, if_pos (by simpa using hc), ih]

/-- A mark of two characters at the front. -/
theorem removeAll_mark (m n : Char) (s : PyStr) : removeAll [m, n] (m :: n :: s) = removeAll [m, n] s := by
  have hmark : [m, n] <+: m :: n :: s := List.prefix_append [m, n] s
  rw [removeAll, removeFrom, if_pos hmark]
  rfl

/-- Text without the second character of a mark is kept, unless that comes right behind it. -/
theorem removeAll_append {m n : Char} {u : PyStr} (hu : n ∉ u) {v : PyStr} (hv : v.head? ≠ some n) :
    removeAll [m, n] (u ++ v) = u ++ removeAll [m, n] v := by
  induction u with
  | nil => rfl
  | cons c u ih =>
    have hrest := ih fun h => hu (List.mem_cons_of_mem c h)
    have hno : ¬ [m, n] <+: c :: (u ++ v) := by
      intro h
      have hnext := (List.cons_prefix_cons.mp h).2
      cases u with
      | nil =>
        cases v with
        | nil => exact absurd (List.prefix_nil.mp hnext) (List.cons_ne_nil n [])
        | cons d v => exact hv (congrArg some (List.cons_prefix_cons.mp hnext).1.symm)
      | cons d u =>
        have hd : n = d := (List.cons_prefix_cons.mp hnext).1
        exact hu (hd ▸ List.mem_cons_of_mem c List.mem_cons_self)
    rw [removeAll] at hrest ⊢
    rw [List.cons_append, removeFrom, if_neg hno, hrest]
    rfl

/-! ### Digits -/

/-- The value of a hexadecimal digit of either case. -/
def hexValue (c : Char) : Option ℕ :=
  let n := c.toNat
  if 48 ≤ n ∧ n ≤ 57 then some (n - 48)
  else if 97 ≤ n ∧ n ≤ 102 then some (n - 87)
  else if 65 ≤ n ∧ n ≤ 70 then some (n - 55)
  else none

/-- The digit of `bytes.hex()`. -/
def hexDigit (n : ℕ) : Char := if n < 10 then Char.ofNat (48 + n) else Char.ofNat (87 + n)

theorem hexValue_hexDigit : ∀ n < 16, hexValue (hexDigit n) = some n := by decide

/-- The white space of ASCII. -/
def isAsciiSpace (c : Char) : Bool := c.toNat = 32 ∨ (9 ≤ c.toNat ∧ c.toNat ≤ 13)

theorem hexValue_space {c : Char} (h : isAsciiSpace c = true) : hexValue c = none := by
  have hspace := of_decide_eq_true h
  simp only [hexValue]
  rw [if_neg (by omega), if_neg (by omega), if_neg (by omega)]

theorem isAsciiSpace_digit {c : Char} {d : ℕ} (h : hexValue c = some d) : isAsciiSpace c = false := by
  by_contra hspace
  rw [hexValue_space (Bool.not_eq_false _ ▸ hspace)] at h
  cases h

/-! ### Bytes -/

def byteOf (high low : ℕ) : UInt8 := UInt8.ofNat (16 * high + low)

theorem byteOf_div_mod (b : UInt8) : byteOf (b.toNat / 16) (b.toNat % 16) = b := by
  rw [byteOf, Nat.div_add_mod]
  exact UInt8.ofNat_toNat


/-- `bytes.fromhex`; none where it raises `ValueError`. -/
def fromHex : PyStr → Option (List UInt8)
  | [] => some []
  | [c] => if isAsciiSpace c then some [] else none
  | c :: d :: s =>
    if isAsciiSpace c then fromHex (d :: s)
    else
      match hexValue c, hexValue d with
      | some high, some low => (fromHex s).map (byteOf high low :: ·)
      | _, _ => none

theorem fromHex_space {c : Char} (hc : isAsciiSpace c = true) (s : PyStr) : fromHex (c :: s) = fromHex s := by
  cases s with
  | nil => simp [fromHex, hc]
  | cons d s => rw [fromHex, if_pos hc]

theorem fromHex_space_append {gap : PyStr} (hgap : ∀ c ∈ gap, isAsciiSpace c = true) (s : PyStr) :
    fromHex (gap ++ s) = fromHex s := by
  induction gap with
  | nil => rfl
  | cons c gap ih =>
    rw [List.cons_append, fromHex_space (hgap c List.mem_cons_self)]
    exact ih fun d hd => hgap d (List.mem_cons_of_mem c hd)

theorem fromHex_pair {c d : Char} {high low : ℕ} (hc : hexValue c = some high) (hd : hexValue d = some low)
    (s : PyStr) : fromHex (c :: d :: s) = (fromHex s).map (byteOf high low :: ·) := by
  rw [fromHex, if_neg (by rw [isAsciiSpace_digit hc]; exact Bool.false_ne_true), hc, hd]

/-- The digits of bytes, two by two, with white space before, between and behind them. -/
inductive HexOf : PyStr → List UInt8 → Prop
  | nil {gap : PyStr} (hgap : ∀ c ∈ gap, isAsciiSpace c = true) : HexOf gap []
  | pair {gap : PyStr} {c d : Char} {high low : ℕ} {s : PyStr} {bytes : List UInt8}
      (hgap : ∀ c ∈ gap, isAsciiSpace c = true) (hc : hexValue c = some high) (hd : hexValue d = some low)
      (h : HexOf s bytes) : HexOf (gap ++ c :: d :: s) (byteOf high low :: bytes)

/-- White space in front. -/
theorem HexOf.space {c : Char} (hc : isAsciiSpace c = true) {s : PyStr} {bytes : List UInt8}
    (h : HexOf s bytes) : HexOf (c :: s) bytes := by
  cases h with
  | nil hgap => exact .nil (List.forall_mem_cons.mpr ⟨hc, hgap⟩)
  | pair hgap hhigh hlow h => exact .pair (List.forall_mem_cons.mpr ⟨hc, hgap⟩) hhigh hlow h

/-- **What is accepted.** -/
theorem fromHex_iff {s : PyStr} {bytes : List UInt8} : fromHex s = some bytes ↔ HexOf s bytes := by
  constructor
  · intro h
    induction s using fromHex.induct generalizing bytes with
    | case1 =>
      cases h
      exact .nil (List.forall_mem_nil _)
    | case2 c hc =>
      rw [fromHex, if_pos hc] at h
      cases h
      exact .nil (List.forall_mem_singleton.mpr hc)
    | case3 c hc =>
      rw [fromHex, if_neg hc] at h
      cases h
    | case4 c d s hc ih =>
      rw [fromHex_space hc] at h
      exact (ih h).space hc
    | case5 c d s hc high low hlow hhigh ih =>
      rw [fromHex_pair hhigh hlow] at h
      obtain ⟨rest, hrest, rfl⟩ := Option.map_eq_some_iff.mp h
      exact .pair (List.forall_mem_nil _) hhigh hlow (ih hrest)
    | case6 c d s hc hnot =>
      rw [fromHex, if_neg hc] at h
      split at h
      · exact absurd ‹hexValue d = some _› (hnot _ _ ‹hexValue c = some _›)
      · cases h
  · intro h
    induction h with
    | @nil gap hgap =>
      have hend := fromHex_space_append hgap []
      rwa [List.append_nil] at hend
    | pair hgap hhigh hlow h ih =>
      rw [fromHex_space_append hgap, fromHex_pair hhigh hlow, ih]
      rfl

end PyText
