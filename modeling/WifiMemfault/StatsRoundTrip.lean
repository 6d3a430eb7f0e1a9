import WifiMemfault.StatsParser

/-!
# Complete blobs are decoded exactly

The statistics of a header with the six structs: integers of the types `get_type_format` knows in the PHY
and LMAC structs, unsigned ints in the others.  The blob is the packed little-endian record of their values,
each in the size of its C type.  Decoding it prints every value under its name, in order, and ends at the
end of the blob (`parse_blob`).
-/

namespace WifiMemfault.StatsRoundTrip

open ByteList PackedStruct PyText StructFields StatsParser

/-! ### Values of the C types -/

/-- The integer types. -/
inductive IntType where
  | signedChar | unsignedChar | char | short | unsignedShort | int | unsignedInt | long | unsignedLong
  | longLong | unsignedLongLong
  deriving DecidableEq, Repr

namespace IntType

def text : IntType → PyStr
  | .signedChar => "signed char".toList
  | .unsignedChar => "unsigned char".toList
  | .char => "char".toList
  | .short => "short".toList
  | .unsignedShort => "unsigned short".toList
  | .int => "int".toList
  | .unsignedInt => "unsigned int".toList
  | .long => "long".toList
  | .unsignedLong => "unsigned long".toList
  | .longLong => "long long".toList
  | .unsignedLongLong => "unsigned long long".toList

def size : IntType → ℕ
  | .signedChar | .unsignedChar | .char => 1
  | .short | .unsignedShort => 2
  | .int | .unsignedInt | .long | .unsignedLong => 4
  | .longLong | .unsignedLongLong => 8

def isSigned : IntType → Bool
  | .signedChar | .char | .short | .int | .long | .longLong => true
  | _ => false

def InRange (t : IntType) (n : ℤ) : Prop :=
  if t.isSigned then -(256 : ℤ) ^ t.size ≤ 2 * n ∧ 2 * n < (256 : ℤ) ^ t.size
  else 0 ≤ n ∧ n < (256 : ℤ) ^ t.size

/-- The value in memory, little-endian. -/
def encode (t : IntType) (n : ℤ) : List UInt8 := leBytes t.size (n % 256 ^ t.size).toNat

def formatChar : IntType → FormatChar
  | .signedChar | .char => .b
  | .unsignedChar => .B
  | .short => .h
  | .unsignedShort => .H
  | .int => .i
  | .unsignedInt => .I
  | .long => .l
  | .unsignedLong => .L
  | .longLong => .q
  | .unsignedLongLong => .Q

/-- The type gets its format character, which has its size and sign. -/
theorem getTypeFormat_text (t : IntType) : getTypeFormat t.text = some t.formatChar := by
  cases t <;> decide +kernel

theorem formatChar_size (t : IntType) : t.formatChar.size = t.size := by
  cases t <;> rfl

theorem formatChar_inRange {t : IntType} {n : ℤ} (h : t.InRange n) : t.formatChar.InRange n := by
  have hsigned : t.formatChar.isSigned = t.isSigned := by cases t <;> rfl
  have hfloat : t.formatChar.isFloat = false := by cases t <;> rfl
  refine ⟨hfloat, ?_⟩
  rw [hsigned, t.formatChar_size]
  exact h

theorem formatChar_encode (t : IntType) (n : ℤ) : t.formatChar.encode .little n = t.encode n := by
  rw [FormatChar.encode, t.formatChar_size]
  rfl

end IntType

/-- A field with a value of its type. -/
structure TypedValue where
  type : IntType
  name : PyStr
  value : ℤ
  in_range : type.InRange value

def TypedValue.field (v : TypedValue) : Field := ⟨v.type.text, v.name⟩

/-- An unsigned int. -/
structure UintValue where
  name : PyStr
  value : UInt32

def UintValue.typed (v : UintValue) : TypedValue where
  type := .unsignedInt
  name := v.name
  value := v.value.toNat
  in_range := ⟨Int.natCast_nonneg _, by
    have hlt := v.value.toNat_lt
    show (v.value.toNat : ℤ) < 256 ^ 4
    omega⟩

/-- The record of the values. -/
def packed (vs : List TypedValue) : List UInt8 := vs.flatMap fun v => v.type.encode v.value

/-! ### One section -/

/-- A section and the values of its fields. -/
structure FilledSection where
  title : String
  values : List TypedValue

namespace FilledSection

def toSection (s : FilledSection) : Section where
  title := s.title
  fields := s.values.map TypedValue.field
  format := s.values.map fun v => v.type.formatChar
  format_length := by rw [List.length_map, List.length_map]

/-- Every value under the name of its field. -/
def output (s : FilledSection) : List PrintedLine :=
  .text s.title :: .text "======================" ::
    (s.values.map (fun v => .field v.name (.int v.value)) ++ [.text ""])

/-- The values with their characters. -/
def numbers (s : FilledSection) : List (FormatChar × ℤ) := s.values.map fun v => (v.type.formatChar, v.value)

theorem format_eq (s : FilledSection) : s.toSection.format = s.numbers.map Prod.fst := by
  rw [numbers, List.map_map]
  rfl

theorem packed_eq (s : FilledSection) : packed s.values = pack .little s.numbers := by
  rw [numbers, pack, List.flatMap_map, packed]
  exact List.flatMap_congr fun v _ => (v.type.formatChar_encode v.value).symm

theorem size_eq (s : FilledSection) : s.toSection.size = (packed s.values).length := by
  rw [packed_eq, pack_length, ← format_eq]
  rfl

/-- **One section.**  Decoded where its record stands, it prints the values. -/
theorem printedAt_eq (s : FilledSection) (pre post : List UInt8) :
    s.toSection.printedAt .little (pre ++ (packed s.values ++ post)) pre.length = s.output := by
  have hslice : ((pre ++ (packed s.values ++ post)).drop pre.length).take s.toSection.size
      = packed s.values := by
    rw [List.drop_left, s.size_eq, List.take_left]
  have hunpack : unpackFields .little s.toSection.format (packed s.values)
      = s.numbers.map fun p => .int p.2 := by
    have h := unpack_pack .little s.numbers fun p hp => by
      obtain ⟨v, -, rfl⟩ := List.mem_map.1 hp
      exact IntType.formatChar_inRange v.in_range
    rw [unpack, if_pos (pack_length .little s.numbers), Option.some_inj] at h
    rw [s.format_eq, s.packed_eq, h]
  rw [Section.printedAt, hslice, hunpack, sectionLines, numbers, List.map_map, output]
  congr 4
  exact List.zipWith_map_left.trans (List.zipWith_map_right.trans (List.zipWith_self ..))

/-- **The sections.**  By induction on them, with the records before them generalized. -/
theorem runSections_eq (secs : List FilledSection) (pre : List UInt8) :
    runSections .little (pre ++ secs.flatMap fun s => packed s.values) pre.length
        (secs.map FilledSection.toSection) =
      ⟨(pre ++ secs.flatMap fun s => packed s.values).length, secs.flatMap FilledSection.output⟩ := by
  induction secs generalizing pre with
  | nil => simp [runSections]
  | cons s secs ih =>
    have hfit : pre.length + s.toSection.size
        ≤ (pre ++ (packed s.values ++ secs.flatMap fun s => packed s.values)).length := by
      rw [s.size_eq, List.length_append, List.length_append]
      omega
    have hrest := ih (pre ++ packed s.values)
    rw [List.append_assoc, List.length_append, ← s.size_eq] at hrest
    rw [List.flatMap_cons, List.map_cons, runSections, if_pos hfit, s.printedAt_eq, hrest]
    rfl

end FilledSection

/-! ### The whole record -/

/-- The six structs and the values of their fields. -/
structure FwStats where
  phy : List TypedValue
  lmac : List TypedValue
  umacTx : List UintValue
  umacRx : List UintValue
  umacCmdEvnt : List UintValue
  interface : List UintValue

namespace FwStats

def filled (stats : FwStats) : List FilledSection :=
  [⟨"PHY stats", stats.phy⟩, ⟨"LMAC stats", stats.lmac⟩,
    ⟨"UMAC TX debug stats", stats.umacTx.map UintValue.typed⟩,
    ⟨"UMAC RX debug stats", stats.umacRx.map UintValue.typed⟩,
    ⟨"UMAC control path stats", stats.umacCmdEvnt.map UintValue.typed⟩,
    ⟨"UMAC interface stats", stats.interface.map UintValue.typed⟩]

/-- The parser of a header with these structs. -/
def parser (stats : FwStats) : StructParser where
  structs
    | .rpuPhyStats => some (stats.phy.map TypedValue.field)
    | .rpuLmacStats => some (stats.lmac.map TypedValue.field)
    | .umacTxDbgParams => some (stats.umacTx.map fun v => v.typed.field)
    | .umacRxDbgParams => some (stats.umacRx.map fun v => v.typed.field)
    | .umacCmdEvntDbgParams => some (stats.umacCmdEvnt.map fun v => v.typed.field)
    | .nrfWifiInterfaceStats => some (stats.interface.map fun v => v.typed.field)

/-- The complete blob. -/
def blob (stats : FwStats) : List UInt8 := stats.filled.flatMap fun s => packed s.values

/-- Every field once, in order, with its value. -/
def output (stats : FwStats) : List PrintedLine := stats.filled.flatMap FilledSection.output

/-- The two ways of building a format give that of the values. -/
theorem typedSection_eq (title : String) (vs : List TypedValue) :
    typedSection title (vs.map TypedValue.field) = (FilledSection.mk title vs).toSection := by
  have hchar (v : TypedValue) : (getTypeFormat v.field.fieldType).getD .I = v.type.formatChar := by
    rw [TypedValue.field, v.type.getTypeFormat_text, Option.getD_some]
  have hformat : typedFormat (vs.map TypedValue.field) = vs.map fun v => v.type.formatChar := by
    rw [typedFormat, List.map_map]
    exact List.map_congr_left fun v _ => hchar v
  simp only [typedSection, FilledSection.toSection, hformat]

theorem uintSection_eq (title : String) (vs : List UintValue) :
    uintSection title (vs.map fun v => v.typed.field)
      = (FilledSection.mk title (vs.map UintValue.typed)).toSection := by
  have hformat : uintFormat (vs.map fun v => v.typed.field)
      = (vs.map UintValue.typed).map fun v => v.type.formatChar := by
    rw [uintFormat, List.length_map, List.map_map]
    exact (List.map_const' ..).symm
  simp only [uintSection, FilledSection.toSection, hformat, List.map_map]
  rfl

theorem parser_sections (stats : FwStats) :
    stats.parser.sections = stats.filled.map FilledSection.toSection := by
  simp only [StructParser.sections, parser, Option.map_some, Option.toList_some, typedSection_eq,
    uintSection_eq]
  rfl

/-- **Decode undoes encode.** -/
theorem parse_blob (stats : FwStats) :
    parseRpuSysFwStats stats.parser stats.blob .little = some ⟨stats.blob.length, stats.output⟩ := by
  rw [parse_eq, parser_sections]
  exact congrArg some (FilledSection.runSections_eq stats.filled [])

end FwStats

end WifiMemfault.StatsRoundTrip
