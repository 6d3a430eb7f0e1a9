import WifiMemfault.Lib.PackedStruct
import WifiMemfault.StructFields

/-!
# Decoding the firmware statistics

`StructParser.parse_rpu_sys_fw_stats` of `script/nrf70_fw_stats_parser.py`, with `get_type_format`.  Six
sections are decoded one after the other, each only if the header defines its struct and it fits in what is
left of the blob; the offset moves on by what has been decoded.  The result is the offset at the end and the
printed lines; the debug output is left out.

`parse_eq` says what that comes to: `runSections` on the sections whose structs are defined, and no call of
`struct.unpack` fails.
-/

namespace WifiMemfault.StatsParser

open PackedStruct PyText StructFields

/-- The structs with fields that are decoded. -/
inductive StructName where
  | rpuPhyStats | rpuLmacStats | umacTxDbgParams | umacRxDbgParams | umacCmdEvntDbgParams
  | nrfWifiInterfaceStats
  deriving DecidableEq, Repr

/-- The parser after it has read its header: the fields of the structs it has found. -/
structure StructParser where
  structs : StructName → Option (List Field)

def typeMapping : List (PyStr × FormatChar) :=
  [("signed char".toList, .b), ("unsigned char".toList, .B), ("char".toList, .b), ("short".toList, .h),
    ("unsigned short".toList, .H), ("int".toList, .i), ("unsigned int".toList, .I), ("long".toList, .l),
    ("unsigned long".toList, .L), ("long long".toList, .q), ("unsigned long long".toList, .Q),
    ("float".toList, .f), ("double".toList, .d)]

/-- `get_type_format`; none for a struct, and an unknown type counts as an unsigned int. -/
def getTypeFormat (fieldType : PyStr) : Option FormatChar :=
  if "struct".toList <:+: fieldType then none else some ((typeMapping.lookup fieldType).getD .I)

/-- A line of output. -/
inductive PrintedLine where
  | text (s : String)
  | field (name : PyStr) (value : PyValue)
  deriving DecidableEq, Repr

structure ParserState where
  offset : ℕ
  printed : List PrintedLine
  deriving DecidableEq, Repr

/-- What is printed for a section. -/
def sectionLines (title : String) (fields : List Field) (data : List PyValue) : List PrintedLine :=
  .text title :: .text "======================" ::
    (List.zipWith (fun field value => .field field.fieldName value) fields data ++ [.text ""])

/-- The format of a struct by the types of its fields. -/
def typedFormat (fields : List Field) : List FormatChar :=
  fields.map fun field => (getTypeFormat field.fieldType).getD .I

/-- The format of a struct of unsigned ints. -/
def uintFormat (fields : List Field) : List FormatChar := List.replicate fields.length .I

/-- One section: nothing without the struct or if it does not fit, and none where `struct.unpack` fails. -/
def parseSection (order : ByteOrder) (blob : List UInt8) (fields : Option (List Field)) (title : String)
    (format : List Field → List FormatChar) (s : ParserState) : Option ParserState :=
  match fields with
  | none => some s
  | some fields =>
    let size := calcsize (format fields)
    if s.offset + size ≤ blob.length then
      match unpack order (format fields) ((blob.drop s.offset).take size) with
      | some data => some ⟨s.offset + size, s.printed ++ sectionLines title fields data⟩
      | none => none
    else some s

def parseRpuSysFwStats (parser : StructParser) (blob : List UInt8) (order : ByteOrder) :
    Option ParserState := do
  let s ← parseSection order blob (parser.structs .rpuPhyStats) "PHY stats" typedFormat ⟨0, []⟩
  let s ← parseSection order blob (parser.structs .rpuLmacStats) "LMAC stats" typedFormat s
  let s ← parseSection order blob (parser.structs .umacTxDbgParams) "UMAC TX debug stats" uintFormat s
  let s ← parseSection order blob (parser.structs .umacRxDbgParams) "UMAC RX debug stats" uintFormat s
  let s ← parseSection order blob (parser.structs .umacCmdEvntDbgParams) "UMAC control path stats"
    uintFormat s
  parseSection order blob (parser.structs .nrfWifiInterfaceStats) "UMAC interface stats" uintFormat s

/-! ### The sections that are defined -/

/-- A section whose struct is defined; each field has its format character. -/
structure Section where
  title : String
  fields : List Field
  format : List FormatChar
  format_length : format.length = fields.length

/-- The bytes of the section. -/
def Section.size (sec : Section) : ℕ := calcsize sec.format

/-- What is printed for the section if it is decoded at `offset`. -/
def Section.printedAt (sec : Section) (order : ByteOrder) (blob : List UInt8) (offset : ℕ) :
    List PrintedLine :=
  sectionLines sec.title sec.fields
    (unpackFields order sec.format ((blob.drop offset).take sec.size))

def typedSection (title : String) (fields : List Field) : Section :=
  ⟨title, fields, typedFormat fields, List.length_map _⟩

def uintSection (title : String) (fields : List Field) : Section :=
  ⟨title, fields, uintFormat fields, List.length_replicate⟩

/-- The sections in the order of the packed layout. -/
def StructParser.sections (parser : StructParser) : List Section :=
  ((parser.structs .rpuPhyStats).map (typedSection "PHY stats")).toList ++
    (((parser.structs .rpuLmacStats).map (typedSection "LMAC stats")).toList ++
    (((parser.structs .umacTxDbgParams).map (uintSection "UMAC TX debug stats")).toList ++
    (((parser.structs .umacRxDbgParams).map (uintSection "UMAC RX debug stats")).toList ++
    (((parser.structs .umacCmdEvntDbgParams).map (uintSection "UMAC control path stats")).toList ++
    ((parser.structs .nrfWifiInterfaceStats).map (uintSection "UMAC interface stats")).toList))))

/-- The sections one after the other from `offset` on; one that does not fit is left out, and the offset
stays. -/
def runSections (order : ByteOrder) (blob : List UInt8) : ℕ → List Section → ParserState
  | offset, [] => ⟨offset, []⟩
  | offset, sec :: rest =>
    if offset + sec.size ≤ blob.length then
      let s := runSections order blob (offset + sec.size) rest
      ⟨s.offset, sec.printedAt order blob offset ++ s.printed⟩
    else runSections order blob offset rest

section Run

variable (order : ByteOrder) (blob : List UInt8)

theorem runSections_append (offset : ℕ) (secs more : List Section) :
    runSections order blob offset (secs ++ more) =
      ⟨(runSections order blob (runSections order blob offset secs).offset more).offset,
        (runSections order blob offset secs).printed ++
          (runSections order blob (runSections order blob offset secs).offset more).printed⟩ := by
  induction secs generalizing offset with
  | nil => rfl
  | cons sec secs ih =>
    rw [List.cons_append, runSections, runSections]
    split
    · simp only [ih, List.append_assoc]
    · exact ih offset

/-- **One section.**  It prints what a run of it alone prints. -/
theorem parseSection_eq (fields : Option (List Field)) (title : String)
    (format : List Field → List FormatChar) (hlen : ∀ fields, (format fields).length = fields.length)
    (s : ParserState) :
    let r := runSections order blob s.offset
      (fields.map fun fields => (⟨title, fields, format fields, hlen fields⟩ : Section)).toList
    parseSection order blob fields title format s = some ⟨r.offset, s.printed ++ r.printed⟩ := by
  intro r
  cases fields with
  | none => simp [parseSection, r, runSections]
  | some fields =>
    have hr : r = runSections order blob s.offset [⟨title, fields, format fields, hlen fields⟩] := rfl
    rw [hr, runSections, parseSection]
    by_cases hfit : s.offset + calcsize (format fields) ≤ blob.length
    · have hslice : ((blob.drop s.offset).take (calcsize (format fields))).length
          = calcsize (format fields) := by
        rw [List.length_take, List.length_drop]
        omega
      have hunpack : unpack order (format fields) ((blob.drop s.offset).take (calcsize (format fields)))
          = some _ := if_pos hslice
      simp only [Section.size, Section.printedAt, if_pos hfit, hunpack, runSections, List.append_nil]
    · simp only [Section.size, if_neg hfit, runSections, List.append_nil]

/-- **The whole decoding.** -/
theorem parse_eq (parser : StructParser) :
    parseRpuSysFwStats parser blob order = some (runSections order blob 0 parser.sections) := by
  have htyped := fun fields title => parseSection_eq order blob fields title typedFormat
    fun fields => List.length_map _
  have huint := fun fields title => parseSection_eq order blob fields title uintFormat
    fun fields => List.length_replicate
  simp only [parseRpuSysFwStats, htyped, huint, Option.bind_eq_bind, Option.bind_some, StructParser.sections,
    runSections_append, List.nil_append, List.append_assoc]
  rfl

end Run

end WifiMemfault.StatsParser
