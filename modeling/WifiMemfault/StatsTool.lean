import WifiMemfault.Lib.HexText
import WifiMemfault.StatsHeader
import WifiMemfault.StatsRoundTrip
import WifiMemfault.StructComments

/-!
# The statistics script as a whole

`main` of `script/nrf70_fw_stats_parser.py`: the header file must exist, the second argument is a binary file
or a hexadecimal text, and the blob is decoded with the structs of the header.  `argparse` and the debug
output are left out; the files are a parameter.

A *spelling* of bytes has two digits for each, of either case, with `0x` before them or not, and white space
anywhere around them.  If the header defines the six structs and the blob is the record of their values, in a
file or spelled, the script prints every value under its name (`main_prints_stats`).
-/

namespace WifiMemfault.StatsTool

open PyText StructFields StructComments StatsParser StatsHeader StatsRoundTrip

/-! ### The script -/

/-- What the second argument names. -/
inductive BlobFile where
  | notAFile
  | unreadable (error : String)
  | file (bytes : List UInt8)
  deriving DecidableEq, Repr

/-- The text of a header file, none if there is no such file, and the binary files. -/
structure Files where
  header : PyStr → Option PyStr
  blob : PyStr → BlobFile

/-- The exit status, and what has been printed. -/
structure ScriptEnd where
  exitCode : ℕ
  printed : List PrintedLine
  deriving DecidableEq, Repr

/-- `arg.replace(' ', '').replace('0x', '').replace('\n', '')` -/
def cleanHex (arg : PyStr) : PyStr := removeAll ['\n'] (removeAll ['0', 'x'] (removeAll [' '] arg))

/-- `sys.exit(1)` after an error message. -/
def failure (message : String) : ScriptEnd := ⟨1, [.text message]⟩

/-- The bytes of the second argument, or the end of the script. -/
def blobData (fs : Files) (hexBlob : PyStr) : Except ScriptEnd (List UInt8) :=
  match fs.blob hexBlob with
  | .file bytes => .ok bytes
  | .unreadable error => .error (failure ("Error reading file '" ++ String.ofList hexBlob ++ "': " ++ error))
  | .notAFile =>
    match fromHex (cleanHex hexBlob) with
    | some bytes => .ok bytes
    | none => .error (failure ("Error: Argument '" ++ String.ofList hexBlob
        ++ "' is neither a valid file path nor a valid hex string."))

/-- `main`; none if decoding raises an exception. -/
def main (fs : Files) (headerFile hexBlob : PyStr) : Option ScriptEnd :=
  match fs.header headerFile with
  | none => some (failure ("Error: Header file '" ++ String.ofList headerFile ++ "' not found"))
  | some content =>
    match blobData fs hexBlob with
    | .error outcome => some outcome
    | .ok bytes => (parseRpuSysFwStats (parseHeader content) bytes .little).map fun s => ⟨0, s.printed⟩

/-! ### Spellings -/

/-- Two digits of a byte, what stands before them, and whether they are marked with `0x`. -/
structure SpelledByte where
  gap : PyStr
  marked : Bool
  high : Char
  low : Char
  value : UInt8
  gap_space : ∀ c ∈ gap, isAsciiSpace c = true
  value_eq : ∃ h l, hexValue high = some h ∧ hexValue low = some l ∧ value = byteOf h l

/-- The digits with the mark. -/
def SpelledByte.digits (b : SpelledByte) : PyStr := (if b.marked then ['0', 'x'] else []) ++ [b.high, b.low]

structure Spelling where
  bytes : List SpelledByte
  trail : PyStr
  trail_space : ∀ c ∈ trail, isAsciiSpace c = true

namespace Spelling

def text (s : Spelling) : PyStr := s.bytes.flatMap (fun b => b.gap ++ b.digits) ++ s.trail

def values (s : Spelling) : List UInt8 := s.bytes.map SpelledByte.value

/-- The text of `bytes.hex()`. -/
def ofBytes (bytes : List UInt8) : Spelling where
  bytes := bytes.map fun b =>
    { gap := [], marked := false, high := hexDigit (b.toNat / 16), low := hexDigit (b.toNat % 16), value := b,
      gap_space := List.forall_mem_nil _,
      value_eq := ⟨b.toNat / 16, b.toNat % 16,
        hexValue_hexDigit _ (Nat.div_lt_of_lt_mul (UInt8.toNat_lt b)),
        hexValue_hexDigit _ (Nat.mod_lt _ (by decide)), (byteOf_div_mod b).symm⟩ }
  trail := []
  trail_space := List.forall_mem_nil _

theorem ofBytes_values (bytes : List UInt8) : (ofBytes bytes).values = bytes := by
  rw [values, ofBytes, List.map_map]
  exact List.map_id bytes

end Spelling

/-- A digit is no white space and no `x`. -/
theorem digit_ne {c : Char} {d : ℕ} (h : hexValue c = some d) : c ≠ ' ' ∧ c ≠ 'x' ∧ c ≠ '\n' := by
  refine ⟨?_, ?_, ?_⟩
  · rintro rfl
    cases h
  · rintro rfl
    cases h
  · rintro rfl
    cases h

theorem x_not_space {gap : PyStr} (h : ∀ c ∈ gap, isAsciiSpace c = true) : 'x' ∉ gap :=
  fun hx => absurd (h 'x' hx) (by decide)

theorem filter_space {gap : PyStr} (h : ∀ c ∈ gap, isAsciiSpace c = true) (p : Char → Bool) :
    ∀ c ∈ gap.filter p, isAsciiSpace c = true := fun c hc => h c (List.mem_of_mem_filter hc)

/-- The text after the first replacement, and after all three. -/
def unspaced (bytes : List SpelledByte) (trail : PyStr) : PyStr :=
  bytes.flatMap (fun b => b.gap.filter (· ≠ ' ') ++ b.digits) ++ trail

def unmarked (bytes : List SpelledByte) (trail : PyStr) : PyStr :=
  bytes.flatMap (fun b => b.gap.filter (· ≠ ' ') ++ [b.high, b.low]) ++ trail

theorem removeAll_blank (s : Spelling) :
    removeAll [' '] s.text = unspaced s.bytes (s.trail.filter (· ≠ ' ')) := by
  have hdigits : ∀ b : SpelledByte, b.digits.filter (· ≠ ' ') = b.digits := by
    intro b
    obtain ⟨h, l, hhigh, hlow, -⟩ := b.value_eq
    rw [SpelledByte.digits]
    cases b.marked <;> simp [(digit_ne hhigh).1, (digit_ne hlow).1]
  rw [removeAll_singleton, Spelling.text, unspaced, List.filter_append, List.filter_flatMap]
  congr 1
  refine List.flatMap_congr fun b _ => ?_
  rw [List.filter_append, hdigits]

/-- No `x` comes first. -/
theorem unspaced_head (bytes : List SpelledByte) {trail : PyStr} (htrail : 'x' ∉ trail) :
    (unspaced bytes trail).head? ≠ some 'x' := by
  cases bytes with
  | nil => exact fun h => htrail (List.mem_of_mem_head? h)
  | cons b bytes =>
    obtain ⟨h, l, hhigh, -⟩ := b.value_eq
    have hgap := x_not_space (filter_space b.gap_space (· ≠ ' '))
    rw [unspaced, List.flatMap_cons, SpelledByte.digits]
    cases hb : b.gap.filter (· ≠ ' ') with
    | nil => cases b.marked <;> simp [(digit_ne hhigh).2.1]
    | cons c gap =>
      rw [hb] at hgap
      simpa using fun hc : c = 'x' => hgap (hc ▸ List.mem_cons_self)

/-- **The marks.**  By induction on the bytes. -/
theorem removeAll_mark_unspaced (bytes : List SpelledByte) {trail : PyStr} (htrail : 'x' ∉ trail) :
    removeAll ['0', 'x'] (unspaced bytes trail) = unmarked bytes trail := by
  induction bytes with
  | nil =>
    have hnone := removeAll_append (m := '0') htrail (v := []) (by simp)
    rwa [List.append_nil, removeAll_nil, List.append_nil] at hnone
  | cons b bytes ih =>
    obtain ⟨h, l, hhigh, hlow, -⟩ := b.value_eq
    have hgap := x_not_space (filter_space b.gap_space (· ≠ ' '))
    have hpair : 'x' ∉ [b.high, b.low] := by
      simp [(digit_ne hhigh).2.1.symm, (digit_ne hlow).2.1.symm]
    have hdigits : removeAll ['0', 'x'] (b.digits ++ unspaced bytes trail)
        = [b.high, b.low] ++ unmarked bytes trail := by
      rw [← ih, ← removeAll_append hpair (unspaced_head bytes htrail), SpelledByte.digits]
      cases b.marked with
      | false => rfl
      | true => exact removeAll_mark '0' 'x' _
    have hhead : (b.digits ++ unspaced bytes trail).head? ≠ some 'x' := by
      rw [SpelledByte.digits]
      cases b.marked <;> simp [(digit_ne hhigh).2.1]
    have hsplit : unspaced (b :: bytes) trail
        = b.gap.filter (· ≠ ' ') ++ (b.digits ++ unspaced bytes trail) := by
      simp [unspaced]
    rw [hsplit, removeAll_append hgap hhead, hdigits]
    simp [unmarked]

theorem hexOf_unmarked (bytes : List SpelledByte) {trail : PyStr}
    (htrail : ∀ c ∈ trail, isAsciiSpace c = true) :
    HexOf (removeAll ['\n'] (unmarked bytes trail)) (bytes.map SpelledByte.value) := by
  rw [removeAll_singleton]
  induction bytes with
  | nil => exact .nil (filter_space htrail _)
  | cons b bytes ih =>
    obtain ⟨h, l, hhigh, hlow, hvalue⟩ := b.value_eq
    have hsplit : (unmarked (b :: bytes) trail).filter (· ≠ '\n')
        = (b.gap.filter (· ≠ ' ')).filter (· ≠ '\n')
          ++ b.high :: b.low :: (unmarked bytes trail).filter (· ≠ '\n') := by
      simp [unmarked, (digit_ne hhigh).2.2, (digit_ne hlow).2.2]
    rw [hsplit, List.map_cons, hvalue]
    exact .pair (filter_space (filter_space b.gap_space _) _) hhigh hlow ih

/-- **A spelling is accepted.** -/
theorem fromHex_cleanHex (s : Spelling) : fromHex (cleanHex s.text) = some s.values := by
  have htrail := filter_space s.trail_space (· ≠ ' ')
  rw [fromHex_iff, cleanHex, removeAll_blank, removeAll_mark_unspaced s.bytes (x_not_space htrail)]
  exact hexOf_unmarked s.bytes htrail

/-! ### From a header and a blob to the values -/

/-- The header defines the structs of the record.  Comments may stand in them where they neither hide a
declaration nor spell one. -/
def Defines (h : Header) (stats : FwStats) : Prop :=
  ∀ name, ∃ ls : List CommentedLine, h.bodyOf name = some (commentedBody ls) ∧
    (∀ l ∈ ls, ¬ l.Hidden ∧ l.spelled = []) ∧ stats.parser.structs name = some (declared ls)

theorem fieldsRead_clear {ls : List CommentedLine} (h : ∀ l ∈ ls, ¬ l.Hidden ∧ l.spelled = []) :
    fieldsRead ls = declared ls := by
  refine List.flatMap_congr fun l hl => ?_
  obtain ⟨hvisible, hspelled⟩ := h l hl
  rw [hspelled, List.append_nil, l.read_of_clear hvisible]

/-- **The header.** -/
theorem parseHeader_defines {h : Header} {stats : FwStats} (hdef : Defines h stats) :
    parseHeader h.text = stats.parser := by
  have hstructs : (parseHeader h.text).structs = stats.parser.structs := by
    funext name
    obtain ⟨ls, hbody, hclear, hfields⟩ := hdef name
    rw [parseHeader_structs, hbody, hfields, Option.map_some, parse_commentedBody, fieldsRead_clear hclear]
  cases hparser : parseHeader h.text with
  | mk structs =>
    rw [hparser] at hstructs
    cases hstructs
    rfl

/-- The second argument names a file with the bytes, or spells them. -/
def Supplies (fs : Files) (hexBlob : PyStr) (bytes : List UInt8) : Prop :=
  fs.blob hexBlob = .file bytes ∨
    (fs.blob hexBlob = .notAFile ∧ ∃ s : Spelling, s.text = hexBlob ∧ s.values = bytes)

theorem blobData_supplies {fs : Files} {hexBlob : PyStr} {bytes : List UInt8}
    (h : Supplies fs hexBlob bytes) : blobData fs hexBlob = .ok bytes := by
  rcases h with hfile | ⟨hnone, s, rfl, rfl⟩
  · rw [blobData, hfile]
  · rw [blobData, hnone]
    simp only [fromHex_cleanHex]

/-- The blob is decoded with the structs of the header. -/
theorem parse_defined {h : Header} {stats : FwStats} (hdef : Defines h stats) :
    parseRpuSysFwStats (parseHeader h.text) stats.blob .little = some ⟨stats.blob.length, stats.output⟩ := by
  rw [parseHeader_defines hdef, parse_eq, stats.parser_sections]
  exact congrArg some (FilledSection.runSections_eq stats.filled [])

/-- **The script prints the statistics.** -/
theorem main_prints_stats (fs : Files) (headerFile hexBlob : PyStr) (h : Header) (stats : FwStats)
    (hheader : fs.header headerFile = some h.text) (hdef : Defines h stats)
    (hblob : Supplies fs hexBlob stats.blob) : main fs headerFile hexBlob = some ⟨0, stats.output⟩ := by
  rw [main, hheader]
  simp only [blobData_supplies hblob, parse_defined hdef, Option.map_some]

/-! ### A small header -/

theorem chars_of_all {s : PyStr} (h : (s.all fun c => !isSpace c && c != ';' && c != '/') = true) :
    ∀ c ∈ s, isSpace c = false ∧ c ≠ ';' ∧ c ≠ '/' := by
  intro c hc
  simpa [and_assoc] using List.all_eq_true.mp h c hc

theorem unsigned_chars : ∀ c ∈ "unsigned".toList, isSpace c = false ∧ c ≠ ';' ∧ c ≠ '/' :=
  chars_of_all (by decide +kernel)

theorem unsigned_ne_nil : "unsigned".toList ≠ [] := by simp

theorem int_ne_nil : ['i', 'n', 't'] ≠ [] := by simp

theorem x_ne_nil : ['x'] ≠ [] := by simp

/-- `unsigned int x;` -/
def uintX : Declaration where
  lead := noGap
  typeWords := [(⟨"unsigned".toList, unsigned_ne_nil, unsigned_chars⟩, blankGap),
    (⟨['i', 'n', 't'], int_ne_nil, int_chars⟩, blankGap)]
  name := ⟨['x'], x_ne_nil, x_chars⟩
  gap := noGap
  trail := noGap
  typed := by decide
  spaced := by simp [blankGap]

/-- `unsigned int x;// a; b` -/
def uintXLine : CommentedLine where
  code := .declaration uintX
  before := "unsigned int x;".toList
  blocks := []
  last := some " a; b".toList
  code_eq := by decide +kernel
  closed := List.forall_mem_nil _
  one_line := by decide +kernel

def smallBlock (name : StructName) : Block where
  head := structMark name ++ ['\n']
  body := uintXLine.text
  head_plain := by cases name <;> decide +kernel
  body_plain := by decide +kernel
  body_ne_nil := by decide +kernel

/-- The six structs, each with the one field `x`. -/
def smallHeader : Header where
  blocks := [.rpuPhyStats, .rpuLmacStats, .umacTxDbgParams, .umacRxDbgParams, .umacCmdEvntDbgParams,
    .nrfWifiInterfaceStats].map smallBlock
  tail := ";".toList
  tail_open := by decide +kernel

def smallStats : FwStats where
  phy := [UintValue.typed ⟨['x'], 1⟩]
  lmac := [UintValue.typed ⟨['x'], 2⟩]
  umacTx := [⟨['x'], 3⟩]
  umacRx := [⟨['x'], 4⟩]
  umacCmdEvnt := [⟨['x'], 5⟩]
  interface := [⟨['x'], 258⟩]

theorem smallHeader_defines : Defines smallHeader smallStats := by
  intro name
  have hclear : ∀ l ∈ [uintXLine], ¬ l.Hidden ∧ l.spelled = [] :=
    List.forall_mem_singleton.mpr (by decide +kernel)
  refine ⟨[uintXLine], ?_, hclear, ?_⟩
  · cases name <;> decide +kernel
  · cases name <;> decide +kernel

def smallFiles : Files where
  header _ := some smallHeader.text
  blob _ := .notAFile

theorem small_header_prints :
    main smallFiles "stats.h".toList (Spelling.ofBytes smallStats.blob).text = some ⟨0, smallStats.output⟩ :=
  main_prints_stats smallFiles _ _ smallHeader smallStats rfl smallHeader_defines
    (Or.inr ⟨rfl, Spelling.ofBytes smallStats.blob, rfl, Spelling.ofBytes_values _⟩)

/-! ### Every end of the script -/

/-- The second argument is a file that can be read, or what the replacements leave of it are the digits of
bytes. -/
def Readable (fs : Files) (hexBlob : PyStr) : Prop :=
  (∃ bytes, fs.blob hexBlob = .file bytes) ∨
    (fs.blob hexBlob = .notAFile ∧ ∃ bytes, HexOf (cleanHex hexBlob) bytes)

theorem blobData_readable {fs : Files} {hexBlob : PyStr} (h : Readable fs hexBlob) :
    ∃ bytes, blobData fs hexBlob = .ok bytes := by
  rcases h with ⟨bytes, hfile⟩ | ⟨hnone, bytes, hhex⟩
  · exact ⟨bytes, by rw [blobData, hfile]⟩
  · exact ⟨bytes, by rw [blobData, hnone, fromHex_iff.mpr hhex]⟩

theorem blobData_not_readable {fs : Files} {hexBlob : PyStr} (h : ¬ Readable fs hexBlob) :
    ∃ message, blobData fs hexBlob = .error (failure message) := by
  cases hblob : fs.blob hexBlob with
  | file bytes => exact absurd (Or.inl ⟨bytes, hblob⟩) h
  | unreadable error =>
    rw [blobData, hblob]
    exact ⟨_, rfl⟩
  | notAFile =>
    have hnone : fromHex (cleanHex hexBlob) = none := by
      by_contra hsome
      obtain ⟨bytes, hbytes⟩ := Option.ne_none_iff_exists'.mp hsome
      exact h (Or.inr ⟨hblob, bytes, fromHex_iff.mp hbytes⟩)
    rw [blobData, hblob, hnone]
    exact ⟨_, rfl⟩

end WifiMemfault.StatsTool
