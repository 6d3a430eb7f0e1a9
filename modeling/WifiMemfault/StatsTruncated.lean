import WifiMemfault.StatsParser

/-!
# Truncated blobs

The complete layout has one section after the other, each of the size of its format, whether or not the
blob reaches that far.  A section of a truncated blob may be printed only if it fits at its *own* offset in
that layout, and then each field with the value at the field's own offset (`OwnOutput`).

The script's offset stays where it is when a section does not fit, so what follows is decoded from the
bytes of that section if it is small enough.  The output is the blob's own exactly if nothing that follows
is (`parse_own_iff`).
-/

namespace WifiMemfault.StatsTruncated

open PackedStruct PyText StructFields StatsParser

section Own

variable (order : ByteOrder) (blob : List UInt8)

/-- The lines of the fields from `offset` on, each with the value at its own offset. -/
def ownFields : ℕ → List (Field × FormatChar) → List PrintedLine
  | _, [] => []
  | offset, (field, c) :: rest =>
    .field field.fieldName (c.decode order ((blob.drop offset).take c.size)) ::
      ownFields (offset + c.size) rest

/-- What a section at `offset` of the layout says. -/
def ownLines (sec : Section) (offset : ℕ) : List PrintedLine :=
  .text sec.title :: .text "======================" ::
    (ownFields order blob offset (sec.fields.zip sec.format) ++ [.text ""])

/-- The outputs of a blob for the sections from `offset` on.  Any section may be left out; one that is
printed fits at its own offset. -/
inductive OwnOutput : ℕ → List Section → List PrintedLine → Prop
  | nil (offset : ℕ) : OwnOutput offset [] []
  | leftOut {offset : ℕ} {sec : Section} {rest : List Section} {lines : List PrintedLine}
      (h : OwnOutput (offset + sec.size) rest lines) : OwnOutput offset (sec :: rest) lines
  | printed {offset : ℕ} {sec : Section} {rest : List Section} {lines : List PrintedLine}
      (hfit : offset + sec.size ≤ blob.length) (h : OwnOutput (offset + sec.size) rest lines) :
      OwnOutput offset (sec :: rest) (ownLines order blob sec offset ++ lines)

end Own

/-- The first section that does not fit in a blob of `length` bytes is followed by none that fits in the
bytes left there. -/
def NoneFitsLater (length : ℕ) : ℕ → List Section → Prop
  | _, [] => True
  | offset, sec :: rest =>
    if offset + sec.size ≤ length then NoneFitsLater length (offset + sec.size) rest
    else ∀ later ∈ rest, length < offset + later.size

section Lines

variable {order : ByteOrder} {blob : List UInt8}

/-- Taking a slice apart is decoding each field at its own offset. -/
theorem zipWith_unpackFields (format : List FormatChar) (fields : List Field) (offset : ℕ) :
    List.zipWith (fun field value => PrintedLine.field field.fieldName value) fields
        (unpackFields order format ((blob.drop offset).take (calcsize format)))
      = ownFields order blob offset (fields.zip format) := by
  induction format generalizing fields offset with
  | nil =>
    rw [List.zip_nil_right, unpackFields, List.zipWith_nil_right]
    rfl
  | cons c format ih =>
    cases fields with
    | nil => rfl
    | cons field fields =>
      have hsize : calcsize (c :: format) = c.size + calcsize format := by
        rw [calcsize, List.map_cons, List.sum_cons, calcsize]
      have hhead : ((blob.drop offset).take (calcsize (c :: format))).take c.size
          = (blob.drop offset).take c.size := by
        rw [List.take_take, hsize, Nat.min_eq_left (Nat.le_add_right _ _)]
      have htail : ((blob.drop offset).take (calcsize (c :: format))).drop c.size
          = (blob.drop (offset + c.size)).take (calcsize format) := by
        rw [List.drop_take, List.drop_drop, hsize, Nat.add_sub_cancel_left]
      rw [unpackFields, hhead, htail, List.zipWith_cons_cons, List.zip_cons_cons, ownFields, ih]

theorem printedAt_eq (sec : Section) (offset : ℕ) :
    sec.printedAt order blob offset = ownLines order blob sec offset := by
  rw [Section.printedAt, Section.size, sectionLines, zipWith_unpackFields, ownLines]

/-- An output starts with the title of one of the sections. -/
theorem OwnOutput.head_title {offset : ℕ} {secs : List Section} {lines : List PrintedLine}
    (h : OwnOutput order blob offset secs lines) :
    ∀ title more, lines = .text title :: more → title ∈ secs.map Section.title := by
  induction h with
  | nil offset => rintro title more ⟨⟩
  | leftOut h ih =>
    intro title more hlines
    exact List.mem_cons_of_mem _ (ih title more hlines)
  | printed hfit h ih =>
    intro title more hlines
    rw [ownLines, List.cons_append, List.cons.injEq, PrintedLine.text.injEq] at hlines
    rw [← hlines.1]
    exact List.mem_cons_self

/-- A section with its own title, printed first, is the one at the front. -/
theorem ownOutput_cons_iff {offset : ℕ} {sec : Section} {rest : List Section} {lines : List PrintedLine}
    (hfit : offset + sec.size ≤ blob.length) (htitle : sec.title ∉ rest.map Section.title) :
    OwnOutput order blob offset (sec :: rest) (ownLines order blob sec offset ++ lines) ↔
      OwnOutput order blob (offset + sec.size) rest lines := by
  constructor
  · intro h
    generalize hall : ownLines order blob sec offset ++ lines = all at h
    cases h with
    | leftOut h => exact absurd (h.head_title sec.title _ hall.symm) htitle
    | printed hfit' h => rwa [List.append_cancel_left hall]
  · exact .printed hfit

/-- Nothing beyond the end of the blob is printed. -/
theorem ownOutput_beyond_iff {offset : ℕ} {secs : List Section} {lines : List PrintedLine}
    (hend : blob.length < offset) : OwnOutput order blob offset secs lines ↔ lines = [] := by
  constructor
  · intro h
    induction h with
    | nil offset => rfl
    | leftOut h ih => exact ih (by omega)
    | printed hfit h ih => omega
  · rintro rfl
    induction secs generalizing offset with
    | nil => exact .nil offset
    | cons sec secs ih => exact .leftOut (ih (by omega))

theorem ownOutput_cons_of_not_fit {offset : ℕ} {sec : Section} {rest : List Section}
    {lines : List PrintedLine} (hfit : ¬ offset + sec.size ≤ blob.length) :
    OwnOutput order blob offset (sec :: rest) lines ↔ lines = [] := by
  rw [← ownOutput_beyond_iff (Nat.lt_of_not_le hfit)]
  constructor
  · intro h
    cases h with
    | leftOut h => exact h
    | printed hfit' h => exact absurd hfit' hfit
  · exact .leftOut

end Lines

section Run

variable (order : ByteOrder) (blob : List UInt8)

/-- A run prints nothing exactly if none of its sections fits where it starts. -/
theorem runSections_printed_eq_nil (offset : ℕ) (secs : List Section) :
    (runSections order blob offset secs).printed = [] ↔ ∀ sec ∈ secs, blob.length < offset + sec.size := by
  induction secs with
  | nil => simp [runSections]
  | cons sec secs ih =>
    rw [runSections, List.forall_mem_cons]
    by_cases hfit : offset + sec.size ≤ blob.length
    · rw [if_pos hfit, printedAt_eq, ownLines]
      constructor
      · rintro ⟨⟩
      · intro h
        exact absurd hfit (Nat.not_le_of_lt h.1)
    · rw [if_neg hfit, ih]
      exact ⟨fun h => ⟨Nat.lt_of_not_le hfit, h⟩, fun h => h.2⟩

/-- **The sections.**  By induction on them: up to the first section that does not fit, the offset of the
run is that of the layout. -/
theorem runSections_own_iff (offset : ℕ) (secs : List Section) (htitles : (secs.map Section.title).Nodup) :
    OwnOutput order blob offset secs (runSections order blob offset secs).printed ↔
      NoneFitsLater blob.length offset secs := by
  induction secs generalizing offset with
  | nil => exact ⟨fun _ => trivial, fun _ => .nil offset⟩
  | cons sec secs ih =>
    rw [List.map_cons, List.nodup_cons] at htitles
    rw [runSections, NoneFitsLater]
    by_cases hfit : offset + sec.size ≤ blob.length
    · rw [if_pos hfit, if_pos hfit, printedAt_eq, ownOutput_cons_iff hfit htitles.1]
      exact ih (offset + sec.size) htitles.2
    · rw [if_neg hfit, if_neg hfit, ownOutput_cons_of_not_fit hfit]
      exact runSections_printed_eq_nil order blob offset secs

end Run

/-! ### The six sections -/

theorem optional_title (title : String) (mk : List Field → Section)
    (hmk : ∀ fields, (mk fields).title = title) (fields : Option (List Field)) :
    ((fields.map mk).toList.map Section.title).Sublist [title] := by
  cases fields with
  | none => exact List.nil_sublist _
  | some fields =>
    rw [Option.map_some, Option.toList_some, List.map_singleton, hmk]

theorem sections_titles_nodup (parser : StructParser) : (parser.sections.map Section.title).Nodup := by
  have htyped (title : String) := optional_title title (typedSection title) fun _ => rfl
  have huint (title : String) := optional_title title (uintSection title) fun _ => rfl
  have hsub : (parser.sections.map Section.title).Sublist
      (["PHY stats"] ++ (["LMAC stats"] ++ (["UMAC TX debug stats"] ++ (["UMAC RX debug stats"] ++
        (["UMAC control path stats"] ++ ["UMAC interface stats"]))))) := by
    simp only [StructParser.sections, List.map_append]
    exact (htyped _ _).append ((htyped _ _).append ((huint _ _).append ((huint _ _).append
      ((huint _ _).append (huint _ _)))))
  exact hsub.nodup (by decide +kernel)

/-- **Truncated blobs.** -/
theorem parse_own_iff (parser : StructParser) (blob : List UInt8) :
    (∃ s, parseRpuSysFwStats parser blob .little = some s ∧
        OwnOutput .little blob 0 parser.sections s.printed) ↔
      NoneFitsLater blob.length 0 parser.sections := by
  rw [← runSections_own_iff .little blob 0 parser.sections (sections_titles_nodup parser), parse_eq]
  constructor
  · rintro ⟨s, hs, h⟩
    rwa [Option.some_inj.1 hs]
  · exact fun h => ⟨_, rfl, h⟩

/-- Two counters in the PHY struct, one in each of the others. -/
def smallParser : StructParser where
  structs
    | .rpuPhyStats =>
      some [⟨"unsigned int".toList, "crc_pass".toList⟩, ⟨"unsigned int".toList, "crc_fail".toList⟩]
    | .rpuLmacStats => some [⟨"unsigned int".toList, "reset_cmd_cnt".toList⟩]
    | _ => some [⟨"unsigned int".toList, "cnt".toList⟩, ⟨"unsigned int".toList, "err".toList⟩]

/-- Of a blob of four bytes the first counter of the PHY struct is all there is.  It is printed as the
counter of the LMAC struct. -/
theorem counter_of_another_section :
    parseRpuSysFwStats smallParser [7, 0, 0, 0] .little
        = some ⟨4, [.text "LMAC stats", .text "======================",
          .field "reset_cmd_cnt".toList (.int 7), .text ""]⟩ ∧
      ¬ ∃ s, parseRpuSysFwStats smallParser [7, 0, 0, 0] .little = some s ∧
        OwnOutput .little [7, 0, 0, 0] 0 smallParser.sections s.printed := by
  have hparse : parseRpuSysFwStats smallParser [7, 0, 0, 0] .little
      = some ⟨4, [.text "LMAC stats", .text "======================",
        .field "reset_cmd_cnt".toList (.int 7), .text ""]⟩ := by
    decide +kernel
  refine ⟨hparse, ?_⟩
  rintro ⟨s, hs, h⟩
  rw [hparse, Option.some_inj] at hs
  have hphy : smallParser.sections = typedSection "PHY stats" _ :: _ := rfl
  rw [← hs, hphy, ownOutput_cons_of_not_fit (by decide +kernel)] at h
  exact List.cons_ne_nil _ _ h

end WifiMemfault.StatsTruncated
