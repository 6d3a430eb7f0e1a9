import WifiMemfault.Lib.PyText

/-!
# Reading the fields of a struct definition

`StructParser.parse_struct_fields` of `script/nrf70_fw_stats_parser.py`.  The body of a struct is read line
by line: a line that starts with a comment is skipped, any other is cut off at its first comment mark, and
the words before its semicolon are the type and the name of a field.

`parseLine_eq` and `parseStructFields_eq` say this without the stripping: the field of a line is what stands
before the first comment mark, and every line counts for itself.
-/

namespace WifiMemfault.StructFields

open CString PyText

/-- A field of a struct: the words of its type, joined with blanks, and its name. -/
structure Field where
  fieldType : PyStr
  fieldName : PyStr
  deriving DecidableEq, Repr

def lineComment : PyStr := ['/', '/']
def blockComment : PyStr := ['/', '*']

/-- The field the words of a declaration name, none if there are fewer than two. -/
def fieldOfParts (parts : List PyStr) : Option Field :=
  if 2 ≤ parts.length then some ⟨[' '].intercalate parts.dropLast, parts.getLast?.getD []⟩ else none

/-- The field of a line without its comments: its words up to the first semicolon. -/
def fieldOf (line : PyStr) : Option Field :=
  match findText [';'] line with
  | some p => fieldOfParts (words (strip (line.take p)))
  | none => none

/-- The body of the loop over the lines. -/
def parseLine (line : PyStr) : Option Field :=
  let line := strip line
  if line = [] ∨ lineComment <+: line ∨ blockComment <+: line then none
  else fieldOf (cutAt blockComment (cutAt lineComment line))

def parseStructFields (structBody : PyStr) : List Field := (lines (strip structBody)).filterMap parseLine

/-! ### The field of a line without comments -/

theorem findText_semicolon {x : PyStr} (hx : ';' ∉ x) (y : PyStr) :
    findText [';'] (x ++ ';' :: y) = some x.length := by
  induction x with
  | nil => simp [findText]
  | cons c x ih =>
    have hc : c ≠ ';' := fun h => hx (h ▸ List.mem_cons_self)
    rw [List.cons_append, findText, if_neg (by simpa using hc.symm), ih fun h => hx (List.mem_cons_of_mem c h)]
    rfl

theorem findText_no_semicolon {x : PyStr} (hx : ';' ∉ x) : findText [';'] x = none := by
  apply findText_eq_none
  rw [List.singleton_infix_iff]
  exact hx

/-- The words before the first semicolon are the field. -/
theorem fieldOf_append_semicolon {x : PyStr} (hx : ';' ∉ x) (y : PyStr) :
    fieldOf (x ++ ';' :: y) = fieldOfParts (words x) := by
  rw [fieldOf, findText_semicolon hx]
  show fieldOfParts (words (strip ((x ++ ';' :: y).take x.length))) = _
  rw [List.take_left, words_strip]

theorem fieldOf_no_semicolon {x : PyStr} (hx : ';' ∉ x) : fieldOf x = none := by
  rw [fieldOf, findText_no_semicolon hx]

/-- What stands behind the first semicolon does not matter. -/
theorem fieldOf_append {x : PyStr} (hx : ';' ∈ x) (y : PyStr) : fieldOf (x ++ y) = fieldOf x := by
  obtain ⟨a, b, rfl, ha⟩ := List.eq_append_cons_of_mem hx
  rw [List.append_assoc, List.cons_append, fieldOf_append_semicolon ha, fieldOf_append_semicolon ha]

theorem semicolon_not_mem_blank {b : PyStr} (hb : Blank b) : ';' ∉ b := fun h => absurd (hb ';' h) (by decide)

theorem fieldOf_blank_append {b : PyStr} (hb : Blank b) (x : PyStr) : fieldOf (b ++ x) = fieldOf x := by
  have hsemi := semicolon_not_mem_blank hb
  by_cases hx : ';' ∈ x
  · obtain ⟨a, c, rfl, ha⟩ := List.eq_append_cons_of_mem hx
    have hba : ';' ∉ b ++ a := fun h => (List.mem_append.mp h).elim hsemi ha
    rw [← List.append_assoc, fieldOf_append_semicolon hba, fieldOf_append_semicolon ha,
      words_blank_append hb]
  · have hbx : ';' ∉ b ++ x := fun h => (List.mem_append.mp h).elim hsemi hx
    rw [fieldOf_no_semicolon hx, fieldOf_no_semicolon hbx]

theorem fieldOf_append_blank {b : PyStr} (hb : Blank b) (x : PyStr) : fieldOf (x ++ b) = fieldOf x := by
  by_cases hx : ';' ∈ x
  · exact fieldOf_append hx b
  · have hxb : ';' ∉ x ++ b := fun h => (List.mem_append.mp h).elim hx (semicolon_not_mem_blank hb)
    rw [fieldOf_no_semicolon hx, fieldOf_no_semicolon hxb]

/-! ### The part of a line before its first comment -/

/-- A comment starts here. -/
def CommentStarts (s : PyStr) : Prop := lineComment <+: s ∨ blockComment <+: s

instance (s : PyStr) : Decidable (CommentStarts s) := inferInstanceAs (Decidable (_ ∨ _))

def beforeComment : PyStr → PyStr
  | [] => []
  | c :: s => if CommentStarts (c :: s) then [] else c :: beforeComment s

/-- A comment starts with a slash and a slash or a star. -/
theorem commentStarts_cons {c : Char} {s : PyStr} :
    CommentStarts (c :: s) ↔ c = '/' ∧ (s.head? = some '/' ∨ s.head? = some '*') := by
  cases s with
  | nil => simp [CommentStarts, lineComment, blockComment]
  | cons d s =>
    simp only [CommentStarts, lineComment, blockComment, List.cons_prefix_cons, List.nil_prefix, and_true,
      List.head?_cons, Option.some.injEq]
    rw [eq_comm (a := c), eq_comm (a := d), eq_comm (a := d), ← and_or_left]

theorem beforeComment_of_starts {c : Char} {s : PyStr} (h : CommentStarts (c :: s)) :
    beforeComment (c :: s) = [] := if_pos h

theorem beforeComment_cons {c : Char} {s : PyStr} (h : ¬ CommentStarts (c :: s)) :
    beforeComment (c :: s) = c :: beforeComment s := if_neg h

/-- Cutting at line comments first leaves the block comments that start before them. -/
theorem blockComment_cutAt {c : Char} {s : PyStr} :
    blockComment <+: c :: cutAt lineComment s ↔ blockComment <+: c :: s := by
  cases s with
  | nil => rw [cutAt_nil]
  | cons d s =>
    by_cases hline : lineComment <+: d :: s
    · have hd : '/' = d := (List.cons_prefix_cons.mp hline).1
      rw [cutAt_cons_of_starts hline]
      simp [blockComment, ← hd]
    · rw [cutAt_cons hline]
      simp [blockComment]

/-- The two cuts of the loop are one. -/
theorem cutAt_cutAt (s : PyStr) : cutAt blockComment (cutAt lineComment s) = beforeComment s := by
  induction s with
  | nil => rw [cutAt_nil, cutAt_nil, beforeComment]
  | cons c s ih =>
    by_cases hline : lineComment <+: c :: s
    · rw [cutAt_cons_of_starts hline, cutAt_nil, beforeComment_of_starts (Or.inl hline)]
    · rw [cutAt_cons hline]
      by_cases hblock : blockComment <+: c :: s
      · rw [cutAt_cons_of_starts (blockComment_cutAt.mpr hblock), beforeComment_of_starts (Or.inr hblock)]
      · rw [cutAt_cons (mt blockComment_cutAt.mp hblock), ih,
          beforeComment_cons fun h => h.elim hline hblock]

/-- Text without a slash stands before the first comment. -/
theorem beforeComment_append {x : PyStr} (hx : '/' ∉ x) (y : PyStr) :
    beforeComment (x ++ y) = x ++ beforeComment y := by
  induction x with
  | nil => rfl
  | cons c x ih =>
    have hc : ¬ CommentStarts (c :: (x ++ y)) := fun h =>
      hx ((commentStarts_cons.mp h).1 ▸ List.mem_cons_self)
    rw [List.cons_append, beforeComment_cons hc, ih fun h => hx (List.mem_cons_of_mem c h)]
    rfl

theorem slash_not_mem_blank {b : PyStr} (hb : Blank b) : '/' ∉ b := fun h => absurd (hb '/' h) (by decide)

/-- White space at the end makes no comment start. -/
theorem beforeComment_append_blank {b : PyStr} (hb : Blank b) (x : PyStr) :
    beforeComment (x ++ b) = beforeComment x ∨ beforeComment (x ++ b) = beforeComment x ++ b := by
  induction x with
  | nil =>
    have hrest := beforeComment_append (slash_not_mem_blank hb) []
    rw [List.append_nil, beforeComment, List.append_nil] at hrest
    exact Or.inr hrest
  | cons c x ih =>
    have hsame : CommentStarts (c :: (x ++ b)) ↔ CommentStarts (c :: x) := by
      rw [commentStarts_cons, commentStarts_cons]
      cases x with
      | nil =>
        have hhead : ∀ d ∈ b.head?, d ≠ '/' ∧ d ≠ '*' := by
          intro d hd
          have hspace := hb d (List.mem_of_mem_head? hd)
          refine ⟨?_, ?_⟩
          · rintro rfl
            exact absurd hspace (by decide)
          · rintro rfl
            exact absurd hspace (by decide)
        cases b with
        | nil => rfl
        | cons d b =>
          have hd := hhead d rfl
          simp [hd.1, hd.2]
      | cons d x => rfl
    rw [List.cons_append]
    by_cases hstarts : CommentStarts (c :: x)
    · rw [beforeComment_of_starts hstarts, beforeComment_of_starts (hsame.mpr hstarts)]
      exact Or.inl rfl
    · rw [beforeComment_cons hstarts, beforeComment_cons (mt hsame.mp hstarts)]
      rcases ih with h | h
      · exact Or.inl (congrArg (c :: ·) h)
      · exact Or.inr (congrArg (c :: ·) h)

/-! ### A line, and the lines of a body -/

/-- **One line.**  Its field is that of the part before its first comment. -/
theorem parseLine_eq (line : PyStr) : parseLine line = fieldOf (beforeComment line) := by
  have hstripped : parseLine line = fieldOf (beforeComment (strip line)) := by
    rw [parseLine, cutAt_cutAt]
    split
    · rename_i h
      have hnothing : beforeComment (strip line) = [] := by
        rcases h with h | h
        · rw [h, beforeComment]
        · generalize strip line = s at h
          cases s with
          | nil => rfl
          | cons c s => exact beforeComment_of_starts h
      rw [hnothing]
      rfl
    · rfl
  obtain ⟨lead, trail, hlead, htrail, hline⟩ := strip_spec line
  conv_rhs => rw [hline, List.append_assoc, beforeComment_append (slash_not_mem_blank hlead),
    fieldOf_blank_append hlead]
  rw [hstripped]
  rcases beforeComment_append_blank htrail (strip line) with h | h
  · rw [h]
  · rw [h, fieldOf_append_blank htrail]

theorem parseLine_blank_append {b : PyStr} (hb : Blank b) (line : PyStr) :
    parseLine (b ++ line) = parseLine line := by
  rw [parseLine_eq, parseLine_eq, beforeComment_append (slash_not_mem_blank hb), fieldOf_blank_append hb]

theorem parseLine_append_blank {b : PyStr} (hb : Blank b) (line : PyStr) :
    parseLine (line ++ b) = parseLine line := by
  rw [parseLine_eq, parseLine_eq]
  rcases beforeComment_append_blank hb line with h | h
  · rw [h]
  · rw [h, fieldOf_append_blank hb]

/-- The fields of the lines of a text. -/
def fieldsOfLines (s : PyStr) : List Field := (lines s).filterMap parseLine

theorem fieldsOfLines_append_newline (x y : PyStr) :
    fieldsOfLines (x ++ '\n' :: y) = fieldsOfLines x ++ fieldsOfLines y := by
  rw [fieldsOfLines, lines_append_newline, List.filterMap_append]
  rfl

theorem fieldsOfLines_line {x : PyStr} (hx : '\n' ∉ x) : fieldsOfLines x = (parseLine x).toList := by
  rw [fieldsOfLines, lines_of_line hx, List.filterMap_cons]
  cases parseLine x with
  | none => rfl
  | some f => rfl

theorem fieldsOfLines_blank_append {b : PyStr} (hb : Blank b) (s : PyStr) :
    fieldsOfLines (b ++ s) = fieldsOfLines s := by
  induction b with
  | nil => rfl
  | cons c b ih =>
    have hrest := ih fun d hd => hb d (List.mem_cons_of_mem c hd)
    have hspace := hb c List.mem_cons_self
    by_cases hc : c = '\n'
    · have hnewline := fieldsOfLines_append_newline [] (b ++ s)
      rw [hc]
      exact hnewline.trans hrest
    · have hline : '\n' ∉ [c] := fun h => hc (List.mem_singleton.mp h).symm
      have hblank : Blank [c] := fun d hd => (List.mem_singleton.mp hd) ▸ hspace
      rw [← hrest, fieldsOfLines, fieldsOfLines, List.cons_append, ← List.singleton_append,
        lines_append hline]
      cases lines (b ++ s) with
      | nil => rfl
      | cons l ls => rw [List.modifyHead_cons, List.filterMap_cons, List.filterMap_cons,
          parseLine_blank_append hblank]

theorem fieldsOfLines_blank {b : PyStr} (hb : Blank b) : fieldsOfLines b = [] := by
  have h := fieldsOfLines_blank_append hb []
  rw [List.append_nil] at h
  exact h

/-- White space behind the last line. -/
theorem fieldsOfLines_line_append_blank {b : PyStr} (hb : Blank b) {s : PyStr} (hs : '\n' ∉ s) :
    fieldsOfLines (s ++ b) = fieldsOfLines s := by
  have hshort : ∀ {x : PyStr}, Blank x → '\n' ∉ x → fieldsOfLines (s ++ x) = fieldsOfLines s := by
    intro x hx hline
    rw [fieldsOfLines_line fun h => (List.mem_append.mp h).elim hs hline, fieldsOfLines_line hs,
      parseLine_append_blank hx]
  by_cases hline : '\n' ∈ b
  · obtain ⟨x, y, rfl, hx⟩ := List.eq_append_cons_of_mem hline
    have hxblank : Blank x := fun c hc => hb c (List.mem_append_left _ hc)
    have hyblank : Blank y := fun c hc => hb c (List.mem_append_right _ (List.mem_cons_of_mem _ hc))
    rw [← List.append_assoc, fieldsOfLines_append_newline, hshort hxblank hx, fieldsOfLines_blank hyblank,
      List.append_nil]
  · exact hshort hb hline

theorem fieldsOfLines_append_blank {b : PyStr} (hb : Blank b) (s : PyStr) :
    fieldsOfLines (s ++ b) = fieldsOfLines s := by
  induction hn : s.length using Nat.strong_induction_on generalizing s with
  | _ n ih =>
    by_cases hline : '\n' ∈ s
    · obtain ⟨x, y, rfl, -⟩ := List.eq_append_cons_of_mem hline
      have hshorter : y.length < n := by
        rw [← hn, List.length_append, List.length_cons]
        omega
      rw [List.append_assoc, List.cons_append, fieldsOfLines_append_newline, fieldsOfLines_append_newline,
        ih y.length hshorter y rfl]
    · exact fieldsOfLines_line_append_blank hb hline

/-- **The body.**  Stripping it changes no field. -/
theorem parseStructFields_eq (structBody : PyStr) : parseStructFields structBody = fieldsOfLines structBody := by
  obtain ⟨lead, trail, hlead, htrail, hbody⟩ := strip_spec structBody
  conv_rhs => rw [hbody, List.append_assoc, fieldsOfLines_blank_append hlead, fieldsOfLines_append_blank htrail]
  rfl

end WifiMemfault.StructFields
