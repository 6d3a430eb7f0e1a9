import WifiMemfault.StructFields

/-!
# Comments in a struct definition

A struct body with comments is a list of lines of code, each blank or one declaration, into which block
comments have been inserted at any places and a line comment at the end.  Taking the comments out gives the
plain body; a line and its comments may take up several lines of the text, the first of which starts with
the code before the first comment, while the others are *continuation lines* that start inside a block
comment.

`parse_struct_fields` looks at each line of the text alone.  It reads a declaration if its semicolon stands
before the first comment of its line, and it takes a continuation line for a declaration if there are two
words and a semicolon in it before the next comment mark (`fieldsOfLines_commented`).  A declaration it does
not read is *hidden*, and what it reads off continuation lines is *spelled* by the comments.
-/

namespace WifiMemfault.StructComments

open CString PyText StructFields

/-! ### Code -/

/-- A word of a declaration. -/
structure Word where
  text : PyStr
  ne_nil : text ≠ []
  chars : ∀ c ∈ text, isSpace c = false ∧ c ≠ ';' ∧ c ≠ '/'

/-- White space that ends no line. -/
structure Gap where
  text : PyStr
  blank : Blank text
  one_line : '\n' ∉ text

/-- A scalar declaration: the words of its type, its name and a semicolon, with white space between the
words, around the declaration and before the semicolon. -/
structure Declaration where
  lead : Gap
  typeWords : List (Word × Gap)
  name : Word
  gap : Gap
  trail : Gap
  typed : typeWords ≠ []
  spaced : ∀ p ∈ typeWords, p.2.text ≠ []

namespace Declaration

/-- The declaration up to its semicolon. -/
def head (d : Declaration) : PyStr :=
  d.lead.text ++ (d.typeWords.flatMap (fun p => p.1.text ++ p.2.text) ++ (d.name.text ++ d.gap.text))

def text (d : Declaration) : PyStr := d.head ++ ';' :: d.trail.text

def field (d : Declaration) : Field := ⟨[' '].intercalate (d.typeWords.map fun p => p.1.text), d.name.text⟩

end Declaration

/-- A line of the plain body. -/
inductive CodeLine where
  | blank (gap : Gap)
  | declaration (d : Declaration)

namespace CodeLine

def text : CodeLine → PyStr
  | .blank gap => gap.text
  | .declaration d => d.text

def field : CodeLine → Option Field
  | .blank _ => none
  | .declaration d => some d.field

end CodeLine

/-- Characters that neither words nor white space within a line have. -/
theorem Word.not_mem (w : Word) : ';' ∉ w.text ∧ '/' ∉ w.text ∧ '\n' ∉ w.text := by
  refine ⟨fun h => (w.chars _ h).2.1 rfl, fun h => (w.chars _ h).2.2 rfl, fun h => ?_⟩
  exact absurd (w.chars _ h).1 (by decide)

theorem Gap.not_mem (g : Gap) : ';' ∉ g.text ∧ '/' ∉ g.text ∧ '\n' ∉ g.text :=
  ⟨semicolon_not_mem_blank g.blank, slash_not_mem_blank g.blank, g.one_line⟩

theorem Declaration.head_not_mem (d : Declaration) : ';' ∉ d.head ∧ '/' ∉ d.head ∧ '\n' ∉ d.head := by
  have hwords : ∀ c, (∀ w : Word, c ∉ w.text) → (∀ g : Gap, c ∉ g.text) → c ∉ d.head := by
    intro c hword hgap
    simp only [Declaration.head, List.mem_append, List.mem_flatMap, not_or, not_exists, not_and]
    exact ⟨hgap _, fun p _ => ⟨hword _, hgap _⟩, hword _, hgap _⟩
  exact ⟨hwords _ (fun w => w.not_mem.1) fun g => g.not_mem.1,
    hwords _ (fun w => w.not_mem.2.1) fun g => g.not_mem.2.1,
    hwords _ (fun w => w.not_mem.2.2) fun g => g.not_mem.2.2⟩

theorem CodeLine.text_not_mem (code : CodeLine) : '/' ∉ code.text ∧ '\n' ∉ code.text := by
  cases code with
  | blank gap => exact gap.not_mem.2
  | declaration d =>
    obtain ⟨-, hslash, hline⟩ := d.head_not_mem
    refine ⟨fun h => ?_, fun h => ?_⟩
    · rcases List.mem_append.mp h with h | h
      · exact hslash h
      · exact d.trail.not_mem.2.1 (List.mem_of_ne_of_mem (by decide) h)
    · rcases List.mem_append.mp h with h | h
      · exact hline h
      · exact d.trail.one_line (List.mem_of_ne_of_mem (by decide) h)

theorem Declaration.words_head (d : Declaration) :
    words d.head = d.typeWords.map (fun p => p.1.text) ++ [d.name.text] := by
  have hname : words (d.name.text ++ d.gap.text) = [d.name.text] := by
    rw [words_append_blank d.gap.blank, words_of_word d.name.ne_nil fun c hc => (d.name.chars c hc).1]
  have htypes : ∀ ps : List (Word × Gap), (∀ p ∈ ps, p.2.text ≠ []) → ∀ x,
      words (ps.flatMap (fun p => p.1.text ++ p.2.text) ++ x) = ps.map (fun p => p.1.text) ++ words x := by
    intro ps hps x
    induction ps with
    | nil => rfl
    | cons p ps ih =>
      have hword := words_word_append p.1.ne_nil (fun c hc => (p.1.chars c hc).1) p.2.blank
        (hps p List.mem_cons_self) (ps.flatMap (fun p => p.1.text ++ p.2.text) ++ x)
      rw [List.flatMap_cons, List.append_assoc, hword, ih fun q hq => hps q (List.mem_cons_of_mem p hq)]
      rfl
  rw [Declaration.head, words_blank_append d.lead.blank, htypes d.typeWords d.spaced, hname]

/-- **A plain line is read as its field.** -/
theorem CodeLine.fieldOf_text (code : CodeLine) : fieldOf code.text = code.field := by
  cases code with
  | blank gap => exact fieldOf_no_semicolon gap.not_mem.1
  | declaration d =>
    have hlen : 2 ≤ (words d.head).length := by
      have hpos := List.length_pos_iff.mpr d.typed
      rw [d.words_head, List.length_append, List.length_map, List.length_singleton]
      omega
    show fieldOf (d.head ++ ';' :: d.trail.text) = some d.field
    rw [fieldOf_append_semicolon d.head_not_mem.1, fieldOfParts, if_pos hlen, d.words_head,
      List.dropLast_concat, List.getLast?_concat]
    rfl

/-! ### Code with comments -/

def blockEnd : PyStr := ['*', '/']

/-- A line of code with comments in it: the code before the first block comment, each block comment with
the code behind it, and a line comment. -/
structure CommentedLine where
  code : CodeLine
  before : PyStr
  blocks : List (PyStr × PyStr)
  last : Option PyStr
  code_eq : before ++ (blocks.map Prod.snd).flatten = code.text
  closed : ∀ p ∈ blocks, ¬ blockEnd <:+: p.1
  one_line : ∀ t ∈ last, '\n' ∉ t

namespace CommentedLine

/-- The comments, and the code between them. -/
def behind (l : CommentedLine) : PyStr :=
  l.blocks.flatMap (fun p => blockComment ++ p.1 ++ blockEnd ++ p.2) ++
    (l.last.map (lineComment ++ ·)).getD []

def text (l : CommentedLine) : PyStr := l.before ++ l.behind

/-- The declaration ends before the first comment. -/
def visible (l : CommentedLine) : Option Field := if ';' ∈ l.before then l.code.field else none

/-- There is a declaration, and a comment before its semicolon. -/
def Hidden (l : CommentedLine) : Prop := l.code.field ≠ none ∧ ';' ∉ l.before

instance (l : CommentedLine) : Decidable l.Hidden := inferInstanceAs (Decidable (_ ∧ _))

/-- The lines of the text that start inside a block comment. -/
def continuation (l : CommentedLine) : List PyStr := (lines l.text).tail

/-- What the continuation lines declare before their next comment mark. -/
def spelled (l : CommentedLine) : List Field :=
  l.continuation.filterMap fun line => fieldOf (beforeComment line)

theorem before_not_mem (l : CommentedLine) : '/' ∉ l.before ∧ '\n' ∉ l.before := by
  have hcode := l.code.text_not_mem
  rw [← l.code_eq] at hcode
  exact ⟨fun h => hcode.1 (List.mem_append_left _ h), fun h => hcode.2 (List.mem_append_left _ h)⟩

/-- Behind the first code there is nothing, or a comment starts. -/
theorem behind_starts (l : CommentedLine) :
    l.behind = [] ∨ ∃ c rest, (c = '/' ∨ c = '*') ∧ l.behind = '/' :: c :: rest := by
  rw [behind]
  cases l.blocks with
  | nil =>
    cases l.last with
    | none => exact Or.inl rfl
    | some t => exact Or.inr ⟨'/', t, Or.inl rfl, rfl⟩
  | cons p blocks => exact Or.inr ⟨'*', _, Or.inr rfl, rfl⟩

/-- The first line of the text is the first code and, at most, a comment. -/
theorem lines_text (l : CommentedLine) :
    ∃ rest, beforeComment rest = [] ∧ lines l.text = (l.before ++ rest) :: l.continuation := by
  have hlines := lines_append l.before_not_mem.2 l.behind
  rw [continuation, text, hlines]
  rcases l.behind_starts with hnil | ⟨c, rest, hc, hstarts⟩
  · rw [hnil]
    exact ⟨[], rfl, by simp [lines]⟩
  · have hmark : '\n' ∉ ['/', c] := by
      rcases hc with rfl | rfl
      · decide
      · decide
    have hrest := lines_append hmark rest
    rw [hstarts, show '/' :: c :: rest = ['/', c] ++ rest from rfl, hrest]
    cases hl : lines rest with
    | nil => exact absurd hl (List.splitOn_ne_nil _ _)
    | cons line more =>
      have hcomment : CommentStarts ('/' :: c :: line) :=
        commentStarts_cons.mpr ⟨rfl, hc.imp (congrArg some) (congrArg some)⟩
      exact ⟨'/' :: c :: line, beforeComment_of_starts hcomment, rfl⟩

/-- The first code is read as the declaration, or as nothing. -/
theorem fieldOf_before (l : CommentedLine) : fieldOf l.before = l.visible := by
  rw [visible]
  by_cases hsemi : ';' ∈ l.before
  · rw [if_pos hsemi, ← l.code.fieldOf_text, ← l.code_eq, fieldOf_append hsemi]
  · rw [if_neg hsemi, fieldOf_no_semicolon hsemi]

/-- **One line of code with its comments.** -/
theorem fieldsOfLines_text (l : CommentedLine) :
    fieldsOfLines l.text = l.visible.toList ++ l.spelled := by
  obtain ⟨rest, hrest, hlines⟩ := l.lines_text
  have hfirst : parseLine (l.before ++ rest) = l.visible := by
    rw [parseLine_eq, beforeComment_append l.before_not_mem.1, hrest, List.append_nil, l.fieldOf_before]
  have hmore : l.continuation.filterMap parseLine = l.spelled :=
    List.filterMap_congr fun line _ => parseLine_eq line
  rw [fieldsOfLines, hlines, List.filterMap_cons, hfirst, hmore]
  cases l.visible with
  | none => rfl
  | some f => rfl

end CommentedLine

/-! ### The body -/

/-- The body with its comments. -/
def commentedBody (ls : List CommentedLine) : PyStr := ['\n'].intercalate (ls.map CommentedLine.text)

/-- The body with all comments removed. -/
def plainBody (ls : List CommentedLine) : PyStr := ['\n'].intercalate (ls.map fun l => l.code.text)

/-- The declared fields. -/
def declared (ls : List CommentedLine) : List Field := ls.flatMap fun l => l.code.field.toList

/-- The fields that are read: of each line the declaration if it is visible, and then what the comments
spell. -/
def fieldsRead (ls : List CommentedLine) : List Field := ls.flatMap fun l => l.visible.toList ++ l.spelled

/-- A text of several lines is read line by line. -/
theorem parseStructFields_intercalate (ts : List PyStr) :
    parseStructFields (['\n'].intercalate ts) = ts.flatMap fieldsOfLines := by
  rw [parseStructFields_eq]
  by_cases hne : ts = []
  · rw [hne]
    rfl
  · rw [fieldsOfLines, lines_intercalate hne, List.filterMap_flatMap]
    rfl

/-- **The body without comments.** -/
theorem parse_plainBody (ls : List CommentedLine) : parseStructFields (plainBody ls) = declared ls := by
  have hline : ∀ l : CommentedLine, fieldsOfLines l.code.text = l.code.field.toList := by
    intro l
    obtain ⟨hslash, hnewline⟩ := l.code.text_not_mem
    have hbefore := beforeComment_append hslash []
    rw [List.append_nil, beforeComment, List.append_nil] at hbefore
    rw [fieldsOfLines_line hnewline, parseLine_eq, hbefore, l.code.fieldOf_text]
  rw [plainBody, parseStructFields_intercalate, List.flatMap_map, declared]
  exact List.flatMap_congr fun l _ => hline l

/-- **The body with comments.** -/
theorem parse_commentedBody (ls : List CommentedLine) : parseStructFields (commentedBody ls) = fieldsRead ls := by
  rw [commentedBody, parseStructFields_intercalate, List.flatMap_map, fieldsRead]
  exact List.flatMap_congr fun l _ => l.fieldsOfLines_text

/-- Where nothing is hidden and nothing spelled, a line is read as it is declared. -/
theorem CommentedLine.read_of_clear {l : CommentedLine} (h : ¬ l.Hidden) : l.visible = l.code.field := by
  rw [CommentedLine.visible]
  split
  · rfl
  · rename_i hsemi
    by_contra hne
    exact h ⟨fun hnone => hne hnone.symm, hsemi⟩

/-- The fields that are read and not declared are as many as those declared and not read. -/
theorem fieldsRead_length (ls : List CommentedLine) :
    (fieldsRead ls).length + ls.countP (fun l => l.Hidden)
      = (declared ls).length + (ls.flatMap CommentedLine.spelled).length := by
  induction ls with
  | nil => rfl
  | cons l ls ih =>
    have hline : l.visible.toList.length + (if l.Hidden then 1 else 0) = l.code.field.toList.length := by
      by_cases hhidden : l.Hidden
      · obtain ⟨hfield, hsemi⟩ := id hhidden
        obtain ⟨f, hf⟩ := Option.ne_none_iff_exists'.mp hfield
        rw [if_pos hhidden, CommentedLine.visible, if_neg hsemi, hf]
        rfl
      · rw [if_neg hhidden, CommentedLine.read_of_clear hhidden, Nat.add_zero]
    rw [fieldsRead, declared] at ih
    simp only [fieldsRead, declared, List.flatMap_cons, List.length_append, List.countP_cons,
      decide_eq_true_eq]
    omega

def noGap : Gap := ⟨[], List.forall_mem_nil _, by decide⟩

def blankGap : Gap := ⟨[' '], List.forall_mem_singleton.mpr rfl, by decide⟩

theorem int_chars : ∀ c ∈ ['i', 'n', 't'], isSpace c = false ∧ c ≠ ';' ∧ c ≠ '/' := by
  simp only [List.forall_mem_cons]
  exact ⟨by decide, by decide, by decide, List.forall_mem_nil _⟩

theorem x_chars : ∀ c ∈ ['x'], isSpace c = false ∧ c ≠ ';' ∧ c ≠ '/' :=
  List.forall_mem_singleton.mpr (by decide)

/-- ` int x;` -/
def intX : Declaration where
  lead := blankGap
  typeWords := [(⟨['i', 'n', 't'], by decide, int_chars⟩, blankGap)]
  name := ⟨['x'], by decide, x_chars⟩
  gap := noGap
  trail := noGap
  typed := by decide
  spaced := by simp [blankGap]

/-- `/* a */ int x;` -/
def commentedIntX : CommentedLine where
  code := .declaration intX
  before := []
  blocks := [([' ', 'a', ' '], [' ', 'i', 'n', 't', ' ', 'x', ';'])]
  last := none
  code_eq := by decide
  closed := by decide
  one_line := by decide

end WifiMemfault.StructComments
