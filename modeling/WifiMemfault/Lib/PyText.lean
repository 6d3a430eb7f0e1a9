import WifiMemfault.Lib.CString
import Mathlib.Data.List.Infix

/-!
# Lines and words of a text

The methods of Python's `str` that a line-oriented reader uses, on lists of characters: `strip`, `split` on
white space and on line ends, and cutting a text at the first place where a mark starts.

White space around a text changes neither its words (`words_blank_append`, `words_append_blank`) nor, apart
from line ends, what stands before a mark.
-/

namespace PyText

open CString

abbrev PyStr := List Char

/-- `str.isspace` of one character. -/
def isSpace (c : Char) : Bool :=
  let n := c.toNat
  (9 ≤ n && n ≤ 13) || (28 ≤ n && n ≤ 32) || n == 133 || n == 160 || n == 5760 ||
    (8192 ≤ n && n ≤ 8202) || n == 8232 || n == 8233 || n == 8239 || n == 8287 || n == 12288

/-- White space only. -/
def Blank (s : PyStr) : Prop := ∀ c ∈ s, isSpace c = true

instance (s : PyStr) : Decidable (Blank s) := List.decidableBAll _ s

/-- `s.strip()` -/
def strip (s : PyStr) : PyStr := ((s.dropWhile isSpace).reverse.dropWhile isSpace).reverse

/-- `s.split('\n')` -/
def lines (s : PyStr) : List PyStr := s.splitOn '\n'

/-- `s.split()` -/
def words (s : PyStr) : List PyStr := (s.splitOnP isSpace).filter fun w => !w.isEmpty

/-- `s[:s.index(mark)]` if the mark is in `s`, and `s` otherwise. -/
def cutAt (mark s : PyStr) : PyStr :=
  match findText mark s with
  | some p => s.take p
  | none => s

/-! ### Stripping -/

theorem strip_spec (s : PyStr) : ∃ lead trail, Blank lead ∧ Blank trail ∧ s = lead ++ strip s ++ trail := by
  have hback : ∀ t : PyStr, ∃ trail, Blank trail ∧ t = (t.reverse.dropWhile isSpace).reverse ++ trail := by
    intro t
    refine ⟨(t.reverse.takeWhile isSpace).reverse, fun c hc => ?_, ?_⟩
    · exact List.mem_takeWhile_imp (List.mem_reverse.mp hc)
    · rw [← List.reverse_append, List.takeWhile_append_dropWhile, List.reverse_reverse]
  obtain ⟨trail, htrail, hsplit⟩ := hback (s.dropWhile isSpace)
  refine ⟨s.takeWhile isSpace, trail, fun c hc => List.mem_takeWhile_imp hc, htrail, ?_⟩
  rw [List.append_assoc, strip, ← hsplit, List.takeWhile_append_dropWhile]

/-! ### Words -/

theorem words_append_space {c : Char} (hc : isSpace c = true) (x y : PyStr) :
    words (x ++ c :: y) = words x ++ words y := by
  rw [words, List.splitOnP_append_cons x y hc, List.filter_append]
  rfl

theorem words_nil : words [] = [] := rfl

theorem words_blank_append {b : PyStr} (hb : Blank b) (x : PyStr) : words (b ++ x) = words x := by
  induction b with
  | nil => rfl
  | cons c b ih =>
    have hrest := words_append_space (hb c List.mem_cons_self) [] (b ++ x)
    rw [List.nil_append, words_nil, List.nil_append] at hrest
    rw [List.cons_append, hrest]
    exact ih fun d hd => hb d (List.mem_cons_of_mem c hd)

theorem words_append_blank {b : PyStr} (hb : Blank b) (x : PyStr) : words (x ++ b) = words x := by
  cases b with
  | nil => rw [List.append_nil]
  | cons c b =>
    have hrest := words_blank_append (fun d hd => hb d (List.mem_cons_of_mem c hd)) []
    rw [List.append_nil, words_nil] at hrest
    rw [words_append_space (hb c List.mem_cons_self), hrest, List.append_nil]

/-- A text without white space is one word. -/
theorem words_of_word {w : PyStr} (hne : w ≠ []) (hw : ∀ c ∈ w, isSpace c = false) : words w = [w] := by
  rw [words, List.splitOnP_eq_singleton hw]
  cases w with
  | nil => exact absurd rfl hne
  | cons c w => rfl

/-- A word, white space, and a text. -/
theorem words_word_append {w b : PyStr} (hne : w ≠ []) (hw : ∀ c ∈ w, isSpace c = false) (hb : Blank b)
    (hbne : b ≠ []) (x : PyStr) : words (w ++ b ++ x) = w :: words x := by
  cases b with
  | nil => exact absurd rfl hbne
  | cons c b =>
    have hrest := words_blank_append (fun d hd => hb d (List.mem_cons_of_mem c hd)) x
    rw [List.append_assoc, List.cons_append, words_append_space (hb c List.mem_cons_self),
      words_of_word hne hw, hrest]
    rfl

theorem words_strip (s : PyStr) : words (strip s) = words s := by
  obtain ⟨lead, trail, hlead, htrail, hs⟩ := strip_spec s
  conv_rhs => rw [hs]
  rw [words_append_blank htrail, words_blank_append hlead]

/-! ### Lines -/

theorem lines_append_newline (x y : PyStr) : lines (x ++ '\n' :: y) = lines x ++ lines y :=
  List.splitOn_append_cons_self x y

/-- A text that ends no line stands at the start of the first one. -/
theorem lines_append {x : PyStr} (hx : '\n' ∉ x) (y : PyStr) :
    lines (x ++ y) = (lines y).modifyHead (x ++ ·) := by
  induction x with
  | nil => cases hy : lines y with
    | nil => simp [hy]
    | cons l ls => simp [hy]
  | cons c x ih =>
    have hc : c ≠ '\n' := fun h => hx (h ▸ List.mem_cons_self)
    have hrest := ih fun h => hx (List.mem_cons_of_mem c h)
    rw [lines] at hrest
    rw [List.cons_append, lines, List.splitOn_cons_eq_if_modifyHead, if_neg (by simpa using hc), hrest,
      List.modifyHead_modifyHead]
    rfl

theorem lines_of_line {x : PyStr} (hx : '\n' ∉ x) : lines x = [x] := List.splitOn_eq_singleton hx

/-- The lines of texts that are put one below the other. -/
theorem lines_intercalate {ts : List PyStr} (hne : ts ≠ []) :
    lines (['\n'].intercalate ts) = ts.flatMap lines := by
  induction ts with
  | nil => exact absurd rfl hne
  | cons t ts ih =>
    cases ts with
    | nil => simp
    | cons u us =>
      rw [List.intercalate_cons_cons, List.append_assoc, List.singleton_append, lines_append_newline,
        ih (List.cons_ne_nil u us)]
      rfl

/-! ### Marks -/

theorem cutAt_nil {mark : PyStr} : cutAt mark [] = [] := by
  rw [cutAt]
  split
  · exact List.take_nil
  · rfl

theorem cutAt_cons_of_starts {mark s : PyStr} {c : Char} (h : mark <+: c :: s) : cutAt mark (c :: s) = [] := by
  rw [cutAt, findText, if_pos h]
  rfl

theorem cutAt_cons {mark s : PyStr} {c : Char} (h : ¬ mark <+: c :: s) :
    cutAt mark (c :: s) = c :: cutAt mark s := by
  rw [cutAt, cutAt, findText, if_neg h]
  cases findText mark s with
  | none => rfl
  | some p => rfl

end PyText
