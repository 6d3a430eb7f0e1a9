import WifiMemfault.Lib.TextPattern
import WifiMemfault.StatsParser
import Mathlib.Data.List.DropRight
import Mathlib.Data.List.Forall2

/-!
# Finding the structs in a header file

`StructParser.parse_header` of `script/nrf70_fw_stats_parser.py`.  For each struct it searches the text of the
header for the pattern `struct NAME\s*\x7b([^\x7d]+)\x7d` and reads the fields of what is between the braces.

A header of flat blocks is a sequence of texts, each up to a brace, and bodies in braces.  The search gives
the body of the first block that *opens* the struct: white space apart, `struct NAME` is what stands right
before its brace (`parseHeader_structs`).  Declarations, members and comments that only name the struct are
passed over.
-/

namespace WifiMemfault.StatsHeader

open PyText StructFields StatsParser

def nameText : StructName → PyStr
  | .rpuPhyStats => "rpu_phy_stats".toList
  | .rpuLmacStats => "rpu_lmac_stats".toList
  | .umacTxDbgParams => "umac_tx_dbg_params".toList
  | .umacRxDbgParams => "umac_rx_dbg_params".toList
  | .umacCmdEvntDbgParams => "umac_cmd_evnt_dbg_params".toList
  | .nrfWifiInterfaceStats => "nrf_wifi_interface_stats".toList

/-- `struct NAME` -/
def structMark (name : StructName) : PyStr := "struct ".toList ++ nameText name

/-- The pattern before its group. -/
def headPattern (name : StructName) : List Part :=
  (structMark name).map .char ++ [.many 0 isSpace, .char '\x7b']

def structPattern (name : StructName) : List Part :=
  headPattern name ++ [.many 1 (fun c => c ≠ '\x7d'), .char '\x7d']

/-- The group of the first match. -/
def structBody (name : StructName) (content : PyStr) : Option PyStr :=
  (search (structPattern name) content).bind fun texts => texts[(headPattern name).length]?

/-- `parse_header` of a header file with the text `content`. -/
def parseHeader (content : PyStr) : StructParser where
  structs name := (structBody name content).map parseStructFields

/-! ### The matches -/

/-- The texts of a match with `ws` before the brace. -/
def structTexts (name : StructName) (ws body : PyStr) : List PyStr :=
  (structMark name).map (fun c => [c]) ++ [ws, ['\x7b'], body, ['\x7d']]

theorem structTexts_flatten (name : StructName) (ws body post : PyStr) :
    (structTexts name ws body).flatten ++ post
      = (structMark name ++ ws) ++ '\x7b' :: (body ++ '\x7d' :: post) := by
  have hchars : ∀ word : PyStr, (word.map fun c => [c]).flatten = word := by
    intro word
    induction word with
    | nil => rfl
    | cons c word ih => rw [List.map_cons, List.flatten_cons, ih, List.singleton_append]
  simp [structTexts, hchars]

theorem structTexts_group (name : StructName) (ws body : PyStr) :
    (structTexts name ws body)[(headPattern name).length]? = some body := by
  have hlen : (headPattern name).length = ((structMark name).map fun c => [c]).length + 2 := by
    simp [headPattern]
  rw [structTexts, hlen, List.getElem?_append_right (Nat.le_add_right _ _), Nat.add_sub_cancel_left]
  rfl

theorem structPattern_eq (name : StructName) :
    structPattern name = (structMark name).map .char ++
      [.many 0 isSpace, .char '\x7b', .many 1 (fun c => c ≠ '\x7d'), .char '\x7d'] := by
  simp [structPattern, headPattern]

theorem structPattern_sealed (name : StructName) : Sealed (structPattern name) := by
  have hchars : ∀ (word : PyStr) (parts : List Part), Sealed parts → Sealed (word.map .char ++ parts) := by
    intro word parts hparts
    induction word with
    | nil => exact hparts
    | cons c word ih => exact ih
  rw [structPattern_eq]
  exact hchars _ _ ⟨by decide, by decide, trivial⟩

theorem not_closed {body : PyStr} (h : '\x7d' ∉ body) : ∀ c ∈ body, decide (c ≠ '\x7d') = true := by
  intro c hc
  refine decide_eq_true ?_
  rintro rfl
  exact h hc

/-- The readings of the pattern. -/
theorem reads_structPattern {name : StructName} {texts : List PyStr} :
    Reads (structPattern name) texts ↔
      ∃ ws body, Blank ws ∧ body ≠ [] ∧ '\x7d' ∉ body ∧ texts = structTexts name ws body := by
  rw [structPattern_eq, reads_chars]
  constructor
  · rintro ⟨_, rfl, hreads⟩
    obtain ⟨ws, _, hws, hopen, rfl⟩ := List.forall₂_cons_left_iff.mp hreads
    obtain ⟨_, rfl, hgroup⟩ := reads_char hopen
    obtain ⟨body, _, hbody, hclose, rfl⟩ := List.forall₂_cons_left_iff.mp hgroup
    obtain ⟨_, rfl, hend⟩ := reads_char hclose
    cases hend
    refine ⟨ws, body, hws.2, List.length_pos_iff.mp hbody.1, fun h => ?_, rfl⟩
    exact absurd (hbody.2 _ h) (by decide)
  · rintro ⟨ws, body, hws, hne, hbody, rfl⟩
    exact ⟨_, rfl, .cons ⟨Nat.zero_le _, hws⟩ (.cons rfl
      (.cons ⟨List.length_pos_iff.mpr hne, not_closed hbody⟩ (.cons rfl .nil)))⟩

/-- Neither brace. -/
def isPlain (c : Char) : Bool := c ≠ '\x7b' ∧ c ≠ '\x7d'

def Plain (s : PyStr) : Prop := ∀ c ∈ s, isPlain c = true

instance (s : PyStr) : Decidable (Plain s) := List.decidableBAll _ s

/-- White space apart, the text ends with `struct NAME`. -/
def Opens (name : StructName) (head : PyStr) : Prop := structMark name <:+ head.rdropWhile isSpace

instance (name : StructName) (head : PyStr) : Decidable (Opens name head) :=
  inferInstanceAs (Decidable (_ <:+ _))

theorem structMark_getLast (name : StructName) (h : structMark name ≠ []) :
    isSpace ((structMark name).getLast h) = false := by
  cases name <;> decide +revert +kernel

/-- White space is no brace. -/
theorem isPlain_of_space {c : Char} (h : isSpace c = true) : isPlain c = true := by
  refine decide_eq_true ⟨?_, ?_⟩
  · rintro rfl
    exact absurd h (by decide)
  · rintro rfl
    exact absurd h (by decide)

theorem structMark_plain (name : StructName) : Plain (structMark name) := by
  have hall : (structMark name).all isPlain = true := by cases name <;> decide +kernel
  exact List.all_eq_true.mp hall

theorem opens_iff {name : StructName} {head : PyStr} :
    Opens name head ↔ ∃ pre ws, Blank ws ∧ head = pre ++ (structMark name ++ ws) := by
  constructor
  · rintro ⟨pre, hpre⟩
    refine ⟨pre, head.rtakeWhile isSpace, fun c hc => List.mem_rtakeWhile_imp hc, ?_⟩
    rw [← List.append_assoc, hpre, List.rdropWhile_append_rtakeWhile]
  · rintro ⟨pre, ws, hws, rfl⟩
    have hmark : structMark name ≠ [] := List.cons_ne_nil _ _
    have hlast := structMark_getLast name hmark
    have hdrop : ((pre ++ structMark name) ++ ws).rdropWhile isSpace = pre ++ structMark name := by
      have hkeep : (pre ++ structMark name).rdropWhile isSpace = pre ++ structMark name := by
        rw [List.rdropWhile_eq_self_iff]
        intro hne
        rw [List.getLast_append_of_ne_nil hne hmark, hlast]
        exact Bool.false_ne_true
      have hrev : ∀ c ∈ ws.reverse, isSpace c = true := fun c hc => hws c (List.mem_reverse.mp hc)
      rw [List.rdropWhile, List.reverse_append, List.dropWhile_append_of_pos hrev]
      exact hkeep
    rw [Opens, ← List.append_assoc, hdrop]
    exact List.suffix_append _ _

/-- A match up to the next brace. -/
theorem match_at_brace {name : StructName} {u v : PyStr} {c : Char} (hu : Plain u)
    (hc : c = '\x7b' ∨ c = '\x7d') {texts : List PyStr}
    (h : matchHere (structPattern name) (u ++ c :: v) = some texts) :
    c = '\x7b' ∧ ∃ ws body post, Blank ws ∧ u = structMark name ++ ws ∧ body ≠ [] ∧ '\x7d' ∉ body ∧
      v = body ++ '\x7d' :: post ∧ texts = structTexts name ws body := by
  obtain ⟨hreads, post, hs⟩ := matchHere_sound h
  obtain ⟨ws, body, hws, hne, hbody, rfl⟩ := reads_structPattern.mp hreads
  rw [structTexts_flatten] at hs
  have hmark : ∀ e ∈ structMark name ++ ws, isPlain e = true := by
    intro e he
    rcases List.mem_append.mp he with he | he
    · exact structMark_plain name e he
    · exact isPlain_of_space (hws e he)
  have hbrace : isPlain c = false := by
    rcases hc with rfl | rfl
    · decide
    · decide
  obtain ⟨hu', hc', hv⟩ := split_at_first hu hmark hbrace (by decide) hs
  exact ⟨hc', ws, body, post, hws, hu', hne, hbody, hv, rfl⟩

/-! ### The search -/

/-- A brace that opens no such struct is passed over. -/
theorem search_plain {name : StructName} {u v : PyStr} {c : Char} (hu : Plain u)
    (hc : c = '\x7b' ∨ c = '\x7d') (hopens : c = '\x7b' → ¬ Opens name u) :
    search (structPattern name) (u ++ c :: v) = search (structPattern name) v := by
  have hnone : ∀ w, w <:+ u → matchHere (structPattern name) (w ++ c :: v) = none := by
    intro w hw
    by_contra hsome
    obtain ⟨texts, htexts⟩ := Option.ne_none_iff_exists'.mp hsome
    have hplain : Plain w := fun e he => hu e (hw.subset he)
    obtain ⟨hbrace, ws, -, -, hws, hmark, -⟩ := match_at_brace hplain hc htexts
    obtain ⟨pre, hpre⟩ := hw
    exact hopens hbrace (opens_iff.mpr ⟨pre, ws, hws, by rw [← hmark, hpre]⟩)
  rw [search_append fun w _ hw => hnone w hw]
  exact search_cons (hnone [] (List.nil_suffix))

/-- The brace that opens the struct. -/
theorem search_opens {name : StructName} {u body : PyStr} (hu : Plain u) (hopens : Opens name u)
    (hne : body ≠ []) (hbody : '\x7d' ∉ body) (post : PyStr) :
    ∃ ws, search (structPattern name) (u ++ '\x7b' :: (body ++ '\x7d' :: post))
      = some (structTexts name ws body) := by
  obtain ⟨pre, ws, hws, rfl⟩ := opens_iff.mp hopens
  induction pre with
  | nil =>
    refine ⟨ws, search_of_match ?_⟩
    rw [List.nil_append, ← structTexts_flatten]
    exact matchHere_sealed (structPattern_sealed name)
      (reads_structPattern.mpr ⟨ws, body, hws, hne, hbody, rfl⟩) post
  | cons c pre ih =>
    cases hhere : matchHere (structPattern name)
        ((c :: pre ++ (structMark name ++ ws)) ++ '\x7b' :: (body ++ '\x7d' :: post)) with
    | some texts =>
      obtain ⟨-, ws', body', post', -, -, -, hbody', hsplit, rfl⟩ := match_at_brace hu (Or.inl rfl) hhere
      obtain ⟨rfl, -⟩ := split_at_first (not_closed hbody) (not_closed hbody') (by decide) (by decide) hsplit
      exact ⟨ws', search_of_match hhere⟩
    | none =>
      have hrest : Plain (pre ++ (structMark name ++ ws)) := fun e he => hu e (List.mem_cons_of_mem c he)
      obtain ⟨ws', hfound⟩ := ih hrest (opens_iff.mpr ⟨pre, ws, hws, rfl⟩)
      exact ⟨ws', (search_cons hhere).trans hfound⟩

/-! ### Headers of flat blocks -/

/-- A text up to a brace, and a body in braces. -/
structure Block where
  head : PyStr
  body : PyStr
  head_plain : Plain head
  body_plain : Plain body
  body_ne_nil : body ≠ []

theorem Block.not_closed (b : Block) : '\x7d' ∉ b.body := fun h => absurd (b.body_plain _ h) (by decide)

def Block.text (b : Block) : PyStr := b.head ++ '\x7b' :: (b.body ++ ['\x7d'])

structure Header where
  blocks : List Block
  tail : PyStr
  tail_open : '\x7b' ∉ tail

def Header.text (h : Header) : PyStr := h.blocks.flatMap Block.text ++ h.tail

/-- The first block that opens the struct. -/
def Header.bodyOf (h : Header) (name : StructName) : Option PyStr :=
  (h.blocks.find? fun b => Opens name b.head).map Block.body

/-- Without a brace there is nothing to find. -/
theorem search_tail (name : StructName) {s : PyStr} (hs : '\x7b' ∉ s) : search (structPattern name) s = none := by
  have hnone : ∀ w, w <:+ s → matchHere (structPattern name) w = none := by
    intro w hw
    by_contra hsome
    obtain ⟨texts, htexts⟩ := Option.ne_none_iff_exists'.mp hsome
    obtain ⟨hreads, post, rfl⟩ := matchHere_sound htexts
    obtain ⟨ws, body, -, -, -, rfl⟩ := reads_structPattern.mp hreads
    rw [structTexts_flatten] at hw
    exact hs (hw.subset (List.mem_append_right _ List.mem_cons_self))
  have hsearch : search (structPattern name) (s ++ []) = search (structPattern name) [] := by
    refine search_append fun w _ hw => ?_
    rw [List.append_nil]
    exact hnone w hw
  rw [List.append_nil] at hsearch
  exact hsearch.trans (hnone [] List.nil_suffix)

/-- **The search over the blocks.** -/
theorem structBody_text (h : Header) (name : StructName) : structBody name h.text = h.bodyOf name := by
  rw [structBody, Header.text, Header.bodyOf]
  induction h.blocks with
  | nil =>
    rw [List.flatMap_nil, List.nil_append, search_tail name h.tail_open]
    rfl
  | cons b blocks ih =>
    have htext : (b :: blocks).flatMap Block.text ++ h.tail
        = b.head ++ '\x7b' :: (b.body ++ '\x7d' :: (blocks.flatMap Block.text ++ h.tail)) := by
      simp [Block.text]
    rw [htext]
    by_cases hopens : Opens name b.head
    · obtain ⟨ws, hfound⟩ := search_opens b.head_plain hopens b.body_ne_nil b.not_closed
        (blocks.flatMap Block.text ++ h.tail)
      rw [hfound, Option.bind_some, structTexts_group, List.find?_cons_of_pos (by simpa using hopens)]
      rfl
    · rw [search_plain b.head_plain (Or.inl rfl) fun _ => hopens,
        search_plain b.body_plain (Or.inr rfl) fun h => absurd h (by decide),
        List.find?_cons_of_neg (by simpa using hopens)]
      exact ih

/-- **The structs of a header.** -/
theorem parseHeader_structs (h : Header) (name : StructName) :
    (parseHeader h.text).structs name = (h.bodyOf name).map parseStructFields := by
  rw [← structBody_text]
  rfl

end WifiMemfault.StatsHeader
