import WifiMemfault.Lib.PyText

/-!
# Patterns in a text

Regular expressions that are a sequence of characters and repeated classes, with the search of Python's `re`:
`matchHere` gives each repetition as many characters as it can and fewer if the rest does not match, and
`search` takes the first place where that succeeds.  Of a match the text of every part is returned.

A match is always a way to read the text (`matchHere_sound`) and is found if there is one
(`matchHere_complete`).  In a *sealed* pattern a character that a repetition cannot take follows each one, and
there is one reading only (`matchHere_sealed`).
-/

namespace PyText

/-- A part of a pattern: a character, or a class of characters that is repeated at least `atLeast` times. -/
inductive Part where
  | char (c : Char)
  | many (atLeast : ℕ) (cls : Char → Bool)

/-- A text that the part can stand for. -/
def Part.Fits : Part → PyStr → Prop
  | .char c, t => t = [c]
  | .many atLeast cls, t => atLeast ≤ t.length ∧ ∀ c ∈ t, cls c = true

/-- A way to read a text as the pattern. -/
abbrev Reads (parts : List Part) (texts : List PyStr) : Prop := List.Forall₂ Part.Fits parts texts

/-! ### Matching -/

/-- The first success, from `n` down to zero. -/
def longest {α : Type} (f : ℕ → Option α) : ℕ → Option α
  | 0 => f 0
  | n + 1 => match f (n + 1) with
    | some a => some a
    | none => longest f n

/-- A match at the start of a text. -/
def matchHere : List Part → PyStr → Option (List PyStr)
  | [], _ => some []
  | .char _ :: _, [] => none
  | .char c :: parts, d :: s => if d = c then (matchHere parts s).map ([c] :: ·) else none
  | .many atLeast cls :: parts, s =>
    longest (fun n => if atLeast ≤ n then (matchHere parts (s.drop n)).map (s.take n :: ·) else none)
      (s.takeWhile cls).length

/-- `re.search` -/
def search (parts : List Part) : PyStr → Option (List PyStr)
  | [] => matchHere parts []
  | c :: s => match matchHere parts (c :: s) with
    | some texts => some texts
    | none => search parts s

theorem longest_some {α : Type} {f : ℕ → Option α} {n : ℕ} {a : α} (h : longest f n = some a) :
    ∃ k ≤ n, f k = some a := by
  induction n with
  | zero => exact ⟨0, le_rfl, h⟩
  | succ n ih =>
    rw [longest] at h
    split at h
    · exact ⟨n + 1, le_rfl, ‹f (n + 1) = some _›.trans h⟩
    · obtain ⟨k, hk, hf⟩ := ih h
      exact ⟨k, hk.trans (Nat.le_succ n), hf⟩

theorem longest_isSome {α : Type} {f : ℕ → Option α} {n k : ℕ} (hk : k ≤ n) (h : (f k).isSome = true) :
    (longest f n).isSome = true := by
  induction n with
  | zero =>
    rw [Nat.le_zero.mp hk] at h
    exact h
  | succ n ih =>
    rw [longest]
    split
    · rfl
    · rcases Nat.le_succ_iff.mp hk with hk | rfl
      · exact ih hk
      · simp_all

/-- Every character that is taken is of the class. -/
theorem take_of_le_takeWhile {cls : Char → Bool} {s : PyStr} {n : ℕ} (hn : n ≤ (s.takeWhile cls).length) :
    (∀ c ∈ s.take n, cls c = true) ∧ (s.take n).length = n := by
  have htake : s.take n = (s.takeWhile cls).take n := by
    conv_lhs => rw [← List.takeWhile_append_dropWhile (p := cls) (l := s)]
    rw [List.take_append_of_le_length hn]
  rw [htake]
  exact ⟨fun c hc => List.mem_takeWhile_imp (List.mem_of_mem_take hc), List.length_take_of_le hn⟩

/-- **A match is a reading.** -/
theorem matchHere_sound {parts : List Part} {s : PyStr} {texts : List PyStr}
    (h : matchHere parts s = some texts) : Reads parts texts ∧ ∃ post, s = texts.flatten ++ post := by
  induction parts generalizing s texts with
  | nil =>
    cases h
    exact ⟨.nil, s, rfl⟩
  | cons part parts ih =>
    cases part with
    | char c =>
      cases s with
      | nil => cases h
      | cons d s =>
        rw [matchHere] at h
        split at h
        · obtain ⟨more, hmore, rfl⟩ := Option.map_eq_some_iff.mp h
          obtain ⟨hreads, post, hs⟩ := ih hmore
          refine ⟨.cons rfl hreads, post, ?_⟩
          rw [‹d = c›, hs]
          rfl
        · cases h
    | many atLeast cls =>
      rw [matchHere] at h
      obtain ⟨n, hn, hf⟩ := longest_some h
      split at hf
      · obtain ⟨more, hmore, rfl⟩ := Option.map_eq_some_iff.mp hf
        obtain ⟨hreads, post, hs⟩ := ih hmore
        obtain ⟨hcls, hlen⟩ := take_of_le_takeWhile hn
        refine ⟨.cons ⟨?_, hcls⟩ hreads, post, ?_⟩
        · rwa [hlen]
        · rw [List.flatten_cons, List.append_assoc, ← hs, List.take_append_drop]
      · cases hf

/-- **A reading is matched.** -/
theorem matchHere_complete {parts : List Part} {texts : List PyStr} (h : Reads parts texts) (post : PyStr) :
    (matchHere parts (texts.flatten ++ post)).isSome = true := by
  induction h with
  | nil => rfl
  | @cons part text parts texts hfits hreads ih =>
    rw [List.flatten_cons, List.append_assoc]
    cases part with
    | char c =>
      cases hfits
      rw [List.singleton_append, matchHere, if_pos rfl, Option.isSome_map]
      exact ih
    | many atLeast cls =>
      rw [matchHere]
      have hlen : text.length ≤ ((text ++ (texts.flatten ++ post)).takeWhile cls).length := by
        rw [List.takeWhile_append_of_pos hfits.2, List.length_append]
        exact Nat.le_add_right _ _
      refine longest_isSome hlen ?_
      rw [if_pos hfits.1, List.drop_left, Option.isSome_map]
      exact ih

/-! ### Sealed patterns -/

/-- Behind each repetition stands a character it cannot take. -/
def Sealed : List Part → Prop
  | [] => True
  | .char _ :: parts => Sealed parts
  | [.many _ _] => False
  | .many _ cls :: .char c :: parts => cls c = false ∧ Sealed (.char c :: parts)
  | .many _ _ :: .many _ _ :: _ => False

/-- Two texts of a class, each followed by a character outside it. -/
theorem split_at_first {cls : Char → Bool} {u v x y : PyStr} {c d : Char} (hu : ∀ e ∈ u, cls e = true)
    (hv : ∀ e ∈ v, cls e = true) (hc : cls c = false) (hd : cls d = false)
    (h : u ++ c :: x = v ++ d :: y) : u = v ∧ c = d ∧ x = y := by
  have hcut : ∀ w e z, (∀ e ∈ w, cls e = true) → cls e = false → (w ++ e :: z).takeWhile cls = w := by
    intro w e z hw he
    rw [List.takeWhile_append_of_pos hw, List.takeWhile_cons_of_neg (by rw [he]; exact Bool.false_ne_true),
      List.append_nil]
  have huv : u = v := by
    rw [← hcut u c x hu hc, h, hcut v d y hv hd]
  rw [huv, List.append_cancel_left_eq, List.cons.injEq] at h
  exact ⟨huv, h⟩

theorem reads_char {c : Char} {parts : List Part} {texts : List PyStr} (h : Reads (.char c :: parts) texts) :
    ∃ more, texts = [c] :: more ∧ Reads parts more := by
  cases h with
  | @cons _ text _ more hfits hreads => exact ⟨more, by rw [show text = [c] from hfits], hreads⟩

/-- The characters of a word. -/
theorem reads_chars {word : PyStr} {parts : List Part} {texts : List PyStr} :
    Reads (word.map .char ++ parts) texts ↔ ∃ more, texts = word.map (fun c => [c]) ++ more ∧ Reads parts more := by
  induction word generalizing texts with
  | nil => exact ⟨fun h => ⟨texts, rfl, h⟩, fun ⟨_, htexts, h⟩ => htexts ▸ h⟩
  | cons c word ih =>
    constructor
    · intro h
      obtain ⟨rest, rfl, hrest⟩ := reads_char h
      obtain ⟨more, rfl, hmore⟩ := ih.mp hrest
      exact ⟨more, rfl, hmore⟩
    · rintro ⟨more, rfl, hmore⟩
      exact .cons rfl (ih.mpr ⟨more, rfl, hmore⟩)

/-- A text has one reading. -/
theorem reads_unique {parts : List Part} (hsealed : Sealed parts) {texts texts' : List PyStr}
    (h : Reads parts texts) (h' : Reads parts texts') {post post' : PyStr}
    (heq : texts.flatten ++ post = texts'.flatten ++ post') : texts = texts' ∧ post = post' := by
  induction parts using Sealed.induct generalizing texts texts' with
  | case1 =>
    cases h
    cases h'
    exact ⟨rfl, heq⟩
  | case2 c parts ih =>
    obtain ⟨more, rfl, hmore⟩ := reads_char h
    obtain ⟨more', rfl, hmore'⟩ := reads_char h'
    obtain ⟨htexts, hpost⟩ := ih hsealed hmore hmore' (List.cons.inj heq).2
    exact ⟨congrArg _ htexts, hpost⟩
  | case3 => exact hsealed.elim
  | case4 atLeast cls c parts ih =>
    cases h with
    | @cons _ text _ more hfits hreads =>
    cases h' with
    | @cons _ text' _ more' hfits' hreads' =>
    obtain ⟨rest, rfl, -⟩ := reads_char hreads
    obtain ⟨rest', rfl, -⟩ := reads_char hreads'
    simp only [List.flatten_cons, List.append_assoc, List.singleton_append] at heq
    obtain ⟨htext, -, hrest⟩ := split_at_first hfits.2 hfits'.2 hsealed.1 hsealed.1 heq
    have hrest : ([c] :: rest).flatten ++ post = ([c] :: rest').flatten ++ post' := congrArg (c :: ·) hrest
    obtain ⟨hmore, hpost⟩ := ih hsealed.2 hreads hreads' hrest
    exact ⟨by rw [htext, hmore], hpost⟩
  | case5 => exact hsealed.elim

/-- **The match of a sealed pattern.** -/
theorem matchHere_sealed {parts : List Part} (hsealed : Sealed parts) {texts : List PyStr}
    (h : Reads parts texts) (post : PyStr) : matchHere parts (texts.flatten ++ post) = some texts := by
  obtain ⟨found, hfound⟩ := Option.isSome_iff_exists.mp (matchHere_complete h post)
  obtain ⟨hreads, post', hsplit⟩ := matchHere_sound hfound
  rw [hfound, (reads_unique hsealed h hreads hsplit).1]

/-! ### Searching -/

theorem search_of_match {parts : List Part} {s : PyStr} {texts : List PyStr}
    (h : matchHere parts s = some texts) : search parts s = some texts := by
  cases s with
  | nil => exact h
  | cons c s => rw [search, h]

theorem search_cons {parts : List Part} {c : Char} {s : PyStr} (h : matchHere parts (c :: s) = none) :
    search parts (c :: s) = search parts s := by
  rw [search, h]

/-- A search goes on behind a text where no match starts. -/
theorem search_append {parts : List Part} {u s : PyStr}
    (h : ∀ v, v ≠ [] → v <:+ u → matchHere parts (v ++ s) = none) : search parts (u ++ s) = search parts s := by
  induction u with
  | nil => rfl
  | cons c u ih =>
    have hhere := h (c :: u) (List.cons_ne_nil c u) List.suffix_rfl
    exact (search_cons hhere).trans <| ih fun v hne hv => h v hne (hv.trans (List.suffix_cons c u))

end PyText
