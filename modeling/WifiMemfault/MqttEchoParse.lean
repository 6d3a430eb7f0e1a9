import WifiMemfault.MqttEchoValue

/-!
# The payloads an echo passes with

`on_mqtt_publish` compares numbers, not bytes: it copies at most 15 bytes of the payload and takes what
`strtoul` makes of them.  `Spells` is the grammar of these texts: white space, a sign, digits, and anything
that does not go on with a digit.  A payload passes exactly if its first 15 bytes spell the last published
number, so the text the client has sent passes, and the text of another number does not.
-/

namespace WifiMemfault.MqttEchoParse

open MqttClient MqttThread MqttEchoValue

/-- The text of a sign, `true` for a minus. -/
def signText : Option Bool → List UInt8
  | none => []
  | some false => [43]
  | some true => [45]

/-- The value of digits after a sign: out of range it is the largest one, and a minus negates modulo
`2^32`. -/
def signedValue (sign : Option Bool) (value : ℕ) : UInt32 :=
  if value > ulongMax then UInt32.ofNat ulongMax
  else if sign = some true then 0 - UInt32.ofNat value
  else UInt32.ofNat value

/-- The text is white space, a sign, digits and a rest that does not start with a digit, and the digits
stand for `n`. -/
structure SpellsAs (text blanks : List UInt8) (sign : Option Bool) (digits rest : List UInt8)
    (n : UInt32) : Prop where
  text_eq : text = blanks ++ (signText sign ++ (digits ++ rest))
  blank : ∀ b ∈ blanks, isSpace b = true
  digits_ne : digits ≠ []
  digit : ∀ b ∈ digits, isDigit b = true
  rest_head : ∀ b ∈ rest.head?, isDigit b = false
  value : signedValue sign (decimalValue digits) = n

/-- The text spells `n`. -/
def Spells (text : List UInt8) (n : UInt32) : Prop :=
  ∃ blanks sign digits rest, SpellsAs text blanks sign digits rest n

/-! ### The three parts of a number text -/

/-- Nothing is taken where the first byte is not in `p`. -/
theorem dropWhile_of_head {p : UInt8 → Bool} {rest : List UInt8}
    (h : ∀ b ∈ rest.head?, p b = false) : rest.dropWhile p = rest ∧ rest.takeWhile p = [] := by
  cases rest with
  | nil => exact ⟨rfl, rfl⟩
  | cons b rest =>
    have hb := h b rfl
    exact ⟨List.dropWhile_cons_of_neg (by simp [hb]), List.takeWhile_cons_of_neg (by simp [hb])⟩

theorem head_dropWhile (p : UInt8 → Bool) (s : List UInt8) :
    ∀ b ∈ (s.dropWhile p).head?, p b = false := by
  intro b hb
  have h := List.head?_dropWhile_not p s
  rw [Option.mem_def.mp hb] at h
  exact h

/-- A sign, or the first of the digits, is no white space. -/
theorem head_signed {sign : Option Bool} {digits rest : List UInt8} (hne : digits ≠ [])
    (hdigits : ∀ b ∈ digits, isDigit b = true) :
    ∀ b ∈ (signText sign ++ (digits ++ rest)).head?, isSpace b = false := by
  intro b hb
  cases sign with
  | none =>
    cases digits with
    | nil => exact absurd rfl hne
    | cons d digits =>
      cases hb
      exact (digit_not_space (hdigits _ List.mem_cons_self)).1
  | some minus =>
    cases minus with
    | false =>
      cases hb
      rfl
    | true =>
      cases hb
      rfl

/-- The sign `strtoul` sees at the start of `s`, and what it leaves. -/
def signOf (s : List UInt8) : Option Bool :=
  if s.head? = some 45 then some true else if s.head? = some 43 then some false else none

def afterSign (s : List UInt8) : List UInt8 :=
  if s.head? = some 45 ∨ s.head? = some 43 then s.tail else s

theorem signText_append (s : List UInt8) : signText (signOf s) ++ afterSign s = s := by
  cases s with
  | nil => rfl
  | cons b s =>
    by_cases hminus : b = 45
    · subst hminus
      rfl
    · by_cases hplus : b = 43
      · subst hplus
        rfl
      · simp [signOf, afterSign, hminus, hplus, signText]

theorem sign_of_signed (sign : Option Bool) {digits : List UInt8} (rest : List UInt8) (hne : digits ≠ [])
    (hdigits : ∀ b ∈ digits, isDigit b = true) :
    signOf (signText sign ++ (digits ++ rest)) = sign ∧
      afterSign (signText sign ++ (digits ++ rest)) = digits ++ rest := by
  cases sign with
  | none =>
    cases digits with
    | nil => exact absurd rfl hne
    | cons d digits =>
      obtain ⟨-, hminus, hplus⟩ := digit_not_space (hdigits d List.mem_cons_self)
      simp [signOf, afterSign, signText, hminus, hplus]
  | some minus =>
    cases minus with
    | false => exact ⟨rfl, rfl⟩
    | true => exact ⟨rfl, rfl⟩

theorem strtoul_eq (s : List UInt8) :
    strtoul s = signedValue (signOf (s.dropWhile isSpace))
      (decimalValue ((afterSign (s.dropWhile isSpace)).takeWhile isDigit)) := by
  have hminus : signOf (s.dropWhile isSpace) = some true ↔ (s.dropWhile isSpace).head? = some 45 := by
    rw [signOf]
    split
    · rename_i h
      exact iff_of_true rfl h
    · rename_i h
      refine iff_of_false ?_ h
      split
      · simp
      · simp
  simp only [signedValue, hminus]
  rfl

/-! ### What `strtoul` reads -/

theorem strtoul_spells {text : List UInt8} {n : UInt32} (h : Spells text n) : strtoul text = n := by
  obtain ⟨blanks, sign, digits, rest, h⟩ := h
  have hdrop : text.dropWhile isSpace = signText sign ++ (digits ++ rest) := by
    rw [h.text_eq, List.dropWhile_append_of_pos h.blank]
    exact (dropWhile_of_head (head_signed h.digits_ne h.digit)).1
  obtain ⟨hsign, hafter⟩ := sign_of_signed sign rest h.digits_ne h.digit
  rw [strtoul_eq, hdrop, hsign, hafter, List.takeWhile_append_of_pos h.digit,
    (dropWhile_of_head h.rest_head).2, List.append_nil]
  exact h.value

/-- A text that `strtoul` reads as a number other than zero spells it. -/
theorem spells_strtoul {text : List UInt8} (h : strtoul text ≠ 0) : Spells text (strtoul text) := by
  refine ⟨text.takeWhile isSpace, signOf (text.dropWhile isSpace),
    (afterSign (text.dropWhile isSpace)).takeWhile isDigit,
    (afterSign (text.dropWhile isSpace)).dropWhile isDigit, ?_, ?_, ?_, ?_, head_dropWhile _ _,
    (strtoul_eq text).symm⟩
  · rw [List.takeWhile_append_dropWhile, signText_append, List.takeWhile_append_dropWhile]
  · exact fun b hb => List.mem_takeWhile_imp hb
  · intro hnil
    have hzero : ∀ sign, signedValue sign 0 = 0 := by
      intro sign
      cases sign with
      | none => rfl
      | some minus => cases minus <;> rfl
    rw [strtoul_eq, hnil] at h
    exact h (hzero _)
  · exact fun b hb => List.mem_takeWhile_imp hb

theorem strtoul_eq_iff {text : List UInt8} {n : UInt32} (hn : n ≠ 0) :
    strtoul text = n ↔ Spells text n := by
  constructor
  · rintro rfl
    exact spells_strtoul hn
  · exact strtoul_spells

/-! ### Passes and mismatches -/

def Passes (v : MqttVars) (payload : List UInt8) : Prop :=
  (v.onMqttPublish payload).mqttEchoFailures = v.mqttEchoFailures

def CountsMismatch (v : MqttVars) (payload : List UInt8) : Prop :=
  (v.onMqttPublish payload).mqttEchoFailures = v.mqttEchoFailures + 1

/-- The part of the payload that `on_mqtt_publish` copies. -/
def numText (payload : List UInt8) : List UInt8 := payload.take (numBufSize - 1)

/-- Every echo passes or is counted, by the number it is read as. -/
theorem echo_counted (v : MqttVars) (payload : List UInt8) (hn : v.lastPublishedCount ≠ 0) :
    (strtoul (numText payload) = v.lastPublishedCount ∧ Passes v payload) ∨
      (strtoul (numText payload) ≠ v.lastPublishedCount ∧ CountsMismatch v payload) := by
  by_cases hread : strtoul (numText payload) = v.lastPublishedCount
  · refine Or.inl ⟨hread, ?_⟩
    simp only [Passes, MqttVars.onMqttPublish]
    rw [if_neg fun h => h.2 hread]
    rfl
  · refine Or.inr ⟨hread, ?_⟩
    simp only [CountsMismatch, MqttVars.onMqttPublish]
    rw [if_pos ⟨hn, hread⟩]
    rfl

/-- **The payloads that pass.**  Once a number has been published, an echo passes exactly if its first 15
bytes spell that number, and is counted as a mismatch otherwise.  The text of a number passes exactly if it
is the published one. -/
theorem echo_passes_iff_spells (v : MqttVars) (hn : v.lastPublishedCount ≠ 0) :
    (∀ payload, (Passes v payload ↔ Spells (numText payload) v.lastPublishedCount) ∧
        (CountsMismatch v payload ↔ ¬ Spells (numText payload) v.lastPublishedCount)) ∧
      ∀ m, Passes v (decimalText m) ↔ m = v.lastPublishedCount := by
  have hpasses : ∀ payload, Passes v payload ↔ strtoul (numText payload) = v.lastPublishedCount := by
    intro payload
    rcases echo_counted v payload hn with ⟨hread, hpass⟩ | ⟨hread, hcount⟩
    · exact iff_of_true hpass hread
    · refine iff_of_false (fun hpass => ?_) hread
      exact Nat.succ_ne_self _ (hcount.symm.trans hpass)
  refine ⟨fun payload => ⟨?_, ?_⟩, fun m => ?_⟩
  · rw [hpasses, strtoul_eq_iff hn]
  · rw [← strtoul_eq_iff hn]
    rcases echo_counted v payload hn with ⟨hread, hpass⟩ | ⟨hread, hcount⟩
    · refine iff_of_false (fun hcount => ?_) (not_not_intro hread)
      exact Nat.succ_ne_self _ (hcount.symm.trans hpass)
    · exact iff_of_true hcount hread
  · rw [hpasses, numText, decimalText_fits, strtoul_decimalText]

/-- A client that has published the number seven. -/
def sevenPublished : MqttVars := { MqttVars.boot with lastPublishedCount := 7 }

theorem echo_passes_iff_spells_seven :
    (∀ payload, (Passes sevenPublished payload ↔ Spells (numText payload) 7) ∧
        (CountsMismatch sevenPublished payload ↔ ¬ Spells (numText payload) 7)) ∧
      ∀ m, Passes sevenPublished (decimalText m) ↔ m = 7 :=
  echo_passes_iff_spells sevenPublished (by decide)

/-- A corrupted payload that passes: seven with a byte after it. -/
theorem corrupted_echo_passes :
    ¬ ∀ (v : MqttVars) (payload : List UInt8), v.lastPublishedCount ≠ 0 →
      (Passes v payload ↔ payload = decimalText v.lastPublishedCount) := by
  intro h
  have hpass : Passes sevenPublished [55, 120] := by
    show (sevenPublished.onMqttPublish [55, 120]).mqttEchoFailures = _
    decide
  have htext := (h sevenPublished [55, 120] (by decide)).mp hpass
  exact absurd htext (by decide)

end WifiMemfault.MqttEchoParse
