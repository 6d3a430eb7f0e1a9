import WifiMemfault.MqttThreadSteps
import Mathlib.Data.List.TakeWhile
import Mathlib.Order.Basic

/-!
# The value of an echo

A broker that accepts every message and echoes it once, unchanged, before the next is handed over.  The
echo carries the number of the last message, but `on_mqtt_publish` compares it with `last_published_count`,
which is set only when `mqtt_helper_publish` has returned.  An echo that is faster is a value mismatch,
unless no number has been stored yet.
-/

namespace WifiMemfault.MqttEchoValue

open MqttClient MqttThread

/-! ### The text of a number -/

/-- `snprintk(payload, sizeof(payload), "%u", n)`. -/
def decimalText (n : UInt32) : List UInt8 :=
  (Nat.toDigits 10 n.toNat).map fun c => UInt8.ofNat c.toNat

theorem digit_toNat {c : Char} (h : c.isDigit = true) : (UInt8.ofNat c.toNat).toNat = c.toNat := by
  have hrange := Char.isDigit_iff_toNat.mp h
  have h9 : '9'.toNat = 57 := rfl
  rw [UInt8.toNat_ofNat']
  exact Nat.mod_eq_of_lt (by omega)

theorem digit_isDigit {c : Char} (h : c.isDigit = true) : isDigit (UInt8.ofNat c.toNat) = true := by
  have hrange := Char.isDigit_iff_toNat.mp h
  have h0 : '0'.toNat = 48 := rfl
  have h9 : '9'.toNat = 57 := rfl
  refine decide_eq_true ⟨?_, ?_⟩
  · rw [UInt8.le_iff_toNat_le, digit_toNat h]
    show 48 ≤ c.toNat
    omega
  · rw [UInt8.le_iff_toNat_le, digit_toNat h]
    show c.toNat ≤ 57
    omega

theorem decimalText_digits (n : UInt32) : ∀ b ∈ decimalText n, isDigit b = true := by
  intro b hb
  obtain ⟨c, hc, rfl⟩ := List.mem_map.mp hb
  exact digit_isDigit (Nat.isDigit_of_mem_toDigits (by decide) (by decide) hc)

theorem decimalText_length_le (n : UInt32) : (decimalText n).length ≤ 10 := by
  rw [decimalText, List.length_map, Nat.length_toDigits_le_iff (by decide) (by decide)]
  have hlt := UInt32.toNat_lt n
  omega

theorem decimalText_ne_nil (n : UInt32) : decimalText n ≠ [] := by
  rw [decimalText, ne_eq, List.map_eq_nil_iff]
  exact Nat.toDigits_ne_nil

/-- The bytes of digit characters have the value of the characters. -/
theorem foldl_digits (cs : List Char) (h : ∀ c ∈ cs, c.isDigit = true) (n : ℕ) :
    (cs.map fun c => UInt8.ofNat c.toNat).foldl (fun n b => 10 * n + (b.toNat - 48)) n
      = Nat.ofDigitChars 10 cs n := by
  induction cs generalizing n with
  | nil => rfl
  | cons c cs ih =>
    rw [List.map_cons, List.foldl_cons, Nat.ofDigitChars_cons, digit_toNat (h c List.mem_cons_self)]
    exact ih (fun d hd => h d (List.mem_cons_of_mem _ hd)) _

theorem decimalValue_decimalText (n : UInt32) : decimalValue (decimalText n) = n.toNat := by
  have hdigits : ∀ c ∈ Nat.toDigits 10 n.toNat, c.isDigit = true :=
    fun c hc => Nat.isDigit_of_mem_toDigits (by decide) (by decide) hc
  rw [decimalValue, decimalText, foldl_digits _ hdigits, Nat.ofDigitChars_ten_toDigits]

/-- No digit is white space or a sign. -/
theorem digit_not_space {b : UInt8} (h : isDigit b = true) :
    isSpace b = false ∧ b ≠ 45 ∧ b ≠ 43 := by
  obtain ⟨h48, -⟩ := of_decide_eq_true h
  rw [UInt8.le_iff_toNat_le] at h48
  have h48' : 48 ≤ b.toNat := h48
  refine ⟨decide_eq_false ?_, ?_, ?_⟩
  · rintro (rfl | ⟨-, h13⟩)
    · exact absurd h48' (by decide)
    · rw [UInt8.le_iff_toNat_le] at h13
      have h13' : b.toNat ≤ 13 := h13
      omega
  · rintro rfl
    exact absurd h48' (by decide)
  · rintro rfl
    exact absurd h48' (by decide)

/-- **The round trip.**  `strtoul` reads what `snprintk` has written. -/
theorem strtoul_decimalText (n : UInt32) : strtoul (decimalText n) = n := by
  have hvalue := decimalValue_decimalText n
  have hall := decimalText_digits n
  cases htext : decimalText n with
  | nil => exact absurd htext (decimalText_ne_nil n)
  | cons b rest =>
    rw [htext] at hvalue hall
    obtain ⟨hspace, hminus, hplus⟩ := digit_not_space (hall b List.mem_cons_self)
    have hdrop : (b :: rest).dropWhile isSpace = b :: rest :=
      List.dropWhile_cons_of_neg (by rw [hspace]; exact Bool.false_ne_true)
    have htake : (b :: rest).takeWhile isDigit = b :: rest := List.takeWhile_eq_self_iff.mpr hall
    have hlt := UInt32.toNat_lt n
    have hmax : ulongMax = 2 ^ 32 - 1 := rfl
    have hsigns : ¬ (some b = some 45 ∨ some b = some 43) := by
      rintro (h | h)
      · exact hminus (Option.some.inj h)
      · exact hplus (Option.some.inj h)
    rw [strtoul, hdrop, List.head?_cons]
    simp only [if_neg hsigns, htake, hvalue]
    rw [if_neg (by omega), if_neg (by simpa using hminus), UInt32.ofNat_toNat]

/-- The buffer of `on_mqtt_publish` holds the text of every number. -/
theorem decimalText_fits (n : UInt32) : (decimalText n).take (numBufSize - 1) = decimalText n :=
  List.take_of_length_le ((decimalText_length_le n).trans (by decide))

/-! ### The broker -/

structure BrokerRun where
  sys : MqttSystem
  /-- The echo that is on its way. -/
  echo : Option (List UInt8)

def BrokerRun.boot : BrokerRun := ⟨MqttSystem.boot, none⟩

inductive BrokerEvent where
  | client (e : MqttEvent)
  | echo

variable (cfg : MqttConfig)

/-- The helper accepts every message. -/
def accepted (s : MqttSystem) : MqttEvent → MqttEvent
  | .thread i => .thread (if s.pc = .helperPublish then { i with helperErr := 0 } else i)
  | e => e

/-- One event.  A message handed over sends its echo on the way, and is not handed over while another
echo still is.  Every `on_mqtt_publish` is an echo. -/
def stepBroker (b : BrokerRun) : BrokerEvent → BrokerRun
  | .echo =>
    match b.echo with
    | some payload => ⟨stepMqtt cfg b.sys (.onMqttPublish payload), none⟩
    | none => b
  | .client (.onMqttPublish _) => b
  | .client e =>
    let sys := stepMqtt cfg b.sys (accepted b.sys e)
    if b.sys.pc = .publish ∧ sys.pc = .helperPublish then
      if b.echo = none then ⟨sys, some (decimalText sys.vars.messageCount)⟩ else b
    else ⟨sys, b.echo⟩

/-- An echo counts no value mismatch. -/
def NoMismatch (b : BrokerRun) : BrokerEvent → Prop
  | .echo => (stepBroker cfg b .echo).sys.vars.mqttEchoFailures = b.sys.vars.mqttEchoFailures
  | .client _ => True

/-- An echo does not come before `mqtt_helper_publish` has returned, but for message 1. -/
def EchoAfterReturn (b : BrokerRun) : BrokerEvent → Prop
  | .echo => b.echo ≠ none → b.sys.pc = .helperPublish → b.sys.vars.messageCount = 1
  | .client _ => True

instance (b : BrokerRun) (e : BrokerEvent) : Decidable (NoMismatch cfg b e) :=
  match e with
  | .echo => inferInstanceAs (Decidable (_ = _))
  | .client _ => inferInstanceAs (Decidable True)

instance (b : BrokerRun) (e : BrokerEvent) : Decidable (EchoAfterReturn b e) :=
  match e with
  | .echo => inferInstanceAs (Decidable (_ → _ → _))
  | .client _ => inferInstanceAs (Decidable True)

/-! ### One step -/

/-- The stored number is that of the last message, or the one before while the last is handed over; an
echo on its way is that of the last message. -/
structure BrokerInv (b : BrokerRun) : Prop where
  handing : b.sys.pc = .helperPublish →
    b.sys.vars.lastPublishedCount + 1 = b.sys.vars.messageCount
  stored : b.sys.pc ≠ .helperPublish → b.sys.vars.lastPublishedCount = b.sys.vars.messageCount
  echo_eq : ∀ payload, b.echo = some payload → payload = decimalText b.sys.vars.messageCount

theorem onMqttPublish_publishCounters (v : MqttVars) (payload : List UInt8) :
    (v.onMqttPublish payload).messageCount = v.messageCount ∧
      (v.onMqttPublish payload).lastPublishedCount = v.lastPublishedCount := by
  simp only [MqttVars.onMqttPublish]
  split
  · exact ⟨rfl, rfl⟩
  · exact ⟨rfl, rfl⟩

/-- An echo of message `n` counts a failure if and only if another number is stored. -/
theorem onMqttPublish_failures (v : MqttVars) (n : UInt32) :
    (v.onMqttPublish (decimalText n)).mqttEchoFailures = v.mqttEchoFailures ↔
      ¬ (v.lastPublishedCount ≠ 0 ∧ n ≠ v.lastPublishedCount) := by
  simp only [MqttVars.onMqttPublish]
  rw [decimalText_fits, strtoul_decimalText]
  split
  · rename_i hmismatch
    exact iff_of_false (Nat.succ_ne_self _) (not_not_intro hmismatch)
  · rename_i hmatch
    exact iff_of_true rfl hmatch

theorem brokerInv_boot : BrokerInv BrokerRun.boot := ⟨nofun, fun _ => rfl, nofun⟩

variable {cfg}

theorem brokerInv_echo (b : BrokerRun) (h : BrokerInv b) : BrokerInv (stepBroker cfg b .echo) := by
  rw [stepBroker]
  cases b.echo with
  | none => exact h
  | some payload =>
    obtain ⟨hm, hl⟩ := onMqttPublish_publishCounters b.sys.vars payload
    refine ⟨fun hpc => ?_, fun hpc => ?_, nofun⟩
    · show (b.sys.vars.onMqttPublish payload).lastPublishedCount + 1
        = (b.sys.vars.onMqttPublish payload).messageCount
      rw [hm, hl]
      exact h.handing hpc
    · show (b.sys.vars.onMqttPublish payload).lastPublishedCount
        = (b.sys.vars.onMqttPublish payload).messageCount
      rw [hm, hl]
      exact h.stored hpc

/-- A publish that the helper accepts stores its number. -/
theorem mqttHelperPublished_stored (v : MqttVars) :
    (v.mqttHelperPublished 0).messageCount = v.messageCount ∧
      (v.mqttHelperPublished 0).lastPublishedCount = v.messageCount := by
  simp only [MqttVars.mqttHelperPublished, ne_eq, not_true_eq_false, if_false]
  split
  · exact ⟨rfl, rfl⟩
  · exact ⟨rfl, rfl⟩

/-- An event of the client that is no echo. -/
theorem stepBroker_client (b : BrokerRun) {e : MqttEvent} (he : ∀ payload, e ≠ .onMqttPublish payload) :
    stepBroker cfg b (.client e) =
      if b.sys.pc = .publish ∧ (stepMqtt cfg b.sys (accepted b.sys e)).pc = .helperPublish then
        if b.echo = none then
          ⟨stepMqtt cfg b.sys (accepted b.sys e),
            some (decimalText (stepMqtt cfg b.sys (accepted b.sys e)).vars.messageCount)⟩
        else b
      else ⟨stepMqtt cfg b.sys (accepted b.sys e), b.echo⟩ := by
  cases e with
  | onMqttPublish payload => exact absurd rfl (he payload)
  | _ => rfl

/-- The helper has accepted the message that is published. -/
theorem accepted_helperErr {s : MqttSystem} {e : MqttEvent} {i : ThreadInput}
    (hs : s.pc = .helperPublish) (h : accepted s e = .thread i) : i.helperErr = 0 := by
  cases e with
  | thread j =>
    have hj : (if s.pc = .helperPublish then { j with helperErr := 0 } else j) = i :=
      MqttEvent.thread.inj h
    rw [if_pos hs] at hj
    rw [← hj]
  | _ => cases h

/-- The invariant reads the counters, and whether a message is being handed over. -/
theorem brokerInv_same {b : BrokerRun} {s : MqttSystem} (h : BrokerInv b)
    (hcounters : publishCounters s.vars = publishCounters b.sys.vars)
    (hpc : s.pc = .helperPublish ↔ b.sys.pc = .helperPublish) : BrokerInv ⟨s, b.echo⟩ := by
  have hm : s.vars.messageCount = b.sys.vars.messageCount :=
    congrArg PublishCounters.messageCount hcounters
  have hl : s.vars.lastPublishedCount = b.sys.vars.lastPublishedCount :=
    congrArg PublishCounters.lastPublishedCount hcounters
  refine ⟨fun hh => ?_, fun hh => ?_, fun payload hp => ?_⟩
  · show s.vars.lastPublishedCount + 1 = s.vars.messageCount
    rw [hm, hl]
    exact h.handing (hpc.mp hh)
  · show s.vars.lastPublishedCount = s.vars.messageCount
    rw [hm, hl]
    exact h.stored fun hh' => hh (hpc.mpr hh')
  · show payload = decimalText s.vars.messageCount
    rw [hm]
    exact h.echo_eq payload hp

theorem brokerInv_client (b : BrokerRun) (e : MqttEvent) (he : ∀ payload, e ≠ .onMqttPublish payload)
    (h : BrokerInv b) : BrokerInv (stepBroker cfg b (.client e)) := by
  have hstep := stepMqtt_publishStep cfg b.sys (accepted b.sys e)
  rw [stepBroker_client b he]
  generalize stepMqtt cfg b.sys (accepted b.sys e) = s' at hstep ⊢
  generalize hacc : accepted b.sys e = e' at hstep
  cases hstep with
  | echo payload =>
    cases e with
    | onMqttPublish payload' => exact absurd rfl (he payload')
    | _ => cases hacc
  | other e' s' hecho hpublished hcounters hpc =>
    have hnot : ¬ (b.sys.pc = .publish ∧ s'.pc = .helperPublish) := by
      rintro ⟨hpublish, hhanding⟩
      rw [hpc.mp hhanding] at hpublish
      cases hpublish
    rw [if_neg hnot]
    exact brokerInv_same h hcounters hpc
  | handsOver i hs =>
    rw [if_pos ⟨hs, rfl⟩]
    split
    · refine ⟨fun _ => ?_, fun hh => absurd rfl hh, fun payload hp => (Option.some.inj hp).symm⟩
      show b.sys.vars.lastPublishedCount + 1 = b.sys.vars.messageCount + 1
      rw [h.stored (by rw [hs]; exact nofun)]
    · exact h
  | published i wake hs =>
    have hnot : ¬ (b.sys.pc = .publish ∧ MqttPc.publishSleep wake = .helperPublish) := nofun
    obtain ⟨hm, hl⟩ := mqttHelperPublished_stored b.sys.vars
    rw [if_neg hnot, accepted_helperErr hs hacc]
    refine ⟨nofun, fun _ => ?_, fun payload hp => ?_⟩
    · show (b.sys.vars.mqttHelperPublished 0).lastPublishedCount
        = (b.sys.vars.mqttHelperPublished 0).messageCount
      rw [hm, hl]
    · show payload = decimalText (b.sys.vars.mqttHelperPublished 0).messageCount
      rw [hm]
      exact h.echo_eq payload hp

theorem brokerInv_step (b : BrokerRun) (e : BrokerEvent) (h : BrokerInv b) :
    BrokerInv (stepBroker cfg b e) := by
  cases e with
  | echo => exact brokerInv_echo b h
  | client e =>
    cases e with
    | onMqttPublish payload => exact h
    | _ => exact brokerInv_client b _ nofun h

/-- While a message is handed over, the stored number is zero if and only if it is message 1. -/
theorem noMismatch_iff (b : BrokerRun) (e : BrokerEvent) (h : BrokerInv b) :
    NoMismatch cfg b e ↔ EchoAfterReturn b e := by
  cases e with
  | client e => exact Iff.rfl
  | echo =>
    rw [NoMismatch, EchoAfterReturn, stepBroker]
    cases hecho : b.echo with
    | none => exact iff_of_true rfl fun hnone => absurd rfl hnone
    | some payload =>
      rw [h.echo_eq payload hecho]
      refine (onMqttPublish_failures b.sys.vars b.sys.vars.messageCount).trans ?_
      by_cases hpc : b.sys.pc = .helperPublish
      · have hnext := h.handing hpc
        have hone : b.sys.vars.lastPublishedCount = 0 ↔ b.sys.vars.messageCount = 1 := by
          rw [← hnext]
          constructor
          · intro hzero
            rw [hzero]
            rfl
          · intro hone
            grind
        have hne : b.sys.vars.messageCount ≠ b.sys.vars.lastPublishedCount := by
          rw [← hnext]
          grind
        constructor
        · intro hmatch _ _
          by_contra hmany
          exact hmatch ⟨mt hone.mp hmany, hne⟩
        · rintro hfirst ⟨hstored, -⟩
          exact hstored (hone.mpr (hfirst (Option.some_ne_none _) hpc))
      · rw [h.stored hpc]
        exact iff_of_true (fun hmismatch => hmismatch.2 rfl) fun _ hpc' => absurd hpc' hpc

variable (cfg)

/-- **When a faithful echo is no mismatch.**  In a run against such a broker no echo counts a value mismatch
if and only if no echo but that of message 1 comes before `mqtt_helper_publish` has returned. -/
theorem no_mismatch_iff (es : List BrokerEvent) :
    Runs.EachStep (stepBroker cfg) (NoMismatch cfg) BrokerRun.boot es ↔
      Runs.EachStep (stepBroker cfg) EchoAfterReturn BrokerRun.boot es := by
  have hstep : ∀ b e, BrokerInv b → NoMismatch cfg b e → BrokerInv (stepBroker cfg b e) :=
    fun b e h _ => brokerInv_step b e h
  exact Runs.eachStep_iff_of_invariant hstep noMismatch_iff es _ brokerInv_boot

/-- Events without an echo. -/
def clientEvents (es : List MqttEvent) : List BrokerEvent := es.map .client

/-- **A fast echo.**  The echo of message 2 is processed before `mqtt_helper_publish` returns. -/
theorem fast_echo_mismatches :
    ¬ Runs.EachStep (stepBroker sampleConfig) (NoMismatch sampleConfig) BrokerRun.boot
      (clientEvents (connectedClient ++ onePublish 0) ++ [.echo]
        ++ clientEvents (nextPublish ++ [.thread okInput, .thread okInput]) ++ [.echo]) := by
  decide +kernel

end WifiMemfault.MqttEchoValue
