import WifiMemfault.MqttThreadSteps

/-!
# The echo counters

`mqtt_record_failed_attempt` counts a test and its failure together, and an echo counts a test before it
may count a failure.  Three other places count a failure alone: a failed subscription, a failed publish
and the echo timeout.  `CountedBefore` says that each of them comes when a test has been counted whose
failure has not; it holds in exactly the runs in which the failures never pass the total.
-/

namespace WifiMemfault.MqttEchoCounters

open MqttClient MqttThread

/-- The two counters and the two metrics that report them. -/
@[ext] structure EchoCounters where
  total : ℕ
  failures : ℕ
  totalMetric : ℕ
  failMetric : ℕ
  deriving DecidableEq, Repr

def echoes (v : MqttVars) : EchoCounters :=
  ⟨v.mqttEchoTotal, v.mqttEchoFailures, v.echoTotalMetric, v.echoFailMetric⟩

/-- The failures do not pass the total, nor the reported failures the reported total. -/
def EchoOk (c : EchoCounters) : Prop := c.failures ≤ c.total ∧ c.failMetric ≤ c.totalMetric

instance (c : EchoCounters) : Decidable (EchoOk c) := inferInstanceAs (Decidable (_ ∧ _))

/-- In this step a failure is counted alone. -/
def failsAlone (s : MqttSystem) : MqttEvent → Bool
  | .onMqttSuback _ result => result ≠ 0
  | .thread i =>
    s.pc = .helperPublish ∧ (i.helperErr ≠ 0 ∨ s.vars.echoTimeout = true)
  | _ => false

/-- A failure that is counted alone belongs to a test that has been counted. -/
def CountedBefore (s : MqttSystem) (e : MqttEvent) : Prop :=
  failsAlone s e = true → s.vars.mqttEchoFailures < s.vars.mqttEchoTotal

instance (s : MqttSystem) (e : MqttEvent) : Decidable (CountedBefore s e) :=
  inferInstanceAs (Decidable (_ → _))

/-! ### What a step counts -/

/-- What a step that counts no failure alone does to the counters. -/
inductive Counts (c : EchoCounters) : EchoCounters → Prop where
  | nothing : Counts c c
  | test : Counts c { c with total := c.total + 1, totalMetric := c.total + 1 }
  | failedTest : Counts c ⟨c.total + 1, c.failures + 1, c.total + 1, c.failures + 1⟩

/-- One more failure. -/
def EchoCounters.failure (c : EchoCounters) : EchoCounters :=
  { c with failures := c.failures + 1, failMetric := c.failures + 1 }

theorem onMqttPublish_counts (v : MqttVars) (payload : List UInt8) :
    Counts (echoes v) (echoes (v.onMqttPublish payload)) := by
  simp only [MqttVars.onMqttPublish]
  split
  · exact .failedTest
  · exact .test

theorem echoes_eq {v v' : MqttVars} (h : clientCounters v' = clientCounters v) :
    echoes v' = echoes v :=
  congrArg (fun c : ClientCounters => (⟨c.mqttEchoTotal, c.mqttEchoFailures, c.echoTotalMetric,
    c.echoFailMetric⟩ : EchoCounters)) h

theorem mqttHelperPublished_echoes (v : MqttVars) (err : ℤ) :
    echoes (v.mqttHelperPublished err) =
      if err ≠ 0 ∨ v.echoTimeout = true then (echoes v).failure else echoes v := by
  have htimeout : MqttVars.echoTimeout { v with lastPublishedCount := v.messageCount }
      = v.echoTimeout := rfl
  simp only [MqttVars.mqttHelperPublished, htimeout]
  by_cases herr : err = 0
  · subst herr
    cases v.echoTimeout with
    | true => rfl
    | false => rfl
  · rw [if_pos herr, if_pos (Or.inl herr)]
    rfl

theorem recordIfSeen_counts (s : MqttSystem) : Counts (echoes s.vars) (echoes s.recordIfSeen) := by
  rw [MqttSystem.recordIfSeen]
  split
  · exact .failedTest
  · exact .nothing

variable {cfg : MqttConfig}

/-- The thread counts nothing but in three places. -/
theorem threadStep_counts (s : MqttSystem) (i : ThreadInput) (hpc : s.pc ≠ .helperPublish) :
    Counts (echoes s.vars) (echoes (s.threadStep cfg i).vars) := by
  have hmoves := threadStep_moves cfg s i
  generalize s.threadStep cfg i = s' at hmoves ⊢
  cases hmoves with
  | goesOn pc hs _ => exact .nothing
  | takesSem pc timeout hs _ => exact .nothing
  | records pc hs _ => exact recordIfSeen_counts s
  | doesConnect pc retryCount hs _ =>
    show Counts _ (echoes (s.vars.mqttDoConnect cfg i.hwIdErr i.clientId).2)
    rw [echoes_eq (mqttDoConnect_counters cfg s.vars i.hwIdErr i.clientId)]
    exact .nothing
  | connected pc retryCount hs _ =>
    show Counts _ (echoes (s.vars.mqttHelperConnected i.helperErr))
    rw [echoes_eq (mqttHelperConnected_counters s.vars i.helperErr)]
    exact .nothing
  | handsOver hs hnone =>
    show Counts _ (echoes s.vars.mqttPublishMessage.2)
    rw [mqttPublishMessage_handed hnone]
    exact .nothing
  | published wake hs => exact absurd hs hpc

/-- What one event does to the counters. -/
theorem step_echoes (cfg : MqttConfig) (s : MqttSystem) (e : MqttEvent) :
    (failsAlone s e = true ∧ echoes (stepMqtt cfg s e).vars = (echoes s.vars).failure) ∨
      (failsAlone s e = false ∧ Counts (echoes s.vars) (echoes (stepMqtt cfg s e).vars)) := by
  cases e with
  | elapse ms => exact Or.inr ⟨rfl, .nothing⟩
  | notifyConnected =>
    refine Or.inr ⟨rfl, ?_⟩
    rw [stepMqtt, echoes_eq (notifyConnected_counters s.vars)]
    exact .nothing
  | notifyDisconnected =>
    refine Or.inr ⟨rfl, ?_⟩
    rw [stepMqtt, echoes_eq (notifyDisconnected_counters s.vars)]
    exact .nothing
  | onMqttConnack returnCode =>
    refine Or.inr ⟨rfl, ?_⟩
    rw [stepMqtt, echoes_eq (onMqttConnack_counters s.vars returnCode)]
    exact .nothing
  | onMqttDisconnect result => exact Or.inr ⟨rfl, .nothing⟩
  | onMqttPublish payload => exact Or.inr ⟨rfl, onMqttPublish_counts s.vars payload⟩
  | onMqttSuback messageId result =>
    rw [stepMqtt, MqttVars.onMqttSuback]
    by_cases hresult : result = 0
    · rw [if_pos hresult]
      exact Or.inr ⟨decide_eq_false (not_not.mpr hresult), .nothing⟩
    · rw [if_neg hresult]
      exact Or.inl ⟨decide_eq_true hresult, rfl⟩
  | thread i =>
    by_cases hpc : s.pc = .helperPublish
    · have hstep : (stepMqtt cfg s (.thread i)).vars = s.vars.mqttHelperPublished i.helperErr := by
        rw [stepMqtt, MqttSystem.threadStep, hpc]
      rw [hstep, mqttHelperPublished_echoes]
      by_cases hfail : i.helperErr ≠ 0 ∨ s.vars.echoTimeout = true
      · rw [if_pos hfail]
        exact Or.inl ⟨decide_eq_true ⟨hpc, hfail⟩, rfl⟩
      · rw [if_neg hfail]
        exact Or.inr ⟨decide_eq_false fun h => hfail h.2, .nothing⟩
    · exact Or.inr ⟨decide_eq_false fun h => hpc h.1, threadStep_counts s i hpc⟩

/-! ### Every run -/

/-- The counters are in order, and the metrics report them. -/
structure EchoInv (c : EchoCounters) : Prop where
  failures_le : c.failures ≤ c.total
  totalMetric_eq : c.totalMetric = c.total
  failMetric_eq : c.failMetric = c.failures

theorem echoInv_counts {c c' : EchoCounters} (hinv : EchoInv c) (h : Counts c c') : EchoInv c' := by
  cases h with
  | nothing => exact hinv
  | test => exact ⟨Nat.le_succ_of_le hinv.failures_le, rfl, hinv.failMetric_eq⟩
  | failedTest => exact ⟨Nat.succ_le_succ hinv.failures_le, rfl, rfl⟩

theorem EchoInv.ok {c : EchoCounters} (hinv : EchoInv c) : EchoOk c := by
  refine ⟨hinv.failures_le, ?_⟩
  rw [hinv.failMetric_eq, hinv.totalMetric_eq]
  exact hinv.failures_le

/-- Only a failure counted alone can upset the counters. -/
theorem step_ok_iff (s : MqttSystem) (e : MqttEvent) (hinv : EchoInv (echoes s.vars)) :
    EchoOk (echoes (stepMqtt cfg s e).vars) ↔ CountedBefore s e := by
  rcases step_echoes cfg s e with ⟨hfails, hstep⟩ | ⟨hfails, hcounts⟩
  · rw [hstep, CountedBefore, hfails]
    constructor
    · intro hok _
      exact hok.1
    · intro hlt
      refine ⟨hlt rfl, ?_⟩
      show s.vars.mqttEchoFailures + 1 ≤ (echoes s.vars).totalMetric
      rw [hinv.totalMetric_eq]
      exact hlt rfl
  · rw [CountedBefore, hfails]
    exact ⟨fun _ h => absurd h Bool.false_ne_true, fun _ => (echoInv_counts hinv hcounts).ok⟩

theorem step_inv (s : MqttSystem) (e : MqttEvent) (hinv : EchoInv (echoes s.vars))
    (hok : EchoOk (echoes (stepMqtt cfg s e).vars)) : EchoInv (echoes (stepMqtt cfg s e).vars) := by
  rcases step_echoes cfg s e with ⟨-, hstep⟩ | ⟨-, hcounts⟩
  · rw [hstep] at hok ⊢
    exact ⟨hok.1, hinv.totalMetric_eq, rfl⟩
  · exact echoInv_counts hinv hcounts

variable (cfg)

end WifiMemfault.MqttEchoCounters
