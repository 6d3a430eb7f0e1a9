import WifiMemfault.MqttBackoff

/-!
# The delays of the MQTT backoff

`mqtt_backoff_sec` shifts its base by the retry count less four and only then applies the cap.  The shift
leaves the 32 bits of the result long after the product has passed the cap: at the retry count 35 it shifts
out every bit and the delay is 0, and from 36 on it shifts by the word size or more.  The connect loop
resets the count only when an attempt is accepted, so a broker that keeps refusing takes it there.
-/

namespace WifiMemfault.MqttBackoffDelay

open MqttClient MqttThread MqttBackoff

/-! ### The documented delays -/

theorem docBackoffSec_mono {j k : ℕ} (h : j ≤ k) : docBackoffSec j ≤ docBackoffSec k := by
  have hpow : 2 ^ (j - 4) ≤ 2 ^ (k - 4) := Nat.pow_le_pow_right (by decide) (by omega)
  have hpos : 1 ≤ 2 ^ (k - 4) := Nat.one_le_two_pow
  simp only [docBackoffSec]
  split
  · split
    · exact Nat.le_refl _
    · omega
  · split
    · omega
    · omega

theorem docBackoffSec_bounds (k : ℕ) : 5 ≤ docBackoffSec k ∧ docBackoffSec k ≤ 300 := by
  have hpos : 1 ≤ 2 ^ (k - 4) := Nat.one_le_two_pow
  rw [docBackoffSec]
  split
  · omega
  · omega

/-- The delay of this retry is defined and the documented one; it lies between 5 and 300 seconds, and no
retry before it has a longer one. -/
structure Documented (retryCount : ℕ) : Prop where
  value : ∃ d, mqttBackoffSec retryCount = some d ∧ d.toNat = docBackoffSec retryCount
  bounds : ∀ d ∈ mqttBackoffSec retryCount, 5 ≤ d.toNat ∧ d.toNat ≤ 300
  mono : ∀ j ≤ retryCount, ∀ dj ∈ mqttBackoffSec j, ∀ d ∈ mqttBackoffSec retryCount,
    dj.toNat ≤ d.toNat

theorem documented_of_le {k : ℕ} (hk : k ≤ maxFailures) : Documented k := by
  have hvalue : ∀ j ≤ k, ∀ d ∈ mqttBackoffSec j, d.toNat = docBackoffSec j := by
    intro j hj d hd
    obtain ⟨d', hd', hdoc⟩ := mqttBackoffSec_doc j (Nat.le_trans hj hk)
    rw [Option.mem_def.mp hd] at hd'
    cases hd'
    exact hdoc
  refine ⟨mqttBackoffSec_doc k hk, fun d hd => ?_, fun j hj dj hdj d hd => ?_⟩
  · rw [hvalue k (Nat.le_refl k) d hd]
    exact docBackoffSec_bounds k
  · rw [hvalue j hj dj hdj, hvalue k (Nat.le_refl k) d hd]
    exact docBackoffSec_mono hj

/-- From 36 on the shift is by 32 or more. -/
theorem mqttBackoffSec_none {k : ℕ} (hk : maxFailures + 1 < k) : mqttBackoffSec k = none := by
  have hmax : maxFailures = 34 := rfl
  rw [mqttBackoffSec, if_neg (by omega), if_neg (by omega)]

/-- The retry that shifts out every bit. -/
theorem mqttBackoffSec_zero : mqttBackoffSec (maxFailures + 1) = some 0 := by decide

/-- **The delay in 32 bits** is the documented one up to 34 retries, and for no retry after that. -/
theorem mqttBackoffSec_documented_iff (retryCount : ℕ) :
    Documented retryCount ↔ retryCount ≤ maxFailures := by
  constructor
  · rintro ⟨⟨d, hd, hdoc⟩, -, -⟩
    by_contra hgt
    rcases Nat.eq_or_lt_of_le (Nat.lt_of_not_le hgt) with heq | hlt
    · rw [← heq, mqttBackoffSec_zero] at hd
      cases hd
      have hbounds := docBackoffSec_bounds retryCount
      rw [← hdoc] at hbounds
      exact absurd hbounds.1 (by decide)
    · rw [mqttBackoffSec_none hlt] at hd
      cases hd
  · exact documented_of_le

theorem mqttBackoffSec_not_documented : ¬ Documented 35 := by
  rintro ⟨⟨d, hd, hdoc⟩, -, -⟩
  have hzero : mqttBackoffSec 35 = some 0 := by decide
  rw [hzero] at hd
  cases hd
  exact absurd hdoc (by decide)

/-! ### The counts the connect loop reaches -/

/-- The variables whenever `mqtt_helper_connect` is called in a run of refused attempts. -/
def attemptVars : MqttVars := (Runs.run (stepMqtt sampleConfig) MqttSystem.boot firstAttempt).vars

/-- One refused attempt, the sleep after it and the next call. -/
def refusedRound (retryCount : ℕ) : List MqttEvent :=
  .thread refusedInput ::
    nextAttempt (kSeconds ((mqttBackoffSec (retryCount + 1)).getD 0).toNat)

/-- What a refused attempt makes of the variables, until the next one. -/
def refusedVars : MqttVars := attemptVars.mqttHelperConnected refusedInput.helperErr

theorem refusedVars_connect :
    refusedVars.mqttDoConnect sampleConfig okInput.hwIdErr okInput.clientId = (none, attemptVars) := by
  decide +kernel

theorem refusedVars_runs (now : ℕ) (pc : MqttPc) :
    (MqttSystem.mk now refusedVars pc).runs = true ∧ refusedVars.currentState ≠ .connected := by
  have hvars : (refusedVars.mqttClientRunning && refusedVars.networkReady) = true ∧
      refusedVars.currentState ≠ .connected := by decide +kernel
  exact hvars

theorem refusedRound_run (now retryCount : ℕ) :
    ∃ now', Runs.run (stepMqtt sampleConfig) ⟨now, attemptVars, .helperConnect retryCount⟩
      (refusedRound retryCount) = ⟨now', attemptVars, .helperConnect (retryCount + 1)⟩ := by
  let delay := kSeconds ((mqttBackoffSec (retryCount + 1)).getD 0).toNat
  have hrefused : (MqttSystem.mk now attemptVars (.helperConnect retryCount)).threadStep sampleConfig
      refusedInput = ⟨now, refusedVars, .connectSleep (retryCount + 1) (now + delay)⟩ := rfl
  have hwakes : (MqttSystem.mk (now + delay) refusedVars
      (.connectSleep (retryCount + 1) (now + delay))).threadStep sampleConfig okInput
      = ⟨now + delay, refusedVars, .connectTest (retryCount + 1)⟩ := if_neg (Nat.lt_irrefl _)
  have htest : (MqttSystem.mk (now + delay) refusedVars (.connectTest (retryCount + 1))).threadStep
      sampleConfig okInput = ⟨now + delay, refusedVars, .doConnect (retryCount + 1)⟩ := by
    simp only [MqttSystem.threadStep, if_pos (refusedVars_runs _ _)]
  have hconnect : (MqttSystem.mk (now + delay) refusedVars (.doConnect (retryCount + 1))).threadStep
      sampleConfig okInput = ⟨now + delay, attemptVars, .helperConnect (retryCount + 1)⟩ := by
    simp only [MqttSystem.threadStep, refusedVars_connect]
  refine ⟨now + delay, ?_⟩
  rw [refusedRound, nextAttempt]
  simp only [Runs.run_cons, Runs.run_nil, stepMqtt]
  rw [hrefused, hwakes, htest, hconnect]

/-- A broker that keeps refusing takes the connect loop to every retry count. -/
theorem every_retryCount_reached (retryCount : ℕ) :
    ∃ es now, Runs.run (stepMqtt sampleConfig) MqttSystem.boot es
      = ⟨now, attemptVars, .helperConnect retryCount⟩ := by
  induction retryCount with
  | zero => exact ⟨firstAttempt, 2000, by decide +kernel⟩
  | succ k ih =>
    obtain ⟨es, now, hrun⟩ := ih
    obtain ⟨now', hround⟩ := refusedRound_run now k
    refine ⟨es ++ refusedRound k, now', ?_⟩
    rw [Runs.run_append, hrun, hround]

end WifiMemfault.MqttBackoffDelay
