import WifiMemfault.HttpsClient
import WifiMemfault.MqttListener
import WifiMemfault.Lib.TimedWait

/-!
# The failed attempts of an outage

While the network is down each client waits on its semaphore for one interval after the other, and records
a failed attempt after each wait.  Both threads are workers of `TimedWait`: a `WIFI_STA_CONNECTED` message
gives the semaphore, a recorded attempt is a charge.

A message the thread has not waited for leaves its token in the semaphore.  The wait after the next recorded
attempt takes it and ends at once, whatever the network is then.
-/

namespace WifiMemfault.FailedAttempts

open MemfaultCore (WifiMsgType)

/-! ### The HTTPS client -/

section Https

open HttpsClient

def httpsPhase (s : HttpsSystem) : WaitPhase :=
  match s.pc with
  | .start => .stopped
  | .semTake timeout => .waiting timeout
  | .exited => .stopped
  | _ => .working

/-- The event is part of the handling of a `WIFI_STA_CONNECTED`. -/
def httpsGives (s : HttpsSystem) : HttpsEvent → Bool
  | .wifiMsg type => type = .wifiStaConnected ∧ s.listener = .idle
  | .listener => s.listener ≠ .idle
  | _ => false

/-- The event calls `https_record_failed_attempt`. -/
def httpsCharges (s : HttpsSystem) : HttpsEvent → Bool
  | .thread _ => s.recordsAttempt
  | _ => false

/-- `app_https_client_thread` and its semaphore. -/
def httpsWait (cfg : HttpsConfig) : TimedWait HttpsSystem HttpsEvent where
  step := stepHttps cfg
  now s := s.now
  token s := s.vars.httpsThreadSem ≠ 0
  phase := httpsPhase
  interval := kSeconds cfg.requestIntervalSec
  gives := httpsGives
  charges := httpsCharges

variable {cfg : HttpsConfig} {s : HttpsSystem} {i : HttpsInput}

theorem httpsPhase_works (h : s.pc.works = true) : httpsPhase s = .working := by
  rw [httpsPhase]
  cases hpc : s.pc with
  | start =>
    rw [hpc] at h
    cases h
  | semTake timeout =>
    rw [hpc] at h
    cases h
  | exited =>
    rw [hpc] at h
    cases h
  | _ => rfl

theorem httpsPhase_loopHead (cfg : HttpsConfig) (s : HttpsSystem) (v : HttpsVars) :
    httpsPhase (s.loopHead cfg v) =
      if v.httpsClientRunning then .waiting (s.now + kSeconds cfg.requestIntervalSec)
      else .stopped := by
  rw [HttpsSystem.loopHead]
  split
  · rfl
  · rfl

/-- The head of the loop waits for the whole interval, or the thread is done. -/
theorem https_loopHead {v : HttpsVars} (hs : s.pc.works = true)
    (hsem : v.httpsThreadSem = s.vars.httpsThreadSem) :
    (httpsWait cfg).Moves s (.thread i) (s.loopHead cfg v) := by
  have hworks : (httpsWait cfg).phase s = .working := httpsPhase_works hs
  have htoken : (httpsWait cfg).token (s.loopHead cfg v) = (httpsWait cfg).token s :=
    congrArg (fun n : ℕ => decide (n ≠ 0)) hsem
  have hafter := httpsPhase_loopHead cfg s v
  by_cases hrun : v.httpsClientRunning = true
  · rw [if_pos hrun] at hafter
    exact .begins (by rw [hworks]; rfl) hafter (fun _ => hworks) htoken rfl
  · rw [if_neg hrun] at hafter
    exact .stops hworks hafter htoken rfl

theorem recordIfSeen_sem (s : HttpsSystem) : s.recordIfSeen.httpsThreadSem = s.vars.httpsThreadSem := by
  rw [HttpsSystem.recordIfSeen]
  split
  · rfl
  · rfl

theorem https_thread (cfg : HttpsConfig) (s : HttpsSystem) (i : HttpsInput) :
    (httpsWait cfg).Moves s (.thread i) (s.threadStep cfg i) := by
  have hmoves := threadStep_moves cfg s i
  generalize s.threadStep cfg i = s' at hmoves ⊢
  cases hmoves with
  | stays hrec => exact .stays rfl hrec (Or.inl rfl)
  | starts hs =>
    have hphase : (httpsWait cfg).phase s = .stopped := by
      simp only [httpsWait, httpsPhase, hs]
    have hrec : s.recordsAttempt = false :=
      recordsAttempt_eq_false (by rw [hs]; exact nofun) (by rw [hs]; exact nofun)
    have hafter := httpsPhase_loopHead cfg s s.vars
    by_cases hrun : s.vars.httpsClientRunning = true
    · rw [if_pos hrun] at hafter
      refine .begins (by rw [hphase]; rfl) hafter (fun hcharge => ?_) rfl rfl
      exact absurd (hrec.symm.trans hcharge) Bool.false_ne_true
    · rw [if_neg hrun] at hafter
      exact .stays (hafter.trans hphase.symm) hrec (Or.inl rfl)
  | takesSem timeout hs hdue =>
    have hrec : s.recordsAttempt = false :=
      recordsAttempt_eq_false (by rw [hs]; exact nofun) (by rw [hs]; exact nofun)
    refine .ends timeout (by simp only [httpsWait, httpsPhase, hs]) ?_ ?_ rfl hrec
    · by_cases hrun : s.vars.httpsClientRunning = true
      · simp [httpsWait, httpsPhase, hrun, WaitPhase.isWaiting]
      · simp [httpsWait, httpsPhase, hrun, WaitPhase.isWaiting]
    · simpa [httpsWait] using hdue
  | goesOn pc provisioned hs hpc hrec =>
    refine .stays ?_ hrec (Or.inl rfl)
    exact (httpsPhase_works hpc).trans (httpsPhase_works hs).symm
  | counts pc v hs hpc hv =>
    have hworks : s.pc.works = true := by
      rcases hs with hs | hs
      · rw [hs]
        rfl
      · rw [hs]
        rfl
    have hsem : v.httpsThreadSem = s.vars.httpsThreadSem := by
      rcases hv with rfl | rfl
      · rfl
      · rfl
    have hrec : s.recordsAttempt = false := by
      rcases hs with hs | hs
      · exact recordsAttempt_eq_false (by rw [hs]; exact nofun) (by rw [hs]; exact nofun)
      · exact recordsAttempt_eq_false (by rw [hs]; exact nofun) (by rw [hs]; exact nofun)
    refine .stays ((httpsPhase_works hpc).trans (httpsPhase_works hworks).symm) hrec (Or.inl ?_)
    exact congrArg (fun n : ℕ => decide (n ≠ 0)) hsem
  | returns hs =>
    refine https_loopHead ?_ rfl
    rcases hs with hs | hs
    · rw [hs]
      rfl
    · rw [hs]
      rfl
  | records hs =>
    refine https_loopHead ?_ (recordIfSeen_sem s)
    rcases hs with ⟨hs, -⟩ | hs
    · rw [hs]
      rfl
    · rw [hs]
      rfl
  | certFails hs herr =>
    refine https_loopHead ?_ rfl
    rw [hs]
    rfl

theorem https_lawful (cfg : HttpsConfig) : (httpsWait cfg).Lawful := by
  intro s e
  cases e with
  | elapse ms => exact .stays rfl rfl (Or.inl rfl)
  | thread i => exact https_thread cfg s i
  | wifiMsg type =>
    show (httpsWait cfg).Moves s (.wifiMsg type) (if s.listener = .idle then s.wifiListener type else s)
    split
    · cases type with
      | wifiStaConnected =>
        rw [HttpsSystem.wifiListener]
        split
        · exact .stays rfl rfl (Or.inl rfl)
        · exact .stays rfl rfl (Or.inl rfl)
      | wifiStaDisconnected => exact .stays rfl rfl (Or.inl rfl)
      | other => exact .stays rfl rfl (Or.inl rfl)
    · exact .stays rfl rfl (Or.inl rfl)
  | listener =>
    show (httpsWait cfg).Moves s .listener s.listenerStep
    rw [HttpsSystem.listenerStep]
    cases hpc : s.listener with
    | idle => exact .stays rfl rfl (Or.inl rfl)
    | setSeen => exact .stays rfl rfl (Or.inl rfl)
    | setReady => exact .stays rfl rfl (Or.inl rfl)
    | giveSem => exact .stays rfl rfl (Or.inr ⟨by simp [httpsWait, httpsGives, hpc], rfl⟩)

/-- A charge is a call of `https_record_failed_attempt`. -/
theorem https_charge_records {e : HttpsEvent} (h : httpsCharges s e = true) :
    (stepHttps cfg s e).vars = s.vars.httpsRecordFailedAttempt := by
  cases e with
  | thread i =>
    have hrec : s.recordsAttempt = true := h
    rw [HttpsSystem.recordsAttempt, decide_eq_true_iff] at hrec
    obtain ⟨hseen, ⟨hpc, hdown⟩ | hpc⟩ := hrec
    · simp [stepHttps, HttpsSystem.threadStep, hpc, hdown, HttpsSystem.loopHead,
        HttpsSystem.recordIfSeen, hseen]
    · simp [stepHttps, HttpsSystem.threadStep, hpc, HttpsSystem.loopHead, HttpsSystem.recordIfSeen,
        hseen]
  | elapse ms => cases h
  | wifiMsg type => cases h
  | listener => cases h

end Https

/-! ### The MQTT client -/

section Mqtt

open MqttClient MqttThread MqttListener

/-- The thread is between a wait for the network and the next head of the loop. -/
def mqttWorks : MqttPc → Bool
  | .helperInit => false
  | .semTake _ => false
  | .exited => false
  | _ => true

def mqttPhase (pc : MqttPc) : WaitPhase :=
  match pc with
  | .helperInit => .stopped
  | .semTake timeout => .waiting timeout
  | .exited => .stopped
  | _ => .working

/-- The next step of the thread calls `mqtt_record_failed_attempt`. -/
def mqttRecordsAttempt (s : MqttSystem) : Bool :=
  s.vars.hasSeenNetworkConnection = true ∧
    ((s.pc = .networkTest ∧ s.vars.networkReady = false) ∨ s.pc = .mainExit)

/-- The listener is in `app_mqtt_client_notify_connected`. -/
def inNotifyConnected : MqttListener.ListenerPc → Bool
  | .setSeen => true
  | .setReady => true
  | .giveSem => true
  | _ => false

/-- The event is part of the handling of a `WIFI_STA_CONNECTED`. -/
def mqttGives (s : ListenedMqtt) : ListenedEvent → Bool
  | .wifiMsg type => type = .wifiStaConnected ∧ s.listener = .idle
  | .listener => inNotifyConnected s.listener
  | .client _ => false

/-- The event calls `mqtt_record_failed_attempt`. -/
def mqttCharges (s : ListenedMqtt) : ListenedEvent → Bool
  | .client ⟨.thread _, _⟩ => mqttRecordsAttempt s.client
  | _ => false

/-- `app_mqtt_client_thread` and its semaphore. -/
def mqttWait (cfg : MqttConfig) : TimedWait ListenedMqtt ListenedEvent where
  step := stepListened cfg
  now s := s.client.now
  token s := s.client.vars.mqttThreadSem ≠ 0
  phase s := mqttPhase s.client.pc
  interval := MqttThread.kSeconds cfg.publishIntervalSec
  gives := mqttGives
  charges := mqttCharges

variable {cfg : MqttConfig}

/-- What a step of the thread does from a program point that works. -/
inductive Next (cfg : MqttConfig) (s : MqttSystem) : MqttSystem → Prop where
  | goesOn (s' : MqttSystem) (hrec : mqttRecordsAttempt s = false) (hpc : mqttWorks s'.pc = true) :
      Next cfg s s'
  | loops (v : MqttVars) : Next cfg s (s.loopHead cfg v)

theorem next_ite {s a b : MqttSystem} {p : Prop} [Decidable p] (ha : p → Next cfg s a)
    (hb : ¬ p → Next cfg s b) : Next cfg s (if p then a else b) := by
  split
  · rename_i h
    exact ha h
  · rename_i h
    exact hb h

/-- The two program points that may record an attempt. -/
def mqttMayRecord : MqttPc → Bool
  | .networkTest => true
  | .mainExit => true
  | _ => false

theorem mqttRecordsAttempt_eq_false {s : MqttSystem} (h : mqttMayRecord s.pc = false) :
    mqttRecordsAttempt s = false := by
  rw [mqttRecordsAttempt, decide_eq_false_iff_not]
  rintro ⟨-, ⟨hpc, -⟩ | hpc⟩
  · rw [hpc] at h
    cases h
  · rw [hpc] at h
    cases h

/-- From any other program point the thread goes on without a record. -/
theorem next_goesOn {s s' : MqttSystem} (hpc : mqttWorks s'.pc = true)
    (hs : mqttMayRecord s.pc = false) : Next cfg s s' :=
  .goesOn s' (mqttRecordsAttempt_eq_false hs) hpc

theorem mqttWorks_ite {p : Prop} [Decidable p] {a b : MqttPc} (ha : mqttWorks a = true)
    (hb : mqttWorks b = true) : mqttWorks (if p then a else b) = true := by
  split
  · exact ha
  · exact hb

theorem connectReturned_works (s : MqttSystem) (retryCount : ℕ) (i : ThreadInput) (err : ℤ)
    (v : MqttVars) : mqttWorks (s.connectReturned retryCount i err v).pc = true := by
  obtain ⟨count, wake, heq⟩ := connectReturned_eq s retryCount i err v
  rw [heq]
  rfl

theorem threadStep_next (cfg : MqttConfig) (s : MqttSystem) (i : ThreadInput)
    (hs : mqttWorks s.pc = true) : Next cfg s (s.threadStep cfg i) := by
  obtain ⟨now, v, pc⟩ := s
  cases pc with
  | helperInit => cases hs
  | semTake timeout => cases hs
  | exited => cases hs
  | networkTest =>
    refine next_ite (fun hready => .goesOn _ ?_ rfl) fun _ => .loops _
    rw [mqttRecordsAttempt, decide_eq_false_iff_not]
    rintro ⟨-, ⟨-, hdown⟩ | hpc⟩
    · rw [hready] at hdown
      cases hdown
    · cases hpc
  | resolverSleep wake =>
    exact next_ite (fun _ => next_goesOn rfl rfl) fun _ => next_goesOn rfl rfl
  | dnsTest dnsWaitTime => exact next_goesOn (mqttWorks_ite rfl rfl) rfl
  | dnsCheck dnsWaitTime =>
    exact next_ite (fun _ => next_goesOn rfl rfl) fun _ => next_goesOn rfl rfl
  | dnsSleep dnsWaitTime wake =>
    exact next_ite (fun _ => next_goesOn rfl rfl) fun _ => next_goesOn rfl rfl
  | dnsDone =>
    exact next_ite (fun _ => .loops _) fun _ => next_goesOn (mqttWorks_ite rfl rfl) rfl
  | initialSleep wake =>
    exact next_ite (fun _ => next_goesOn rfl rfl) fun _ => next_goesOn rfl rfl
  | initialDone => exact next_ite (fun _ => .loops _) fun _ => next_goesOn rfl rfl
  | mainLoop => exact next_goesOn (mqttWorks_ite rfl rfl) rfl
  | connectTest retryCount => exact next_goesOn (mqttWorks_ite rfl rfl) rfl
  | doConnect retryCount =>
    simp only [MqttSystem.threadStep]
    split
    · exact next_goesOn (connectReturned_works _ _ _ _ _) rfl
    · exact next_goesOn rfl rfl
  | helperConnect retryCount =>
    exact next_goesOn (connectReturned_works _ retryCount i _ _) rfl
  | connectSleep retryCount wake =>
    exact next_ite (fun _ => next_goesOn rfl rfl) fun _ => next_goesOn rfl rfl
  | publishTest => exact next_goesOn (mqttWorks_ite rfl rfl) rfl
  | publish =>
    simp only [MqttSystem.threadStep]
    split
    · exact next_goesOn rfl rfl
    · exact next_goesOn rfl rfl
  | helperPublish => exact next_goesOn rfl rfl
  | publishSleep wake =>
    exact next_ite (fun _ => next_goesOn rfl rfl) fun _ => next_goesOn rfl rfl
  | brokerTest => exact next_goesOn (mqttWorks_ite rfl rfl) rfl
  | brokerSleep wake =>
    exact next_ite (fun _ => next_goesOn rfl rfl) fun _ => next_goesOn rfl rfl
  | mainExit => exact .loops _

theorem mqttPhase_works {pc : MqttPc} (h : mqttWorks pc = true) : mqttPhase pc = .working := by
  cases pc with
  | helperInit => cases h
  | semTake timeout => cases h
  | exited => cases h
  | _ => rfl

theorem mqttPhase_loopHead (cfg : MqttConfig) (s : MqttSystem) (v : MqttVars) :
    mqttPhase (s.loopHead cfg v).pc =
      if v.mqttClientRunning then .waiting (s.now + MqttThread.kSeconds cfg.publishIntervalSec)
      else .stopped := by
  rw [MqttSystem.loopHead]
  split
  · rfl
  · rfl

theorem mqtt_token {s : ListenedMqtt} {c : MqttSystem}
    (hsem : linkFlags c.vars = linkFlags s.client.vars) :
    (mqttWait cfg).token { s with client := c } = (mqttWait cfg).token s :=
  congrArg (fun flags : LinkFlags => decide (flags.mqttThreadSem ≠ 0)) hsem

theorem mqtt_works {s : ListenedMqtt} {i : ThreadInput} (hs : mqttWorks s.client.pc = true) :
    (mqttWait cfg).Moves s (.client ⟨.thread i, rfl⟩)
      { s with client := s.client.threadStep cfg i } := by
  have hworks : (mqttWait cfg).phase s = .working := mqttPhase_works hs
  have htoken : (mqttWait cfg).token { s with client := s.client.threadStep cfg i } =
      (mqttWait cfg).token s := by
    rcases threadStep_linkFlags cfg s.client i with hflags | ⟨⟨timeout, hpc⟩, -⟩
    · exact mqtt_token hflags
    · rw [hpc] at hs
      cases hs
  have hnext := threadStep_next cfg s.client i hs
  generalize s.client.threadStep cfg i = c at hnext htoken ⊢
  cases hnext with
  | goesOn _ hrec hpc =>
    exact .stays ((mqttPhase_works hpc).trans hworks.symm) hrec (Or.inl htoken)
  | loops v =>
    have hafter := mqttPhase_loopHead cfg s.client v
    by_cases hrun : v.mqttClientRunning = true
    · rw [if_pos hrun] at hafter
      exact .begins (by rw [hworks]; rfl) hafter (fun _ => hworks) htoken rfl
    · rw [if_neg hrun] at hafter
      exact .stops hworks hafter htoken rfl

/-- `mqtt_helper_init`, and the first head of the loop. -/
theorem mqtt_helperInit {s : ListenedMqtt} {i : ThreadInput} (hs : s.client.pc = .helperInit) :
    (mqttWait cfg).Moves s (.client ⟨.thread i, rfl⟩)
      { s with client := s.client.threadStep cfg i } := by
  have hphase : (mqttWait cfg).phase s = .stopped := by
    simp only [mqttWait, hs, mqttPhase]
  have hrec : mqttRecordsAttempt s.client = false :=
    mqttRecordsAttempt_eq_false (by rw [hs]; rfl)
  have hcharge : (mqttWait cfg).charges s (.client ⟨.thread i, rfl⟩) = true →
      (mqttWait cfg).phase s = .working :=
    fun h => absurd (hrec.symm.trans h) Bool.false_ne_true
  have hafter := mqttPhase_loopHead cfg s.client s.client.vars
  simp only [MqttSystem.threadStep, hs]
  split
  · exact .stays hphase.symm hrec (Or.inl rfl)
  · by_cases hrun : s.client.vars.mqttClientRunning = true
    · rw [if_pos hrun] at hafter
      exact .begins (by rw [hphase]; rfl) hafter hcharge rfl rfl
    · rw [if_neg hrun] at hafter
      exact .stays (hafter.trans hphase.symm) hrec (Or.inl rfl)

theorem mqtt_semTake {s : ListenedMqtt} {i : ThreadInput} {timeout : ℕ}
    (hs : s.client.pc = .semTake timeout) :
    (mqttWait cfg).Moves s (.client ⟨.thread i, rfl⟩)
      { s with client := s.client.threadStep cfg i } := by
  have hrec : mqttRecordsAttempt s.client = false :=
    mqttRecordsAttempt_eq_false (by rw [hs]; rfl)
  simp only [MqttSystem.threadStep, hs]
  split
  · exact .stays rfl hrec (Or.inl rfl)
  · rename_i hdue
    refine .ends timeout (by simp only [mqttWait, hs, mqttPhase]) ?_ ?_ rfl hrec
    · by_cases hrun : s.client.vars.mqttClientRunning = true
      · simp [mqttWait, mqttPhase, hrun, WaitPhase.isWaiting]
      · simp [mqttWait, mqttPhase, hrun, WaitPhase.isWaiting]
    · simp only [mqttWait, decide_eq_true_iff]
      by_contra hwaits
      obtain ⟨hsem, hnow⟩ := not_or.mp hwaits
      exact hdue ⟨not_not.mp hsem, Nat.not_le.mp hnow⟩

theorem mqtt_thread (cfg : MqttConfig) (s : ListenedMqtt) (i : ThreadInput) :
    (mqttWait cfg).Moves s (.client ⟨.thread i, rfl⟩)
      { s with client := s.client.threadStep cfg i } := by
  cases hpc : s.client.pc with
  | helperInit => exact mqtt_helperInit hpc
  | semTake timeout => exact mqtt_semTake hpc
  | exited =>
    have hstep : s.client.threadStep cfg i = s.client := by
      simp only [MqttSystem.threadStep, hpc]
    rw [hstep]
    refine .stays rfl ?_ (Or.inl rfl)
    exact mqttRecordsAttempt_eq_false (by rw [hpc]; rfl)
  | _ => exact mqtt_works (by rw [hpc]; rfl)

theorem mqtt_lawful (cfg : MqttConfig) : (mqttWait cfg).Lawful := by
  intro s e
  cases e with
  | client e =>
    obtain ⟨e, he⟩ := e
    by_cases hthread : ∃ i, e = .thread i
    · obtain ⟨i, rfl⟩ := hthread
      exact mqtt_thread cfg s i
    · have hother : ∀ i, e ≠ .thread i := fun i h => hthread ⟨i, h⟩
      obtain ⟨hflags, hpc⟩ := stepMqtt_linkFlags cfg s.client e he hother
      refine .stays (congrArg mqttPhase hpc) ?_ (Or.inl (mqtt_token hflags))
      cases e with
      | thread i => exact absurd rfl (hother i)
      | _ => rfl
  | wifiMsg type =>
    show (mqttWait cfg).Moves s (.wifiMsg type) (if s.listener = .idle then s.wifiListener type else s)
    split
    · cases type with
      | wifiStaConnected =>
        rw [ListenedMqtt.wifiListener]
        split
        · exact .stays rfl rfl (Or.inl rfl)
        · exact .stays rfl rfl (Or.inl rfl)
      | wifiStaDisconnected => exact .stays rfl rfl (Or.inl rfl)
      | other => exact .stays rfl rfl (Or.inl rfl)
    · exact .stays rfl rfl (Or.inl rfl)
  | listener =>
    show (mqttWait cfg).Moves s .listener s.listenerStep
    rw [ListenedMqtt.listenerStep]
    cases hpc : s.listener with
    | giveSem =>
      exact .stays rfl rfl (Or.inr ⟨by simp [mqttWait, mqttGives, hpc, inNotifyConnected], rfl⟩)
    | _ => exact .stays rfl rfl (Or.inl rfl)

/-- A charge is a call of `mqtt_record_failed_attempt`. -/
theorem mqtt_charge_records {s : ListenedMqtt} {e : ListenedEvent} (h : mqttCharges s e = true) :
    (stepListened cfg s e).client.vars = s.client.vars.mqttRecordFailedAttempt := by
  obtain ⟨e, he⟩ | type | _ := e
  · cases e with
    | thread i =>
      have hrec : mqttRecordsAttempt s.client = true := h
      rw [mqttRecordsAttempt, decide_eq_true_iff] at hrec
      obtain ⟨hseen, ⟨hpc, hdown⟩ | hpc⟩ := hrec
      · simp [stepListened, stepMqtt, MqttSystem.threadStep, hpc, hdown, MqttSystem.loopHead,
          MqttSystem.recordIfSeen, hseen]
      · simp [stepListened, stepMqtt, MqttSystem.threadStep, hpc, MqttSystem.loopHead,
          MqttSystem.recordIfSeen, hseen]
    | _ => cases h
  · cases h
  · cases h

end Mqtt

/-! ### Every run -/

open TimedWait (Ledger)

/-- **When an outage is charged one failed attempt per interval.**  In a run of either client two attempts
recorded without a `WIFI_STA_CONNECTED` between them are a whole interval of waiting apart, if and only if
after an attempt that left a token behind the next comes after such a message or after a second wait. -/
theorem attempts_separated_iff (httpsCfg : HttpsClient.HttpsConfig) (mqttCfg : MqttClient.MqttConfig)
    (es : List HttpsClient.HttpsEvent) (fs : List MqttListener.ListenedEvent) :
    (Runs.EachStep (httpsWait httpsCfg).stepLedger (httpsWait httpsCfg).Separated
        (HttpsClient.HttpsSystem.boot, Ledger.empty) es ↔
      Runs.EachStep (httpsWait httpsCfg).stepLedger (httpsWait httpsCfg).Drained
        (HttpsClient.HttpsSystem.boot, Ledger.empty) es) ∧
    (Runs.EachStep (mqttWait mqttCfg).stepLedger (mqttWait mqttCfg).Separated
        (MqttListener.ListenedMqtt.boot, Ledger.empty) fs ↔
      Runs.EachStep (mqttWait mqttCfg).stepLedger (mqttWait mqttCfg).Drained
        (MqttListener.ListenedMqtt.boot, Ledger.empty) fs) :=
  ⟨TimedWait.separated_iff_drained (https_lawful httpsCfg) rfl es,
    TimedWait.separated_iff_drained (mqtt_lawful mqttCfg) rfl fs⟩

/-- In particular where no attempt leaves a token behind. -/
theorem attempts_separated_of_tokenFree (httpsCfg : HttpsClient.HttpsConfig)
    (mqttCfg : MqttClient.MqttConfig) (es : List HttpsClient.HttpsEvent)
    (fs : List MqttListener.ListenedEvent)
    (hhttps : Runs.EachStep (httpsWait httpsCfg).stepLedger (httpsWait httpsCfg).TokenFree
      (HttpsClient.HttpsSystem.boot, Ledger.empty) es)
    (hmqtt : Runs.EachStep (mqttWait mqttCfg).stepLedger (mqttWait mqttCfg).TokenFree
      (MqttListener.ListenedMqtt.boot, Ledger.empty) fs) :
    Runs.EachStep (httpsWait httpsCfg).stepLedger (httpsWait httpsCfg).Separated
        (HttpsClient.HttpsSystem.boot, Ledger.empty) es ∧
      Runs.EachStep (mqttWait mqttCfg).stepLedger (mqttWait mqttCfg).Separated
        (MqttListener.ListenedMqtt.boot, Ledger.empty) fs :=
  ⟨(TimedWait.separated_iff_drained (https_lawful httpsCfg) rfl es).mpr
      (TimedWait.drained_of_tokenFree es _ hhttps),
    (TimedWait.separated_iff_drained (mqtt_lawful mqttCfg) rfl fs).mpr
      (TimedWait.drained_of_tokenFree fs _ hmqtt)⟩

/-- The outside functions succeed at once. -/
def httpsOk : HttpsClient.HttpsEvent := .thread ⟨0, true, 0, false⟩

def mqttOk : MqttListener.ListenedEvent := .client ⟨.thread MqttThread.okInput, rfl⟩

/-- The network comes up, and the thread sleeps after its first request. -/
def httpsConnected : List HttpsClient.HttpsEvent :=
  [httpsOk, .wifiMsg .wifiStaConnected, .listener, .listener, .listener] ++ List.replicate 10 httpsOk

/-- The same up to the sleep after the first attempt to connect. -/
def mqttConnected : List MqttListener.ListenedEvent :=
  [mqttOk, .wifiMsg .wifiStaConnected, .listener, .listener, .listener, mqttOk, mqttOk,
      .client ⟨.elapse 2000, rfl⟩] ++
    List.replicate 9 mqttOk

/-- **A reconnect the thread sleeps through.**  The network goes, comes back and goes again during one
sleep.  The thread then records two attempts without a wait between them. -/
theorem missed_reconnect_charges_twice :
    ¬ Runs.EachStep (httpsWait ⟨60⟩).stepLedger (httpsWait ⟨60⟩).Separated
      (HttpsClient.HttpsSystem.boot, Ledger.empty)
      (httpsConnected ++
        [.wifiMsg .wifiStaDisconnected, .wifiMsg .wifiStaConnected, .listener, .listener, .listener,
          .wifiMsg .wifiStaDisconnected, .elapse 60000] ++
        List.replicate 5 httpsOk) ∧
    ¬ Runs.EachStep (mqttWait MqttThread.sampleConfig).stepLedger
      (mqttWait MqttThread.sampleConfig).Separated (MqttListener.ListenedMqtt.boot, Ledger.empty)
      (mqttConnected ++
        [.wifiMsg .wifiStaDisconnected, .listener, .wifiMsg .wifiStaConnected, .listener, .listener,
          .listener, .wifiMsg .wifiStaDisconnected, .listener, .client ⟨.elapse 500, rfl⟩] ++
        List.replicate 8 mqttOk) := by
  decide +kernel

end WifiMemfault.FailedAttempts
