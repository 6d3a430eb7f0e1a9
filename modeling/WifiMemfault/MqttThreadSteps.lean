import WifiMemfault.MqttThread

/-!
# What a step of the MQTT thread does to the shared variables

Of its program points only a few change a variable: the thread takes the semaphore, records a failed
attempt, connects and publishes.  `Moves` lists them; every other step only goes on to another point.
-/

namespace WifiMemfault.MqttThread

open MqttClient

/-- The system after one step of the thread from `s`, by what the step does. -/
inductive Moves (cfg : MqttConfig) (s : MqttSystem) (i : ThreadInput) : MqttSystem → Prop where
  | goesOn (pc : MqttPc) (hs : s.pc ≠ .helperPublish) (hpc : pc ≠ .helperPublish) :
      Moves cfg s i { s with pc := pc }
  | takesSem (pc : MqttPc) (timeout : ℕ) (hs : s.pc = .semTake timeout) (hpc : pc ≠ .helperPublish) :
      Moves cfg s i { s with vars := { s.vars with mqttThreadSem := 0 }, pc := pc }
  | records (pc : MqttPc) (hs : s.pc = .networkTest ∨ s.pc = .mainExit) (hpc : pc ≠ .helperPublish) :
      Moves cfg s i { s with vars := s.recordIfSeen, pc := pc }
  | doesConnect (pc : MqttPc) (retryCount : ℕ) (hs : s.pc = .doConnect retryCount)
      (hpc : pc ≠ .helperPublish) :
      Moves cfg s i { s with vars := (s.vars.mqttDoConnect cfg i.hwIdErr i.clientId).2, pc := pc }
  | connected (pc : MqttPc) (retryCount : ℕ) (hs : s.pc = .helperConnect retryCount)
      (hpc : pc ≠ .helperPublish) :
      Moves cfg s i { s with vars := s.vars.mqttHelperConnected i.helperErr, pc := pc }
  | handsOver (hs : s.pc = .publish) (hnone : s.vars.mqttPublishMessage.1 = none) :
      Moves cfg s i { s with vars := s.vars.mqttPublishMessage.2, pc := .helperPublish }
  | published (wake : ℕ) (hs : s.pc = .helperPublish) :
      Moves cfg s i { s with vars := s.vars.mqttHelperPublished i.helperErr, pc := .publishSleep wake }

variable {cfg : MqttConfig} {s : MqttSystem} {i : ThreadInput}

/-- The head of the loop goes to the wait for the network, or out. -/
theorem loopHead_eq (cfg : MqttConfig) (s : MqttSystem) (v : MqttVars) :
    ∃ pc, pc ≠ .helperPublish ∧ s.loopHead cfg v = { s with vars := v, pc := pc } := by
  rw [MqttSystem.loopHead]
  by_cases hrun : v.mqttClientRunning = true
  · exact ⟨.semTake _, nofun, by rw [if_pos hrun]⟩
  · exact ⟨.exited, nofun, by rw [if_neg hrun]⟩

theorem connectReturned_eq (s : MqttSystem) (retryCount : ℕ) (i : ThreadInput) (err : ℤ)
    (v : MqttVars) : ∃ count wake,
      s.connectReturned retryCount i err v = { s with vars := v, pc := .connectSleep count wake } := by
  rw [MqttSystem.connectReturned]
  split
  · exact ⟨_, _, rfl⟩
  · split
    · exact ⟨_, _, rfl⟩
    · exact ⟨_, _, rfl⟩

/-- A message that is not handed over leaves the variables alone. -/
theorem mqttPublishMessage_skipped {v : MqttVars} {err : ℤ} (h : v.mqttPublishMessage.1 = some err) :
    v.mqttPublishMessage.2 = v := by
  rw [MqttVars.mqttPublishMessage] at h ⊢
  split
  · rfl
  · rename_i hready
    rw [if_neg hready] at h
    split
    · rfl
    · rename_i hconn
      rw [if_neg hconn] at h
      cases h

/-- A step that only picks one of two next points goes on. -/
theorem moves_ite {p : Prop} [Decidable p] {a b : MqttSystem} (ha : Moves cfg s i a)
    (hb : Moves cfg s i b) : Moves cfg s i (if p then a else b) := by
  split
  · exact ha
  · exact hb

theorem moves_pc_ite {p : Prop} [Decidable p] {a b : MqttPc} (hs : s.pc ≠ .helperPublish)
    (ha : a ≠ .helperPublish) (hb : b ≠ .helperPublish) :
    Moves cfg s i { s with pc := if p then a else b } := by
  refine .goesOn _ hs ?_
  split
  · exact ha
  · exact hb

theorem moves_stay (hs : s.pc ≠ .helperPublish) : Moves cfg s i s := .goesOn s.pc hs hs

theorem moves_loopHead (hs : s.pc ≠ .helperPublish) : Moves cfg s i (s.loopHead cfg s.vars) := by
  obtain ⟨pc, hpc, heq⟩ := loopHead_eq cfg s s.vars
  rw [heq]
  exact .goesOn pc hs hpc

theorem moves_record (hs : s.pc = .networkTest ∨ s.pc = .mainExit) :
    Moves cfg s i (s.loopHead cfg s.recordIfSeen) := by
  obtain ⟨pc, hpc, heq⟩ := loopHead_eq cfg s s.recordIfSeen
  rw [heq]
  exact .records pc hs hpc

/-- **One step of the thread.** -/
theorem threadStep_moves (cfg : MqttConfig) (s : MqttSystem) (i : ThreadInput) :
    Moves cfg s i (s.threadStep cfg i) := by
  obtain ⟨now, v, pc⟩ := s
  cases pc with
  | helperInit => exact moves_ite (.goesOn _ nofun nofun) (moves_loopHead nofun)
  | semTake timeout =>
    refine moves_ite (moves_stay nofun) (.takesSem _ timeout rfl ?_)
    split
    · exact nofun
    · exact nofun
  | networkTest => exact moves_ite (.goesOn _ nofun nofun) (moves_record (Or.inl rfl))
  | resolverSleep wake => exact moves_ite (moves_stay nofun) (.goesOn _ nofun nofun)
  | dnsTest dnsWaitTime => exact moves_pc_ite nofun nofun nofun
  | dnsCheck dnsWaitTime => exact moves_ite (.goesOn _ nofun nofun) (.goesOn _ nofun nofun)
  | dnsSleep dnsWaitTime wake => exact moves_ite (moves_stay nofun) (.goesOn _ nofun nofun)
  | dnsDone => exact moves_ite (moves_loopHead nofun) (moves_pc_ite nofun nofun nofun)
  | initialSleep wake => exact moves_ite (moves_stay nofun) (.goesOn _ nofun nofun)
  | initialDone => exact moves_ite (moves_loopHead nofun) (.goesOn _ nofun nofun)
  | mainLoop => exact moves_pc_ite nofun nofun nofun
  | connectTest retryCount => exact moves_pc_ite nofun nofun nofun
  | doConnect retryCount =>
    simp only [MqttSystem.threadStep]
    split
    · rename_i err v' heq
      obtain ⟨count, wake, hret⟩ := connectReturned_eq ⟨now, v, .doConnect retryCount⟩ retryCount i err v'
      have hv : v' = (v.mqttDoConnect cfg i.hwIdErr i.clientId).2 := by
        rw [heq]
      rw [hret, hv]
      exact .doesConnect _ retryCount rfl nofun
    · rename_i v' heq
      have hv : v' = (v.mqttDoConnect cfg i.hwIdErr i.clientId).2 := by
        rw [heq]
      rw [hv]
      exact .doesConnect _ retryCount rfl nofun
  | helperConnect retryCount =>
    obtain ⟨count, wake, hret⟩ := connectReturned_eq ⟨now, v, .helperConnect retryCount⟩ retryCount i
      i.helperErr (v.mqttHelperConnected i.helperErr)
    show Moves cfg _ i (MqttSystem.connectReturned _ _ _ _ _)
    rw [hret]
    exact .connected _ retryCount rfl nofun
  | connectSleep retryCount wake => exact moves_ite (moves_stay nofun) (.goesOn _ nofun nofun)
  | publishTest => exact moves_pc_ite nofun nofun nofun
  | publish =>
    simp only [MqttSystem.threadStep]
    split
    · rename_i err v' heq
      have hv : v' = v := by
        have herr : v.mqttPublishMessage.1 = some err := by
          rw [heq]
        have hskip := mqttPublishMessage_skipped herr
        rw [heq] at hskip
        exact hskip
      rw [hv]
      exact .goesOn _ nofun nofun
    · rename_i v' heq
      have hv : v' = v.mqttPublishMessage.2 := by
        rw [heq]
      rw [hv]
      exact .handsOver rfl (by rw [heq])
  | helperPublish => exact .published _ rfl
  | publishSleep wake => exact moves_ite (moves_stay nofun) (.goesOn _ nofun nofun)
  | brokerTest => exact moves_pc_ite nofun nofun nofun
  | brokerSleep wake => exact moves_ite (moves_stay nofun) (.goesOn _ nofun nofun)
  | mainExit => exact moves_record (Or.inr rfl)
  | exited => exact moves_stay nofun

/-! ### What connecting leaves alone -/

/-- Every counter of the client. -/
@[ext] structure ClientCounters where
  messageCount : UInt32
  mqttEchoTotal : ℕ
  mqttEchoFailures : ℕ
  echoTotalMetric : ℕ
  echoFailMetric : ℕ
  lastPublishedCount : UInt32
  lastEchoAtMsg : UInt32
  deriving DecidableEq, Repr

def clientCounters (v : MqttVars) : ClientCounters :=
  ⟨v.messageCount, v.mqttEchoTotal, v.mqttEchoFailures, v.echoTotalMetric, v.echoFailMetric,
    v.lastPublishedCount, v.lastEchoAtMsg⟩

theorem notifyConnected_counters (v : MqttVars) :
    clientCounters v.appMqttClientNotifyConnected = clientCounters v := by
  rw [MqttVars.appMqttClientNotifyConnected]
  split
  · rfl
  · rfl

theorem notifyDisconnected_counters (v : MqttVars) :
    clientCounters v.appMqttClientNotifyDisconnected = clientCounters v := by
  rw [MqttVars.appMqttClientNotifyDisconnected]
  split
  · rfl
  · rfl

theorem onMqttConnack_counters (v : MqttVars) (returnCode : ℕ) :
    clientCounters (v.onMqttConnack returnCode) = clientCounters v := by
  rw [MqttVars.onMqttConnack]
  split
  · rfl
  · rfl

theorem mqttDoConnect_counters (cfg : MqttConfig) (v : MqttVars) (hwIdErr : ℤ)
    (clientId : List UInt8) :
    clientCounters (v.mqttDoConnect cfg hwIdErr clientId).2 = clientCounters v := by
  rw [MqttVars.mqttDoConnect]
  cases v.currentState with
  | connected => rfl
  | connecting => rfl
  | disconnected =>
    simp only [MqttVars.setupTopics]
    split
    · rfl
    · split
      · rfl
      · rfl

theorem mqttHelperConnected_counters (v : MqttVars) (err : ℤ) :
    clientCounters (v.mqttHelperConnected err) = clientCounters v := by
  rw [MqttVars.mqttHelperConnected]
  split
  · rfl
  · rfl

/-! ### The publish counters -/

/-- The counters that publishing and its echoes go by. -/
@[ext] structure PublishCounters where
  messageCount : UInt32
  lastPublishedCount : UInt32
  lastEchoAtMsg : UInt32
  deriving DecidableEq, Repr

def publishCounters (v : MqttVars) : PublishCounters :=
  ⟨v.messageCount, v.lastPublishedCount, v.lastEchoAtMsg⟩

theorem publishCounters_eq {v v' : MqttVars} (h : clientCounters v' = clientCounters v) :
    publishCounters v' = publishCounters v :=
  congrArg (fun c : ClientCounters =>
    (⟨c.messageCount, c.lastPublishedCount, c.lastEchoAtMsg⟩ : PublishCounters)) h

theorem onMqttSuback_publishCounters (v : MqttVars) (messageId : ℕ) (result : ℤ) :
    publishCounters (v.onMqttSuback messageId result) = publishCounters v := by
  rw [MqttVars.onMqttSuback]
  split
  · rfl
  · rfl

theorem recordIfSeen_publishCounters (s : MqttSystem) :
    publishCounters s.recordIfSeen = publishCounters s.vars := by
  rw [MqttSystem.recordIfSeen]
  split
  · rfl
  · rfl

theorem mqttPublishMessage_handed {v : MqttVars} (h : v.mqttPublishMessage.1 = none) :
    v.mqttPublishMessage.2 = { v with messageCount := v.messageCount + 1 } := by
  rw [MqttVars.mqttPublishMessage] at h ⊢
  split
  · rename_i hready
    rw [if_pos hready] at h
    cases h
  · rename_i hready
    rw [if_neg hready] at h
    split
    · rename_i hconn
      rw [if_pos hconn] at h
      cases h
    · rfl

/-- One event, by what it does to the publish counters. -/
inductive PublishStep (s : MqttSystem) : MqttEvent → MqttSystem → Prop where
  | other (e : MqttEvent) (s' : MqttSystem) (hecho : ∀ payload, e ≠ .onMqttPublish payload)
      (hpublished : ∀ i, e = .thread i → s.pc ≠ .helperPublish)
      (hcounters : publishCounters s'.vars = publishCounters s.vars)
      (hpc : s'.pc = .helperPublish ↔ s.pc = .helperPublish) : PublishStep s e s'
  | echo (payload : List UInt8) :
      PublishStep s (.onMqttPublish payload) { s with vars := s.vars.onMqttPublish payload }
  | handsOver (i : ThreadInput) (hs : s.pc = .publish) :
      PublishStep s (.thread i)
        { s with vars := { s.vars with messageCount := s.vars.messageCount + 1 }, pc := .helperPublish }
  | published (i : ThreadInput) (wake : ℕ) (hs : s.pc = .helperPublish) :
      PublishStep s (.thread i)
        { s with vars := s.vars.mqttHelperPublished i.helperErr, pc := .publishSleep wake }

theorem publishStep_thread (cfg : MqttConfig) (s : MqttSystem) (i : ThreadInput) :
    PublishStep s (.thread i) (s.threadStep cfg i) := by
  -- a step from elsewhere to elsewhere that keeps the counters
  have hother : ∀ v pc, s.pc ≠ .helperPublish → pc ≠ .helperPublish →
      publishCounters v = publishCounters s.vars →
      PublishStep s (.thread i) { s with vars := v, pc := pc } := by
    intro v pc hs hpc hcounters
    exact .other _ _ nofun (fun _ _ => hs) hcounters (iff_of_false hpc hs)
  have hmoves := threadStep_moves cfg s i
  generalize s.threadStep cfg i = s' at hmoves ⊢
  rcases hmoves with ⟨pc, hs, hpc⟩ | ⟨pc, timeout, hs, hpc⟩ | ⟨pc, hs, hpc⟩ |
    ⟨pc, count, hs, hpc⟩ | ⟨pc, count, hs, hpc⟩ | ⟨hs, hnone⟩ | ⟨wake, hs⟩
  · exact hother s.vars pc hs hpc rfl
  · exact hother _ pc (by rw [hs]; exact nofun) hpc rfl
  · refine hother _ pc ?_ hpc (recordIfSeen_publishCounters s)
    rcases hs with hs | hs
    · rw [hs]
      exact nofun
    · rw [hs]
      exact nofun
  · exact hother _ pc (by rw [hs]; exact nofun) hpc (publishCounters_eq (mqttDoConnect_counters cfg _ _ _))
  · exact hother _ pc (by rw [hs]; exact nofun) hpc (publishCounters_eq (mqttHelperConnected_counters _ _))
  · rw [mqttPublishMessage_handed hnone]
    exact .handsOver i hs
  · exact .published i wake hs

theorem stepMqtt_publishStep (cfg : MqttConfig) (s : MqttSystem) (e : MqttEvent) :
    PublishStep s e (stepMqtt cfg s e) := by
  cases e with
  | thread i => exact publishStep_thread cfg s i
  | onMqttPublish payload => exact .echo payload
  | elapse ms => exact .other _ _ nofun nofun rfl Iff.rfl
  | notifyConnected =>
    exact .other _ _ nofun nofun (publishCounters_eq (notifyConnected_counters s.vars)) Iff.rfl
  | notifyDisconnected =>
    exact .other _ _ nofun nofun (publishCounters_eq (notifyDisconnected_counters s.vars)) Iff.rfl
  | onMqttConnack returnCode =>
    have hcounters := onMqttConnack_counters s.vars returnCode
    exact .other _ _ nofun nofun (publishCounters_eq hcounters) Iff.rfl
  | onMqttDisconnect result => exact .other _ _ nofun nofun rfl Iff.rfl
  | onMqttSuback messageId result =>
    exact .other _ _ nofun nofun (onMqttSuback_publishCounters s.vars messageId result) Iff.rfl

/-! ### A connected client -/

/-- From boot to the first test before a publish, with the broker connected. -/
def connectedClient : List MqttEvent :=
  firstAttempt ++ [.thread okInput, .onMqttConnack 0, .elapse 500, .thread okInput, .thread okInput]

/-- The publish test and the two halves of one publish, to which the helper answers `err`. -/
def onePublish (err : ℤ) : List MqttEvent :=
  [.thread okInput, .thread okInput, .thread { okInput with helperErr := err }]

/-- The sleep until the next publish test. -/
def nextPublish : List MqttEvent := [.elapse 300000, .thread okInput]

end WifiMemfault.MqttThread
