import WifiMemfault.MqttPace
import WifiMemfault.Lib.Simulation

/-!
# Where the MQTT client publishes, and what it is subscribed to

`setup_topics` writes `pub_topic` before each connection, `on_mqtt_connack` subscribes to it, and the messages
go to it.  An echo can come back only if the two are the same topic.  They are, over whole runs with the
listener and the callbacks of the helper between any two statements of the thread; and the topic is the whole
`Memfault/<client id>/<topic>`, never one that the buffer has cut.
-/

namespace WifiMemfault.MqttTopics

open MqttClient MqttThread MqttListener
open MqttPace (startsPublish brokerConnects)
open FailedAttempts (mqttOk)

abbrev Topic : Type := List UInt8

/-- What the broker sends to the client: with a clean session, what the client has subscribed to since it
connected. -/
abbrev Session : Type := Option Topic

/-- The subscription `on_mqtt_connack` asks for, if `pub_topic` is not empty. -/
def subscription (v : MqttVars) : Session := if v.pubTopic.headD 0 ≠ 0 then some v.pubTopic else none

/-- The broker accepts the connection. -/
def accepts : ListenedEvent → Bool
  | .client ⟨.onMqttConnack 0, _⟩ => true
  | _ => false

/-- What an event makes of the session, if it begins or ends one. -/
def sessionBecomes (s : ListenedMqtt) : ListenedEvent → Option Session
  | .client ⟨.onMqttConnack 0, _⟩ => some (subscription s.client.vars)
  | .client ⟨.onMqttDisconnect _, _⟩ => some none
  | _ => none

/-- The session after a run. -/
def session (cfg : MqttConfig) (es : List ListenedEvent) : Session :=
  Runs.run (fun _ session => session) none (Runs.seen (stepListened cfg) sessionBecomes ListenedMqtt.boot es)

def einval : ℤ := -22

/-- `app_mqtt_client_publish` up to its call of `mqtt_helper_publish`: the topic and the payload it hands over,
or what it returns. -/
def appMqttClientPublish (v : MqttVars) (payload : Option (List UInt8)) : Except ℤ (Topic × List UInt8) :=
  if v.currentState ≠ .connected then .error enotconn
  else
    match payload with
    | none => .error einval
    | some payload => .ok (v.pubTopic, payload)

/-! ### What an event does to the topic -/

/-- `pub_topic` holds the topic of the client ID, and the buffer has cut nothing off. -/
structure Whole (cfg : MqttConfig) (v : MqttVars) : Prop where
  topic : v.pubTopic = MqttVars.fullTopic cfg v.clientId
  fits : v.clientId.length + 10 ≤ cfg.clientIdBufferSize

/-- What an event may do to the topic and to the state of the connection. -/
inductive TopicMoves (cfg : MqttConfig) (v : MqttVars) : Option Session → MqttVars → Prop where
  | keeps {v' : MqttVars} (hstate : v'.currentState = v.currentState) (hid : v'.clientId = v.clientId)
      (htopic : v'.pubTopic = v.pubTopic) : TopicMoves cfg v none v'
  | loses {v' : MqttVars} (session : Option Session) (h : v'.currentState = .disconnected) :
      TopicMoves cfg v session v'
  | connects {v' : MqttVars} (h : v'.currentState = .connecting) (hwhole : Whole cfg v') :
      TopicMoves cfg v none v'
  | accepts : TopicMoves cfg v (some (subscription v)) { v with currentState := .connected }

variable {cfg : MqttConfig} {v : MqttVars}

theorem fullTopic_length (cfg : MqttConfig) (clientId : List UInt8) :
    (MqttVars.fullTopic cfg clientId).length = clientId.length + 10 + cfg.publishTopic.length := by
  simp only [MqttVars.fullTopic, List.length_append, List.length_cons, List.length_nil]
  omega

/-- A topic that `setup_topics` accepts is whole. -/
theorem whole_of_setupTopics (h : (v.setupTopics cfg).1 = 0) : Whole cfg (v.setupTopics cfg).2 := by
  have hlength := fullTopic_length cfg v.clientId
  simp only [MqttVars.setupTopics] at h ⊢
  split at h
  · cases h
  · rename_i hshort
    refine ⟨List.take_of_length_le (by omega), ?_⟩
    show v.clientId.length + 10 ≤ cfg.clientIdBufferSize
    omega

theorem topicMoves_doConnect (cfg : MqttConfig) (v : MqttVars) (hwIdErr : ℤ) (clientId : List UInt8) :
    TopicMoves cfg v none (v.mqttDoConnect cfg hwIdErr clientId).2 := by
  rw [MqttVars.mqttDoConnect]
  cases v.currentState with
  | connected => exact .keeps rfl rfl rfl
  | connecting => exact .keeps rfl rfl rfl
  | disconnected =>
    simp only
    split
    · exact .loses none rfl
    · split
      · exact .loses none rfl
      · rename_i hsetup
        exact .connects rfl (whole_of_setupTopics (not_not.mp hsetup))

theorem topicMoves_helperConnected (v : MqttVars) (err : ℤ) :
    TopicMoves cfg v none (v.mqttHelperConnected err) := by
  rw [MqttVars.mqttHelperConnected]
  split
  · exact .loses none rfl
  · exact .keeps rfl rfl rfl

theorem topicMoves_helperPublished (v : MqttVars) (err : ℤ) :
    TopicMoves cfg v none (v.mqttHelperPublished err) := by
  simp only [MqttVars.mqttHelperPublished]
  split
  · exact .keeps rfl rfl rfl
  · split
    · exact .keeps rfl rfl rfl
    · exact .keeps rfl rfl rfl

theorem topicMoves_publish (v : MqttVars) : TopicMoves cfg v none v.mqttPublishMessage.2 := by
  rw [MqttVars.mqttPublishMessage]
  split
  · exact .keeps rfl rfl rfl
  · split
    · exact .keeps rfl rfl rfl
    · exact .keeps rfl rfl rfl

/-- Of the statements of the thread only `mqtt_do_connect` writes the topic. -/
theorem topicMoves_thread (cfg : MqttConfig) (s : MqttSystem) (i : ThreadInput) :
    TopicMoves cfg s.vars none (s.threadStep cfg i).vars := by
  have hmoves := threadStep_moves cfg s i
  generalize s.threadStep cfg i = s' at hmoves ⊢
  cases hmoves with
  | goesOn pc hs hpc => exact .keeps rfl rfl rfl
  | takesSem pc timeout hs hpc => exact .keeps rfl rfl rfl
  | records pc hs hpc =>
    simp only [MqttSystem.recordIfSeen]
    split
    · exact .keeps rfl rfl rfl
    · exact .keeps rfl rfl rfl
  | doesConnect pc retryCount hs hpc => exact topicMoves_doConnect cfg s.vars i.hwIdErr i.clientId
  | connected pc retryCount hs hpc => exact topicMoves_helperConnected s.vars i.helperErr
  | handsOver hs hnone => exact topicMoves_publish s.vars
  | published wake hs => exact topicMoves_helperPublished s.vars i.helperErr

theorem topicMoves_publishCallback (v : MqttVars) (payload : List UInt8) :
    TopicMoves cfg v none (v.onMqttPublish payload) := by
  simp only [MqttVars.onMqttPublish]
  split
  · exact .keeps rfl rfl rfl
  · exact .keeps rfl rfl rfl

/-- **One event.** -/
theorem topicMoves_step (cfg : MqttConfig) (s : ListenedMqtt) (e : ListenedEvent) :
    TopicMoves cfg s.client.vars (sessionBecomes s e) (stepListened cfg s e).client.vars := by
  cases e with
  | client e =>
    obtain ⟨e, hclient⟩ := e
    cases e with
    | elapse ms => exact .keeps rfl rfl rfl
    | thread i => exact topicMoves_thread cfg s.client i
    | notifyConnected => cases hclient
    | notifyDisconnected => cases hclient
    | onMqttConnack returnCode =>
      cases returnCode with
      | zero => exact .accepts
      | succ n => exact .loses _ rfl
    | onMqttDisconnect result => exact .loses _ rfl
    | onMqttPublish payload => exact topicMoves_publishCallback s.client.vars payload
    | onMqttSuback messageId result =>
      simp only [stepListened, stepMqtt, MqttVars.onMqttSuback]
      split
      · exact .keeps rfl rfl rfl
      · exact .keeps rfl rfl rfl
  | wifiMsg type =>
    simp only [stepListened]
    split
    · cases type with
      | wifiStaConnected =>
        simp only [ListenedMqtt.wifiListener]
        split
        · exact .keeps rfl rfl rfl
        · exact .keeps rfl rfl rfl
      | wifiStaDisconnected => exact .keeps rfl rfl rfl
      | other => exact .keeps rfl rfl rfl
    · exact .keeps rfl rfl rfl
  | listener =>
    simp only [stepListened, ListenedMqtt.listenerStep]
    cases s.listener with
    | setDisconnected => exact .loses _ rfl
    | _ => exact .keeps rfl rfl rfl

/-! ### The session is that of the topic -/

/-- While the client is connected, the session is the subscription to what `pub_topic` holds. -/
def Subscribed (s : ListenedMqtt) (session : Session) : Prop :=
  s.client.vars.currentState = .connected → session = subscription s.client.vars

theorem subscribed_simulates (cfg : MqttConfig) :
    Runs.Simulates (stepListened cfg) (fun _ session => session) sessionBecomes Subscribed := by
  constructor
  · intro s t e d h hsees
    have hmoves := topicMoves_step cfg s e
    rw [hsees] at hmoves
    rw [Subscribed]
    generalize (stepListened cfg s e).client.vars = v' at hmoves ⊢
    cases hmoves with
    | loses _ hlost =>
      intro hconnected
      rw [hlost] at hconnected
      cases hconnected
    | accepts => exact fun _ => rfl
  · intro s t e h hsees
    have hmoves := topicMoves_step cfg s e
    rw [hsees] at hmoves
    rw [Subscribed]
    generalize (stepListened cfg s e).client.vars = v' at hmoves ⊢
    intro hconnected
    cases hmoves with
    | keeps hstate hid htopic =>
      rw [subscription, htopic]
      exact h (hstate ▸ hconnected)
    | loses _ hlost =>
      rw [hlost] at hconnected
      cases hconnected
    | connects hconnecting hwhole =>
      rw [hconnecting] at hconnected
      cases hconnected

theorem subscribed_run (cfg : MqttConfig) (es : List ListenedEvent) :
    Subscribed (Runs.run (stepListened cfg) ListenedMqtt.boot es) (session cfg es) :=
  (subscribed_simulates cfg).run es ListenedMqtt.boot none fun h => by cases h

/-! ### The topic is whole -/

/-- The helper reports an accepted connection to a client that is connecting. -/
def AcceptsConnecting (s : ListenedMqtt) (e : ListenedEvent) : Prop :=
  accepts e = true → s.client.vars.currentState = .connecting

instance (s : ListenedMqtt) (e : ListenedEvent) : Decidable (AcceptsConnecting s e) :=
  inferInstanceAs (Decidable (_ → _))

/-- From the first connection on the topic is whole, unless the client is disconnected. -/
def TopicInv (cfg : MqttConfig) (s : ListenedMqtt) : Prop :=
  s.client.vars.currentState ≠ .disconnected → Whole cfg s.client.vars

theorem accepts_of_session {s : ListenedMqtt} {e : ListenedEvent} {topic : Session}
    (h : sessionBecomes s e = some topic)
    (hstate : (stepListened cfg s e).client.vars.currentState ≠ .disconnected) : accepts e = true := by
  unfold sessionBecomes at h
  split at h
  · rfl
  · exact absurd rfl hstate
  · cases h

theorem topicInv_step (cfg : MqttConfig) (s : ListenedMqtt) (e : ListenedEvent) (h : TopicInv cfg s)
    (he : AcceptsConnecting s e) : TopicInv cfg (stepListened cfg s e) := by
  intro hstate'
  have hmoves := topicMoves_step cfg s e
  generalize hbecomes : sessionBecomes s e = becomes at hmoves
  have haccepts : ∀ topic, becomes = some topic → accepts e = true :=
    fun topic htopic => accepts_of_session (hbecomes.trans htopic) hstate'
  generalize (stepListened cfg s e).client.vars = v' at hmoves hstate' ⊢
  cases hmoves with
  | keeps hstate hid htopic =>
    have hwhole := h (hstate ▸ hstate')
    exact ⟨by rw [htopic, hid, hwhole.topic], by rw [hid]; exact hwhole.fits⟩
  | loses _ hlost => exact absurd hlost hstate'
  | connects _ hwhole => exact hwhole
  | accepts =>
    have hconnecting := he (haccepts _ rfl)
    have hwhole := h (by rw [hconnecting]; decide)
    exact ⟨hwhole.topic, hwhole.fits⟩

theorem topicInv_run (cfg : MqttConfig) (es : List ListenedEvent)
    (horderly : Runs.EachStep (stepListened cfg) AcceptsConnecting ListenedMqtt.boot es) :
    TopicInv cfg (Runs.run (stepListened cfg) ListenedMqtt.boot es) :=
  Runs.run_invariant (topicInv_step cfg) es ListenedMqtt.boot (fun h => absurd rfl h) horderly

/-! ### Messages and echoes -/

/-- A whole topic is not empty. -/
theorem subscription_whole (h : Whole cfg v) : subscription v = some (MqttVars.fullTopic cfg v.clientId) := by
  rw [subscription, h.topic]
  rfl

theorem connected_of_publish {s : ListenedMqtt} {e : ListenedEvent} (h : startsPublish s e = true) :
    s.client.vars.currentState = .connected := by
  unfold startsPublish at h
  split at h
  · obtain ⟨-, hmsg⟩ := of_decide_eq_true h
    rw [MqttVars.mqttPublishMessage] at hmsg
    split at hmsg
    · cases hmsg
    · split at hmsg
      · cases hmsg
      · rename_i hconnected
        exact not_not.mp hconnected
  · cases h

theorem connected_of_appPublish {payload : Option (List UInt8)} {message : Topic × List UInt8}
    (h : appMqttClientPublish v payload = .ok message) :
    v.currentState = .connected ∧ message.1 = v.pubTopic := by
  unfold appMqttClientPublish at h
  split at h
  · cases h
  · rename_i hconnected
    cases payload with
    | none => cases h
    | some payload =>
      cases h
      exact ⟨not_not.mp hconnected, rfl⟩

/-- **The messages go where the client is subscribed.**  If the helper reports accepted connections only to a
client that is connecting, then in every run the topic of every message handed over, by the thread or by
`app_mqtt_client_publish`, is the whole topic of the client ID and is the one the session is subscribed to;
the ID then leaves at least ten bytes of its buffer. -/
theorem messages_subscribed (cfg : MqttConfig) (es : List ListenedEvent)
    (horderly : Runs.EachStep (stepListened cfg) AcceptsConnecting ListenedMqtt.boot es) :
    let s := Runs.run (stepListened cfg) ListenedMqtt.boot es
    let v := s.client.vars
    let topic := MqttVars.fullTopic cfg v.clientId
    let subscribed := session cfg es = some topic ∧ v.clientId.length + 10 ≤ cfg.clientIdBufferSize
    (∀ e, startsPublish s e = true → v.pubTopic = topic ∧ subscribed) ∧
      ∀ payload message, appMqttClientPublish v payload = .ok message → message.1 = topic ∧ subscribed := by
  intro s v topic subscribed
  have hwhole : v.currentState = .connected → v.pubTopic = topic ∧ subscribed := by
    intro hconnected
    have h : Whole cfg v := topicInv_run cfg es horderly (by rw [hconnected]; decide)
    exact ⟨h.topic, (subscribed_run cfg es hconnected).trans (subscription_whole h), h.fits⟩
  refine ⟨fun e hstarts => hwhole (connected_of_publish hstarts), fun payload message hmessage => ?_⟩
  obtain ⟨hconnected, htopic⟩ := connected_of_appPublish hmessage
  obtain ⟨hpub, hsubscribed⟩ := hwhole hconnected
  exact ⟨htopic.trans hpub, hsubscribed⟩

/-- From a connected broker to the first message. -/
def toFirstMessage : List ListenedEvent :=
  brokerConnects ++ [.client ⟨.elapse 500, rfl⟩] ++ List.replicate 3 mqttOk

theorem messages_subscribed_first :
    session sampleConfig toFirstMessage = some (MqttVars.fullTopic sampleConfig [49]) :=
  ((messages_subscribed sampleConfig toFirstMessage (by decide +kernel)).1 mqttOk (by decide +kernel)).2.1

end WifiMemfault.MqttTopics
