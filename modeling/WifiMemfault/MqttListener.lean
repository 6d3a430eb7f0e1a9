import WifiMemfault.MqttLink
import WifiMemfault.MqttThreadSteps
import WifiMemfault.MemfaultCore

/-!
# The MQTT client under its WiFi listener

`stepMqtt` runs a notification as one event.  Here the statements of `app_mqtt_client_notify_connected` and
`app_mqtt_client_notify_disconnected` come one by one, with the thread and the callbacks of the helper
between any two of them.
-/

namespace WifiMemfault.MqttListener

open MemfaultCore (WifiMsgType)
open MqttClient MqttThread
open MqttLink (notifyDisconnectedBegin notifyDisconnectedEnd)

/-- Where the listener is in one of the two notifications. -/
inductive ListenerPc where
  | idle
  | setSeen
  | setReady
  | giveSem
  | stateTest
  | helperDisconnect
  | setDisconnected
  deriving DecidableEq, Repr

structure ListenedMqtt where
  client : MqttSystem
  listener : ListenerPc
  deriving DecidableEq, Repr

def ListenedMqtt.boot : ListenedMqtt := ⟨MqttSystem.boot, .idle⟩

/-- The event is a notification, which the listener runs here. -/
def isNotification : MqttEvent → Bool
  | .notifyConnected => true
  | .notifyDisconnected => true
  | _ => false

/-- An event of the thread, the clock or a callback. -/
abbrev ClientEvent : Type := { e : MqttEvent // isNotification e = false }

inductive ListenedEvent where
  | client (e : ClientEvent)
  | wifiMsg (type : WifiMsgType)
  | listener

namespace ListenedMqtt

variable (s : ListenedMqtt)

/-- The variables change to `v`. -/
def withVars (v : MqttVars) (listener : ListenerPc) : ListenedMqtt :=
  { client := { s.client with vars := v }, listener := listener }

/-- `app_mqtt_wifi_listener`, up to the test of the notification it calls. -/
def wifiListener : WifiMsgType → ListenedMqtt
  | .wifiStaConnected =>
    if s.client.vars.mqttClientRunning = true ∧ s.client.vars.networkReady = false then
      { s with listener := .setSeen }
    else s
  | .wifiStaDisconnected => s.withVars (notifyDisconnectedBegin s.client.vars) .stateTest
  | .other => s

/-- The next statement of the notification. -/
def listenerStep : ListenedMqtt :=
  let v := s.client.vars
  match s.listener with
  | .idle => s
  | .setSeen => s.withVars { v with hasSeenNetworkConnection := true } .setReady
  | .setReady => s.withVars { v with networkReady := true } .giveSem
  | .giveSem => s.withVars { v with mqttThreadSem := 1 } .idle
  | .stateTest =>
    { s with listener := if v.currentState = .connected then .helperDisconnect else .idle }
  | .helperDisconnect => { s with listener := .setDisconnected }
  | .setDisconnected => s.withVars (notifyDisconnectedEnd v) .idle

end ListenedMqtt

/-- One event.  The messages come one after the other. -/
def stepListened (cfg : MqttConfig) (s : ListenedMqtt) : ListenedEvent → ListenedMqtt
  | .client e => { s with client := stepMqtt cfg s.client e.1 }
  | .wifiMsg type => if s.listener = .idle then s.wifiListener type else s
  | .listener => s.listenerStep

/-- Nothing comes between the statements of a notification. -/
def runListener (s : ListenedMqtt) : ListenedMqtt :=
  s.listenerStep.listenerStep.listenerStep

/-- Run together the statements are the notification. -/
theorem runListener_connected (s : ListenedMqtt) (h : s.listener = .idle) :
    runListener (s.wifiListener .wifiStaConnected) =
      s.withVars s.client.vars.appMqttClientNotifyConnected .idle := by
  rw [ListenedMqtt.wifiListener, MqttVars.appMqttClientNotifyConnected]
  obtain ⟨client, listener⟩ := s
  cases h
  split
  · rfl
  · rfl

theorem runListener_disconnected (s : ListenedMqtt) :
    runListener (s.wifiListener .wifiStaDisconnected) =
      s.withVars s.client.vars.appMqttClientNotifyDisconnected .idle := by
  rw [ListenedMqtt.wifiListener, MqttVars.appMqttClientNotifyDisconnected]
  by_cases hstate : s.client.vars.currentState = .connected
  · simp [runListener, ListenedMqtt.listenerStep, ListenedMqtt.withVars, notifyDisconnectedBegin,
      notifyDisconnectedEnd, hstate]
  · simp [runListener, ListenedMqtt.listenerStep, ListenedMqtt.withVars, notifyDisconnectedBegin,
      hstate]

/-! ### Who changes the flags of the link -/

/-- The variables the listener and the thread share, but for the connection state. -/
@[ext] structure LinkFlags where
  mqttClientRunning : Bool
  networkReady : Bool
  hasSeenNetworkConnection : Bool
  mqttThreadSem : ℕ
  deriving DecidableEq, Repr

def linkFlags (v : MqttVars) : LinkFlags :=
  ⟨v.mqttClientRunning, v.networkReady, v.hasSeenNetworkConnection, v.mqttThreadSem⟩

theorem recordIfSeen_linkFlags (s : MqttSystem) : linkFlags s.recordIfSeen = linkFlags s.vars := by
  rw [MqttSystem.recordIfSeen]
  split
  · rfl
  · rfl

theorem mqttDoConnect_linkFlags (cfg : MqttConfig) (v : MqttVars) (hwIdErr : ℤ)
    (clientId : List UInt8) :
    linkFlags (v.mqttDoConnect cfg hwIdErr clientId).2 = linkFlags v := by
  rw [MqttVars.mqttDoConnect]
  cases v.currentState with
  | connected => rfl
  | connecting => rfl
  | disconnected =>
    simp only [MqttVars.setupTopics]
    split
    · rfl
    · split
      · rfl
      · rfl

theorem mqttHelperConnected_linkFlags (v : MqttVars) (err : ℤ) :
    linkFlags (v.mqttHelperConnected err) = linkFlags v := by
  rw [MqttVars.mqttHelperConnected]
  split
  · rfl
  · rfl

theorem mqttPublishMessage_linkFlags (v : MqttVars) :
    linkFlags v.mqttPublishMessage.2 = linkFlags v := by
  rw [MqttVars.mqttPublishMessage]
  split
  · rfl
  · split
    · rfl
    · rfl

theorem mqttHelperPublished_linkFlags (v : MqttVars) (err : ℤ) :
    linkFlags (v.mqttHelperPublished err) = linkFlags v := by
  simp only [MqttVars.mqttHelperPublished]
  split
  · rfl
  · split
    · rfl
    · rfl

/-- The thread changes one of the flags only, and only at its wait. -/
theorem threadStep_linkFlags (cfg : MqttConfig) (s : MqttSystem) (i : ThreadInput) :
    linkFlags (s.threadStep cfg i).vars = linkFlags s.vars ∨
      ((∃ timeout, s.pc = .semTake timeout) ∧
        linkFlags (s.threadStep cfg i).vars = { linkFlags s.vars with mqttThreadSem := 0 }) := by
  have hmoves := threadStep_moves cfg s i
  generalize s.threadStep cfg i = s' at hmoves ⊢
  cases hmoves with
  | goesOn pc hs hpc => exact Or.inl rfl
  | takesSem pc timeout hs hpc => exact Or.inr ⟨⟨timeout, hs⟩, rfl⟩
  | records pc hs hpc => exact Or.inl (recordIfSeen_linkFlags s)
  | doesConnect pc count hs hpc => exact Or.inl (mqttDoConnect_linkFlags cfg s.vars _ _)
  | connected pc count hs hpc => exact Or.inl (mqttHelperConnected_linkFlags s.vars _)
  | handsOver hs hnone => exact Or.inl (mqttPublishMessage_linkFlags s.vars)
  | published wake hs => exact Or.inl (mqttHelperPublished_linkFlags s.vars _)

theorem onMqttConnack_linkFlags (v : MqttVars) (returnCode : ℕ) :
    linkFlags (v.onMqttConnack returnCode) = linkFlags v := by
  rw [MqttVars.onMqttConnack]
  split
  · rfl
  · rfl

theorem onMqttPublish_linkFlags (v : MqttVars) (payload : List UInt8) :
    linkFlags (v.onMqttPublish payload) = linkFlags v := by
  simp only [MqttVars.onMqttPublish]
  split
  · rfl
  · rfl

theorem onMqttSuback_linkFlags (v : MqttVars) (messageId : ℕ) (result : ℤ) :
    linkFlags (v.onMqttSuback messageId result) = linkFlags v := by
  rw [MqttVars.onMqttSuback]
  split
  · rfl
  · rfl

/-- The callbacks and the clock change none of them. -/
theorem stepMqtt_linkFlags (cfg : MqttConfig) (s : MqttSystem) (e : MqttEvent)
    (hnotify : isNotification e = false) (hthread : ∀ i, e ≠ .thread i) :
    linkFlags (stepMqtt cfg s e).vars = linkFlags s.vars ∧ (stepMqtt cfg s e).pc = s.pc := by
  cases e with
  | elapse ms => exact ⟨rfl, rfl⟩
  | thread i => exact absurd rfl (hthread i)
  | notifyConnected => cases hnotify
  | notifyDisconnected => cases hnotify
  | onMqttConnack returnCode => exact ⟨onMqttConnack_linkFlags s.vars returnCode, rfl⟩
  | onMqttDisconnect result => exact ⟨rfl, rfl⟩
  | onMqttPublish payload => exact ⟨onMqttPublish_linkFlags s.vars payload, rfl⟩
  | onMqttSuback messageId result => exact ⟨onMqttSuback_linkFlags s.vars messageId result, rfl⟩

end WifiMemfault.MqttListener
