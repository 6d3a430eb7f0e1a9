import Mathlib.Algebra.Group.Nat.Defs
import Mathlib.Data.Int.Notation
import Mathlib.Data.List.Basic
import Mathlib.Tactic.Common

/-!
# The static variables and callbacks of the MQTT client

The model of `app_mqtt_client.c` but for its thread: the connection state, the message and echo
counters with the two metrics that report them, the callbacks of the MQTT helper, and the functions the
thread calls.  What the helper and the hardware ID library answer is an argument; `mqtt_helper_connect`
and `mqtt_helper_publish` stand between two of these functions, since callbacks may run while they do.

The echo counters are unbounded here.  The message counters wrap, as `uint32_t` does.
-/

namespace WifiMemfault.MqttClient

def mqttBackoffBaseSec : UInt32 := 30
def mqttBackoffMaxSec : UInt32 := 300

/-- `mqtt_backoff_sec`, none where C leaves a shift by the word size or more undefined. -/
def mqttBackoffSec (retryCount : ℕ) : Option UInt32 :=
  if retryCount ≤ 3 then some 5
  else if retryCount - 4 < 32 then
    let b := mqttBackoffBaseSec <<< UInt32.ofNat (retryCount - 4)
    some (if b < mqttBackoffMaxSec then b else mqttBackoffMaxSec)
  else none

inductive AppMqttClientState where
  | disconnected | connecting | connected
  deriving DecidableEq, Repr

def appMqttEchoTimeoutThreshold : UInt32 := 3

def enetdown : ℤ := -115
def einprogress : ℤ := -119
def emsgsize : ℤ := -122
def enotconn : ℤ := -128

/-- The configuration the client is built with. -/
structure MqttConfig where
  publishIntervalSec : ℕ
  clientIdBufferSize : ℕ
  publishTopic : List UInt8
  interval_pos : 0 < publishIntervalSec

@[ext] structure MqttVars where
  currentState : AppMqttClientState
  mqttClientRunning : Bool
  networkReady : Bool
  hasSeenNetworkConnection : Bool
  messageCount : UInt32
  mqttEchoTotal : ℕ
  mqttEchoFailures : ℕ
  /-- `app_mqtt_echo_total_count` and `app_mqtt_echo_fail_count`, as last reported. -/
  echoTotalMetric : ℕ
  echoFailMetric : ℕ
  lastPublishedCount : UInt32
  lastEchoAtMsg : UInt32
  mqttThreadSem : ℕ
  clientId : List UInt8
  pubTopic : List UInt8
  deriving DecidableEq, Repr

/-- After `app_mqtt_client_init`. -/
def MqttVars.boot : MqttVars :=
  ⟨.disconnected, true, false, false, 0, 0, 0, 0, 0, 0, 0, 0, [], []⟩

namespace MqttVars

variable (v : MqttVars)

/-- `mqtt_echo_total++`, reported. -/
def countTotal : MqttVars :=
  { v with mqttEchoTotal := v.mqttEchoTotal + 1, echoTotalMetric := v.mqttEchoTotal + 1 }

/-- `mqtt_echo_failures++`, reported. -/
def countFailure : MqttVars :=
  { v with mqttEchoFailures := v.mqttEchoFailures + 1, echoFailMetric := v.mqttEchoFailures + 1 }

def mqttRecordFailedAttempt : MqttVars := v.countTotal.countFailure

/-! ### The callbacks of the helper -/

/-- `on_mqtt_connack`.  The subscription it asks for is answered by `on_mqtt_suback`. -/
def onMqttConnack (returnCode : ℕ) : MqttVars :=
  if returnCode ≠ 0 then { v with currentState := .disconnected }
  else { v with currentState := .connected }

/-- `on_mqtt_disconnect`.  The result is only logged. -/
def onMqttDisconnect (_result : ℤ) : MqttVars := { v with currentState := .disconnected }

end MqttVars

def isSpace (b : UInt8) : Bool := b = 32 ∨ (9 ≤ b ∧ b ≤ 13)

def isDigit (b : UInt8) : Bool := 48 ≤ b ∧ b ≤ 57

/-- The number the leading digits stand for. -/
def decimalValue (digits : List UInt8) : ℕ :=
  digits.foldl (fun n b => 10 * n + (b.toNat - 48)) 0

/-- The largest `unsigned long` of a 32-bit target. -/
def ulongMax : ℕ := 2 ^ 32 - 1

/-- `strtoul(s, NULL, 10)`: white space, a sign, digits.  A value out of range is `ULONG_MAX`, a minus
sign negates modulo `2^32`. -/
def strtoul (s : List UInt8) : UInt32 :=
  let s := s.dropWhile isSpace
  let minus := s.head? = some 45
  let s := if s.head? = some 45 ∨ s.head? = some 43 then s.tail else s
  let n := decimalValue (s.takeWhile isDigit)
  if n > ulongMax then UInt32.ofNat ulongMax
  else if minus then 0 - UInt32.ofNat n
  else UInt32.ofNat n

/-- The size of `num_buf`, its terminating byte included. -/
def numBufSize : ℕ := 16

namespace MqttVars

variable (v : MqttVars)

/-- `on_mqtt_publish`.  The topic is only logged. -/
def onMqttPublish (payload : List UInt8) : MqttVars :=
  let numBuf := payload.take (numBufSize - 1)
  let receivedCount := strtoul numBuf
  let counted : MqttVars := { v.countTotal with lastEchoAtMsg := v.messageCount }
  if counted.lastPublishedCount ≠ 0 ∧ receivedCount ≠ counted.lastPublishedCount then
    counted.countFailure
  else counted

def onMqttSuback (_messageId : ℕ) (result : ℤ) : MqttVars :=
  if result = 0 then v else v.countFailure

/-! ### Connecting -/

/-- The topic the client publishes to and subscribes to, `Memfault/<client id>/<topic>`. -/
def fullTopic (cfg : MqttConfig) (clientId : List UInt8) : List UInt8 :=
  [77, 101, 109, 102, 97, 117, 108, 116, 47] ++ clientId ++ [47] ++ cfg.publishTopic

/-- `setup_topics`: what fits of the topic stays in the buffer, with its terminating zero left out. -/
def setupTopics (cfg : MqttConfig) : ℤ × MqttVars :=
  let size := cfg.clientIdBufferSize + (cfg.publishTopic.length + 1)
  let topic := fullTopic cfg v.clientId
  (if topic.length ≥ size then emsgsize else 0, { v with pubTopic := topic.take (size - 1) })

/-- `mqtt_do_connect` up to its call of `mqtt_helper_connect`: none if it gets there, else what it
returns.  `hw_id_get` returns `hwIdErr` and writes `clientId`. -/
def mqttDoConnect (cfg : MqttConfig) (hwIdErr : ℤ) (clientId : List UInt8) : Option ℤ × MqttVars :=
  match v.currentState with
  | .connected => (some 0, v)
  | .connecting => (some einprogress, v)
  | .disconnected =>
    let connecting : MqttVars := { v with currentState := .connecting, clientId := clientId }
    if hwIdErr ≠ 0 then (some hwIdErr, { connecting with currentState := .disconnected })
    else
      let r := connecting.setupTopics cfg
      if r.1 ≠ 0 then (some r.1, { r.2 with currentState := .disconnected }) else (none, r.2)

/-- The rest of `mqtt_do_connect`, after `mqtt_helper_connect` returned `err`. -/
def mqttHelperConnected (err : ℤ) : MqttVars :=
  if err ≠ 0 then { v with currentState := .disconnected } else v

/-! ### Publishing -/

/-- `mqtt_publish_message` up to its call of `mqtt_helper_publish`: none if it gets there. -/
def mqttPublishMessage : Option ℤ × MqttVars :=
  if v.networkReady = false then (some enetdown, v)
  else if v.currentState ≠ .connected then (some enotconn, v)
  else (none, { v with messageCount := v.messageCount + 1 })

/-- The echo timeout is due at this publish. -/
def echoTimeout : Bool :=
  appMqttEchoTimeoutThreshold < v.messageCount ∧
    v.messageCount - v.lastEchoAtMsg = appMqttEchoTimeoutThreshold

/-- The rest of `mqtt_publish_message`, after `mqtt_helper_publish` returned `err`. -/
def mqttHelperPublished (err : ℤ) : MqttVars :=
  if err ≠ 0 then v.countFailure
  else
    let published : MqttVars := { v with lastPublishedCount := v.messageCount }
    if published.echoTimeout then published.countFailure else published

/-! ### The WiFi listener -/

def appMqttClientNotifyConnected : MqttVars :=
  if v.mqttClientRunning = true ∧ v.networkReady = false then
    { v with hasSeenNetworkConnection := true, networkReady := true, mqttThreadSem := 1 }
  else v

def appMqttClientNotifyDisconnected : MqttVars :=
  if v.currentState = .connected then
    { v with networkReady := false, currentState := .disconnected }
  else { v with networkReady := false }

end MqttVars

end WifiMemfault.MqttClient
