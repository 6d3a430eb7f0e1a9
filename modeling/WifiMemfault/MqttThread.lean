import WifiMemfault.MqttClient
import WifiMemfault.Lib.Runs

/-!
# The thread of the MQTT client

`app_mqtt_client_thread` with its network wait, its DNS loop, its connect loop and its publish loop, in
a system with the callbacks of the helper, the WiFi listener and the clock.  Each statement of the thread
that reads or changes shared variables is one event, so the others may come between any two of them.

A sleep carries the time it ends; the thread may run again from then on.  An event that is not possible
in a state leaves the state alone.  Times are in milliseconds.
-/

namespace WifiMemfault.MqttThread

open MqttClient

def dnsCheckIntervalSec : ℕ := 10
def dnsTimeout : ℕ := 300

/-- `K_SECONDS`. -/
def kSeconds (s : ℕ) : ℕ := 1000 * s

/-- The poll of a connection under way, `K_MSEC(500)`. -/
def pollMs : ℕ := 500

/-- Where the thread is. -/
inductive MqttPc where
  | helperInit
  | semTake (timeout : ℕ)
  | networkTest
  | resolverSleep (wake : ℕ)
  | dnsTest (dnsWaitTime : ℕ)
  | dnsCheck (dnsWaitTime : ℕ)
  | dnsSleep (dnsWaitTime wake : ℕ)
  | dnsDone
  | initialSleep (wake : ℕ)
  | initialDone
  | mainLoop
  | connectTest (retryCount : ℕ)
  | doConnect (retryCount : ℕ)
  /-- In `mqtt_helper_connect`. -/
  | helperConnect (retryCount : ℕ)
  | connectSleep (retryCount wake : ℕ)
  | publishTest
  | publish
  /-- In `mqtt_helper_publish`. -/
  | helperPublish
  | publishSleep (wake : ℕ)
  | brokerTest
  | brokerSleep (wake : ℕ)
  | mainExit
  | exited
  deriving DecidableEq, Repr

structure MqttSystem where
  now : ℕ
  vars : MqttVars
  pc : MqttPc
  deriving DecidableEq, Repr

/-- What the functions outside this code answer to one step of the thread. -/
structure ThreadInput where
  /-- `mqtt_helper_init`, `mqtt_helper_connect` or `mqtt_helper_publish`. -/
  helperErr : ℤ
  /-- `check_dns_ready`. -/
  dnsReady : Bool
  /-- `sys_rand32_get`. -/
  random : ℕ
  /-- `hw_id_get`, and the client ID it writes. -/
  hwIdErr : ℤ
  clientId : List UInt8
  /-- The value an undefined shift happens to have. -/
  undefinedShift : UInt32

variable (cfg : MqttConfig)

def randomInitialDelaySec (random : ℕ) : ℕ := random % (cfg.publishIntervalSec + 1)

namespace MqttSystem

variable (s : MqttSystem)

/-- The head of the outer loop, and the wait for the network. -/
def loopHead (v : MqttVars) : MqttSystem :=
  { s with
    vars := v
    pc := if v.mqttClientRunning then .semTake (s.now + kSeconds cfg.publishIntervalSec)
      else .exited }

/-- `mqtt_record_failed_attempt`, if there has been a connection. -/
def recordIfSeen : MqttVars :=
  if s.vars.hasSeenNetworkConnection then s.vars.mqttRecordFailedAttempt else s.vars

/-- The condition of the inner loops. -/
def runs : Bool := s.vars.mqttClientRunning && s.vars.networkReady

/-- The connect loop after `mqtt_do_connect` returned `err`. -/
def connectReturned (retryCount : ℕ) (i : ThreadInput) (err : ℤ) (v : MqttVars) : MqttSystem :=
  if err = einprogress then { s with vars := v, pc := .connectSleep retryCount (s.now + pollMs) }
  else if err ≠ 0 then
    let delay := (mqttBackoffSec (retryCount + 1)).getD i.undefinedShift
    { s with
      vars := v
      pc := .connectSleep (retryCount + 1) (s.now + kSeconds delay.toNat) }
  else { s with vars := v, pc := .connectSleep 0 (s.now + pollMs) }

/-- One step of `app_mqtt_client_thread`. -/
def threadStep (i : ThreadInput) : MqttSystem :=
  match s.pc with
  | .helperInit => if i.helperErr ≠ 0 then { s with pc := .exited } else s.loopHead cfg s.vars
  | .semTake timeout =>
    if s.vars.mqttThreadSem = 0 ∧ s.now < timeout then s
    else
      { s with
        vars := { s.vars with mqttThreadSem := 0 }
        pc := if s.vars.mqttClientRunning then .networkTest else .exited }
  | .networkTest =>
    if s.vars.networkReady then { s with pc := .resolverSleep (s.now + kSeconds 2) }
    else s.loopHead cfg s.recordIfSeen
  | .resolverSleep wake => if s.now < wake then s else { s with pc := .dnsTest 2 }
  | .dnsTest dnsWaitTime =>
    { s with pc := if s.vars.networkReady then .dnsCheck dnsWaitTime else .dnsDone }
  | .dnsCheck dnsWaitTime =>
    if i.dnsReady = true ∨ dnsTimeout ≤ dnsWaitTime then { s with pc := .dnsDone }
    else { s with pc := .dnsSleep dnsWaitTime (s.now + kSeconds dnsCheckIntervalSec) }
  | .dnsSleep dnsWaitTime wake =>
    if s.now < wake then s else { s with pc := .dnsTest (dnsWaitTime + dnsCheckIntervalSec) }
  | .dnsDone =>
    if s.vars.networkReady = false then s.loopHead cfg s.vars
    else
      let initialDelay := randomInitialDelaySec cfg i.random
      { s with
        pc := if initialDelay > 0 then .initialSleep (s.now + kSeconds initialDelay)
          else .initialDone }
  | .initialSleep wake => if s.now < wake then s else { s with pc := .initialDone }
  | .initialDone =>
    if s.vars.networkReady = false then s.loopHead cfg s.vars else { s with pc := .mainLoop }
  | .mainLoop => { s with pc := if s.runs then .connectTest 0 else .mainExit }
  | .connectTest retryCount =>
    { s with
      pc := if s.runs = true ∧ s.vars.currentState ≠ .connected then .doConnect retryCount
        else .publishTest }
  | .doConnect retryCount =>
    match s.vars.mqttDoConnect cfg i.hwIdErr i.clientId with
    | (some err, v) => s.connectReturned retryCount i err v
    | (none, v) => { s with vars := v, pc := .helperConnect retryCount }
  | .helperConnect retryCount =>
    s.connectReturned retryCount i i.helperErr (s.vars.mqttHelperConnected i.helperErr)
  | .connectSleep retryCount wake =>
    if s.now < wake then s else { s with pc := .connectTest retryCount }
  | .publishTest =>
    { s with
      pc := if s.runs = true ∧ s.vars.currentState = .connected then .publish else .brokerTest }
  | .publish =>
    match s.vars.mqttPublishMessage with
    | (some _, v) =>
      { s with vars := v, pc := .publishSleep (s.now + kSeconds cfg.publishIntervalSec) }
    | (none, v) => { s with vars := v, pc := .helperPublish }
  | .helperPublish =>
    { s with
      vars := s.vars.mqttHelperPublished i.helperErr
      pc := .publishSleep (s.now + kSeconds cfg.publishIntervalSec) }
  | .publishSleep wake => if s.now < wake then s else { s with pc := .publishTest }
  | .brokerTest =>
    { s with
      pc := if s.runs = true ∧ s.vars.currentState = .disconnected then
          .brokerSleep (s.now + kSeconds mqttBackoffBaseSec.toNat)
        else .mainLoop }
  | .brokerSleep wake => if s.now < wake then s else { s with pc := .mainLoop }
  | .mainExit => s.loopHead cfg s.recordIfSeen
  | .exited => s

end MqttSystem

inductive MqttEvent where
  | elapse (ms : ℕ)
  | thread (i : ThreadInput)
  | notifyConnected
  | notifyDisconnected
  | onMqttConnack (returnCode : ℕ)
  | onMqttDisconnect (result : ℤ)
  | onMqttPublish (payload : List UInt8)
  | onMqttSuback (messageId : ℕ) (result : ℤ)

def stepMqtt (s : MqttSystem) : MqttEvent → MqttSystem
  | .elapse ms => { s with now := s.now + ms }
  | .thread i => s.threadStep cfg i
  | .notifyConnected => { s with vars := s.vars.appMqttClientNotifyConnected }
  | .notifyDisconnected => { s with vars := s.vars.appMqttClientNotifyDisconnected }
  | .onMqttConnack returnCode => { s with vars := s.vars.onMqttConnack returnCode }
  | .onMqttDisconnect result => { s with vars := s.vars.onMqttDisconnect result }
  | .onMqttPublish payload => { s with vars := s.vars.onMqttPublish payload }
  | .onMqttSuback messageId result => { s with vars := s.vars.onMqttSuback messageId result }

def MqttSystem.boot : MqttSystem := ⟨0, MqttVars.boot, .helperInit⟩

/-! ### A first attempt -/

/-- A client that publishes every five minutes. -/
def sampleConfig : MqttConfig := ⟨300, 32, [99], by decide⟩

/-- The outside functions succeed at once. -/
def okInput : ThreadInput := ⟨0, true, 0, 0, [49], 0⟩

/-- From boot to the first call of `mqtt_helper_connect`. -/
def firstAttempt : List MqttEvent :=
  [.thread okInput, .notifyConnected, .thread okInput, .thread okInput, .elapse 2000, .thread okInput,
    .thread okInput, .thread okInput, .thread okInput, .thread okInput, .thread okInput,
    .thread okInput, .thread okInput]

end WifiMemfault.MqttThread
