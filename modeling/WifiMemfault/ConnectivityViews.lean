import WifiMemfault.HttpsClient
import WifiMemfault.MqttListener

/-!
# What the subscribers know of the network

The hooks `zego_on_net_event_dhcp_bound` and `zego_on_net_event_wifi_disconnect` of `net_event_mgmt.c`
publish on `WIFI_CHAN` and then on `NETWORK_CHAN`.  The Memfault core, the HTTPS client and the MQTT client
each keep their own variable for whether the network is there, and set it in their listener of `WIFI_CHAN`.

`Device` runs the hooks with the listeners, the two client threads, the callbacks of the MQTT helper and the
rest of the core.  Every publish succeeds, and the observers of a channel run one after the other, in any
order.  The HTTPS thread also writes its variable: a certificate it cannot provision clears it.
-/

namespace WifiMemfault.ConnectivityViews

open MemfaultCore (Core CoreEvent WifiMsgType NetworkMsgType coreStep)
open HttpsClient (HttpsConfig HttpsSystem HttpsInput)
open MqttClient (MqttConfig)
open MqttThread (MqttEvent ThreadInput stepMqtt)
open MqttListener (ListenedMqtt linkFlags isNotification)

/-- The listeners of `WIFI_CHAN` that keep a view of the network. -/
inductive WifiObserver where
  | memfault | https | mqtt
  deriving DecidableEq, Repr

/-- Where a hook is. -/
inductive HookPc where
  | idle
  /-- In the publish on `WIFI_CHAN`, with the observers still to run. -/
  | wifiChan (pending : List WifiObserver)
  /-- In the publish on `NETWORK_CHAN`. -/
  | networkChan
  deriving DecidableEq, Repr

def HookPc.pending : HookPc → List WifiObserver
  | .wifiChan pending => pending
  | _ => []

structure Device where
  core : Core
  https : HttpsSystem
  mqtt : ListenedMqtt
  hook : HookPc
  /-- The last hook was `zego_on_net_event_dhcp_bound`. -/
  bound : Bool
  /-- `cert_provision` has failed since the HTTPS listener last set `network_ready`. -/
  certFailed : Bool
  deriving DecidableEq, Repr

/-- Both clients are initialised, no hook has been called. -/
def Device.boot : Device :=
  ⟨Core.boot 0, HttpsSystem.boot, ListenedMqtt.boot, .idle, false, false⟩

/-- The event is a callback of the MQTT helper. -/
def isCallback : MqttEvent → Bool
  | .onMqttConnack _ => true
  | .onMqttDisconnect _ => true
  | .onMqttPublish _ => true
  | .onMqttSuback _ _ => true
  | _ => false

/-- The event is one of the core's buttons, its work item or its upload thread. -/
def isCoreOwn : CoreEvent → Bool
  | .buttonMsg _ _ => true
  | .logFreezeWork => true
  | .uploadThread _ => true
  | _ => false

inductive DeviceEvent where
  | elapse (ms : ℕ)
  | dhcpBound
  | wifiDisconnect
  /-- An observer of `WIFI_CHAN` is called. -/
  | observer (o : WifiObserver)
  | httpsListener
  | mqttListener
  /-- The hook goes on after a publish. -/
  | hook
  | httpsThread (i : HttpsInput)
  | mqttThread (i : ThreadInput)
  | mqttCallback (e : { e : MqttEvent // isCallback e = true })
  | core (e : { e : CoreEvent // isCoreOwn e = true })

namespace Device

variable (s : Device)

def wifiMsgType : WifiMsgType := if s.bound then .wifiStaConnected else .wifiStaDisconnected

def networkMsgType : NetworkMsgType := if s.bound then .networkReady else .networkNotReady

/-- No client's listener is between two statements. -/
def listenersIdle : Bool := s.https.listener = .idle ∧ s.mqtt.listener = .idle

/-- A hook is called: it publishes on `WIFI_CHAN`. -/
def hookCalled (bound : Bool) : Device :=
  if s.hook = .idle then
    { s with hook := .wifiChan [.memfault, .https, .mqtt], bound := bound }
  else s

/-- The listener of `o` is called with the message of the hook. -/
def deliver : WifiObserver → Device
  | .memfault => { s with core := coreStep s.core (.wifiMsg s.wifiMsgType) }
  | .https => { s with https := s.https.wifiListener s.wifiMsgType }
  | .mqtt => { s with mqtt := s.mqtt.wifiListener s.wifiMsgType }

def observerCalled (o : WifiObserver) : Device :=
  if o ∈ s.hook.pending ∧ s.listenersIdle = true then
    { s.deliver o with hook := .wifiChan (s.hook.pending.filter (· ≠ o)) }
  else s

def hookNext : Device :=
  match s.hook with
  | .idle => s
  | .wifiChan pending =>
    if pending = [] ∧ s.listenersIdle = true then { s with hook := .networkChan } else s
  | .networkChan => { s with core := coreStep s.core (.networkMsg s.networkMsgType), hook := .idle }

/-- `cert_provision` fails in this step of the HTTPS thread. -/
def certFails (i : HttpsInput) : Bool := s.https.pc = .certProvision ∧ i.certErr ≠ 0

end Device

def stepDevice (httpsCfg : HttpsConfig) (mqttCfg : MqttConfig) (s : Device) : DeviceEvent → Device
  | .elapse ms =>
    { s with
      core := { s.core with now := s.core.now + ms }
      https := { s.https with now := s.https.now + ms }
      mqtt := { s.mqtt with client := { s.mqtt.client with now := s.mqtt.client.now + ms } } }
  | .dhcpBound => s.hookCalled true
  | .wifiDisconnect => s.hookCalled false
  | .observer o => s.observerCalled o
  | .httpsListener =>
    { s with
      https := s.https.listenerStep
      certFailed := if s.https.listener = .setReady then false else s.certFailed }
  | .mqttListener => { s with mqtt := s.mqtt.listenerStep }
  | .hook => s.hookNext
  | .httpsThread i =>
    { s with https := s.https.threadStep httpsCfg i, certFailed := s.certFails i || s.certFailed }
  | .mqttThread i => { s with mqtt := { s.mqtt with client := s.mqtt.client.threadStep mqttCfg i } }
  | .mqttCallback e => { s with mqtt := { s.mqtt with client := stepMqtt mqttCfg s.mqtt.client e.1 } }
  | .core e => { s with core := coreStep s.core e.1 }

/-! ### The view of the HTTPS client -/

section Https

open HttpsClient (HttpsVars)

/-- The listener is about to set `network_ready`. -/
def httpsSetsReady : HttpsClient.ListenerPc → Bool
  | .setSeen => true
  | .setReady => true
  | _ => false

/-- What holds of the HTTPS client under the message `bound`, unless its listener is still to be called. -/
structure HttpsInv (v : HttpsVars) (listener : HttpsClient.ListenerPc) (pending : List WifiObserver)
    (bound certFailed : Bool) : Prop where
  running : v.httpsClientRunning = true
  ready : v.networkReady = true → certFailed = false
  sets : .https ∉ pending → httpsSetsReady listener = true → bound = true
  settled : .https ∉ pending → httpsSetsReady listener = false →
    v.networkReady = (bound && !certFailed)

variable {s : HttpsSystem} {pending : List WifiObserver} {bound certFailed : Bool}

/-- The thread clears `network_ready` for a certificate, and else leaves it. -/
theorem httpsThread_view (cfg : HttpsConfig) (s : HttpsSystem) (i : HttpsInput) :
    (s.threadStep cfg i).vars.httpsClientRunning = s.vars.httpsClientRunning ∧
      (s.threadStep cfg i).listener = s.listener ∧
      (s.threadStep cfg i).vars.networkReady =
        if s.pc = .certProvision ∧ i.certErr ≠ 0 then false else s.vars.networkReady := by
  by_cases hfails : s.pc = .certProvision ∧ i.certErr ≠ 0
  · rw [if_pos hfails]
    simp [HttpsSystem.threadStep, hfails.1, hfails.2, HttpsSystem.loopHead]
  · rw [if_neg hfails]
    have hmoves := HttpsClient.threadStep_moves cfg s i
    generalize s.threadStep cfg i = s' at hmoves ⊢
    have hrecord : s.recordIfSeen.httpsClientRunning = s.vars.httpsClientRunning ∧
        s.recordIfSeen.networkReady = s.vars.networkReady := by
      rw [HttpsSystem.recordIfSeen]
      split
      · exact ⟨rfl, rfl⟩
      · exact ⟨rfl, rfl⟩
    cases hmoves with
    | stays hrec => exact ⟨rfl, rfl, rfl⟩
    | starts hs => exact ⟨rfl, rfl, rfl⟩
    | takesSem timeout hs hdue => exact ⟨rfl, rfl, rfl⟩
    | goesOn pc provisioned hs hpc hrec => exact ⟨rfl, rfl, rfl⟩
    | counts pc v hs hpc hv =>
      rcases hv with rfl | rfl
      · exact ⟨rfl, rfl, rfl⟩
      · exact ⟨rfl, rfl, rfl⟩
    | returns hs => exact ⟨rfl, rfl, rfl⟩
    | records hs => exact ⟨hrecord.1, rfl, hrecord.2⟩
    | certFails hs herr => exact absurd ⟨hs, herr⟩ hfails

theorem httpsInv_thread (cfg : HttpsConfig) (i : HttpsInput)
    (h : HttpsInv s.vars s.listener pending bound certFailed) :
    HttpsInv (s.threadStep cfg i).vars (s.threadStep cfg i).listener pending bound
      (decide (s.pc = .certProvision ∧ i.certErr ≠ 0) || certFailed) := by
  obtain ⟨hrunning, hlistener, hready⟩ := httpsThread_view cfg s i
  by_cases hfails : s.pc = .certProvision ∧ i.certErr ≠ 0
  · rw [if_pos hfails] at hready
    rw [decide_eq_true hfails, Bool.true_or, hlistener]
    refine ⟨hrunning.trans h.running, ?_, h.sets, ?_⟩
    · rw [hready]
      exact nofun
    · intro _ _
      rw [hready, Bool.not_true, Bool.and_false]
  · rw [if_neg hfails] at hready
    rw [decide_eq_false hfails, Bool.false_or, hlistener]
    refine ⟨hrunning.trans h.running, ?_, h.sets, ?_⟩
    · rw [hready]
      exact h.ready
    · rw [hready]
      exact h.settled

theorem httpsInv_listener (h : HttpsInv s.vars s.listener pending bound certFailed) :
    HttpsInv s.listenerStep.vars s.listenerStep.listener pending bound
      (if s.listener = .setReady then false else certFailed) := by
  rw [HttpsSystem.listenerStep]
  cases hpc : s.listener with
  | idle =>
    rw [hpc] at h
    simpa [hpc] using h
  | setSeen =>
    rw [hpc] at h
    exact ⟨h.running, h.ready, fun hcalled _ => h.sets hcalled rfl, nofun⟩
  | setReady =>
    rw [hpc] at h
    refine ⟨h.running, fun _ => rfl, nofun, ?_⟩
    intro hcalled _
    rw [h.sets hcalled rfl]
    rfl
  | giveSem =>
    rw [hpc] at h
    exact ⟨h.running, h.ready, nofun, fun hcalled _ => h.settled hcalled rfl⟩

/-- The call of the listener begins to settle the view. -/
theorem httpsInv_called (hidle : s.listener = .idle) (pending' : List WifiObserver)
    (h : HttpsInv s.vars s.listener pending bound certFailed) :
    HttpsInv (s.wifiListener (if bound then .wifiStaConnected else .wifiStaDisconnected)).vars
      (s.wifiListener (if bound then .wifiStaConnected else .wifiStaDisconnected)).listener
      pending' bound certFailed := by
  cases bound with
  | true =>
    show HttpsInv (s.wifiListener .wifiStaConnected).vars (s.wifiListener .wifiStaConnected).listener
      pending' true certFailed
    rw [HttpsSystem.wifiListener]
    split
    · exact ⟨h.running, h.ready, fun _ _ => rfl, fun _ => nofun⟩
    · rename_i htest
      -- a duplicate: the running client was ready before
      have hready : s.vars.networkReady = true := by
        by_contra hdown
        apply htest
        rw [HttpsVars.notifyConnectedTest, decide_eq_true_iff]
        exact ⟨h.running, Bool.not_eq_true _ ▸ hdown⟩
      rw [hidle]
      refine ⟨h.running, h.ready, fun _ _ => rfl, ?_⟩
      intro _ _
      rw [hready, h.ready hready]
      rfl
  | false =>
    show HttpsInv (s.wifiListener .wifiStaDisconnected).vars
      (s.wifiListener .wifiStaDisconnected).listener pending' false certFailed
    rw [HttpsSystem.wifiListener]
    refine ⟨h.running, nofun, ?_, fun _ _ => rfl⟩
    rw [hidle]
    exact nofun

end Https

/-! ### The view of the MQTT client -/

section Mqtt

open MqttClient (MqttVars)

def mqttSetsReady : MqttListener.ListenerPc → Bool
  | .setSeen => true
  | .setReady => true
  | _ => false

/-- What holds of the MQTT client under the message `bound`, unless its listener is still to be called. -/
structure MqttInv (v : MqttVars) (listener : MqttListener.ListenerPc) (pending : List WifiObserver)
    (bound : Bool) : Prop where
  running : v.mqttClientRunning = true
  sets : .mqtt ∉ pending → mqttSetsReady listener = true → bound = true
  settled : .mqtt ∉ pending → mqttSetsReady listener = false → v.networkReady = bound

variable {s : ListenedMqtt} {pending : List WifiObserver} {bound : Bool}

/-- What leaves the flags of the link alone leaves the view. -/
theorem mqttInv_same {v v' : MqttVars} {listener : MqttListener.ListenerPc}
    (hrunning : v'.mqttClientRunning = v.mqttClientRunning)
    (hready : v'.networkReady = v.networkReady) (h : MqttInv v listener pending bound) :
    MqttInv v' listener pending bound := by
  refine ⟨hrunning.trans h.running, h.sets, ?_⟩
  rw [hready]
  exact h.settled

theorem mqttInv_thread (cfg : MqttConfig) (i : ThreadInput) {c : MqttThread.MqttSystem}
    {listener : MqttListener.ListenerPc} (h : MqttInv c.vars listener pending bound) :
    MqttInv (c.threadStep cfg i).vars listener pending bound := by
  rcases MqttListener.threadStep_linkFlags cfg c i with hflags | ⟨-, hflags⟩
  · exact mqttInv_same (congrArg (·.mqttClientRunning) hflags) (congrArg (·.networkReady) hflags) h
  · exact mqttInv_same (congrArg (·.mqttClientRunning) hflags) (congrArg (·.networkReady) hflags) h

theorem mqttInv_callback (cfg : MqttConfig) (e : MqttEvent) (hcallback : isCallback e = true)
    {c : MqttThread.MqttSystem} {listener : MqttListener.ListenerPc}
    (h : MqttInv c.vars listener pending bound) :
    MqttInv (stepMqtt cfg c e).vars listener pending bound := by
  have hflags : linkFlags (stepMqtt cfg c e).vars = linkFlags c.vars := by
    refine (MqttListener.stepMqtt_linkFlags cfg c e ?_ ?_).1
    · cases e with
      | notifyConnected => cases hcallback
      | notifyDisconnected => cases hcallback
      | _ => rfl
    · rintro i rfl
      cases hcallback
  exact mqttInv_same (congrArg (·.mqttClientRunning) hflags) (congrArg (·.networkReady) hflags) h

theorem mqttInv_listener (h : MqttInv s.client.vars s.listener pending bound) :
    MqttInv s.listenerStep.client.vars s.listenerStep.listener pending bound := by
  rw [ListenedMqtt.listenerStep]
  cases hpc : s.listener with
  | idle =>
    rw [hpc] at h
    simpa [hpc] using h
  | setSeen =>
    rw [hpc] at h
    exact ⟨h.running, fun hcalled _ => h.sets hcalled rfl, by rintro - ⟨⟩⟩
  | setReady =>
    rw [hpc] at h
    exact ⟨h.running, by rintro - ⟨⟩, fun hcalled _ => (h.sets hcalled rfl).symm⟩
  | giveSem =>
    rw [hpc] at h
    exact ⟨h.running, by rintro - ⟨⟩, fun hcalled _ => h.settled hcalled rfl⟩
  | stateTest =>
    rw [hpc] at h
    refine ⟨h.running, ?_, fun hcalled _ => h.settled hcalled rfl⟩
    simp only
    split
    · rintro - ⟨⟩
    · rintro - ⟨⟩
  | helperDisconnect =>
    rw [hpc] at h
    exact ⟨h.running, by rintro - ⟨⟩, fun hcalled _ => h.settled hcalled rfl⟩
  | setDisconnected =>
    rw [hpc] at h
    exact ⟨h.running, by rintro - ⟨⟩, fun hcalled _ => h.settled hcalled rfl⟩

theorem mqttInv_called (hidle : s.listener = .idle) (pending' : List WifiObserver)
    (h : MqttInv s.client.vars s.listener pending bound) :
    MqttInv (s.wifiListener (if bound then .wifiStaConnected else .wifiStaDisconnected)).client.vars
      (s.wifiListener (if bound then .wifiStaConnected else .wifiStaDisconnected)).listener
      pending' bound := by
  cases bound with
  | true =>
    show MqttInv (s.wifiListener .wifiStaConnected).client.vars
      (s.wifiListener .wifiStaConnected).listener pending' true
    rw [ListenedMqtt.wifiListener]
    split
    · exact ⟨h.running, fun _ _ => rfl, by rintro - ⟨⟩⟩
    · rename_i htest
      rw [hidle]
      refine ⟨h.running, fun _ _ => rfl, ?_⟩
      intro _ _
      by_contra hdown
      exact htest ⟨h.running, Bool.not_eq_true _ ▸ hdown⟩
  | false => exact ⟨h.running, by rintro - ⟨⟩, fun _ _ => rfl⟩

end Mqtt

/-! ### Every run -/

structure ViewsInv (s : Device) : Prop where
  /-- Between two hooks no listener runs. -/
  quiet : (∀ pending, s.hook ≠ .wifiChan pending) → s.listenersIdle = true
  core : .memfault ∉ s.hook.pending → s.core.wifiConnected = s.bound
  https : HttpsInv s.https.vars s.https.listener s.hook.pending s.bound s.certFailed
  mqtt : MqttInv s.mqtt.client.vars s.mqtt.listener s.hook.pending s.bound

theorem listenersIdle_iff (s : Device) :
    s.listenersIdle = true ↔ s.https.listener = .idle ∧ s.mqtt.listener = .idle := by
  rw [Device.listenersIdle, decide_eq_true_iff]

theorem viewsInv_boot : ViewsInv Device.boot :=
  ⟨fun _ => rfl, fun _ => rfl, ⟨rfl, nofun, nofun, fun _ _ => rfl⟩, ⟨rfl, nofun, fun _ _ => rfl⟩⟩

/-- What runs on the core between the messages leaves `wifi_connected`. -/
theorem coreOwn_wifiConnected (c : Core) (e : CoreEvent) (h : isCoreOwn e = true) :
    (coreStep c e).wifiConnected = c.wifiConnected := by
  cases e with
  | elapse ms => cases h
  | wifiMsg type => cases h
  | networkMsg type => cases h
  | buttonMsg buttonNumber type =>
    obtain ⟨sem, hwrites⟩ := MemfaultCore.buttonListener_writes c buttonNumber type
    rw [coreStep, hwrites]
  | logFreezeWork =>
    obtain ⟨scheduled, work, hwrites⟩ := MemfaultCore.logFreezeWorkFn_writes c
    rw [coreStep, hwrites]
  | uploadThread res =>
    obtain ⟨sem, pc, hwrites⟩ := MemfaultCore.uploadThreadStep_writes c res
    rw [coreStep, hwrites]

theorem scheduleLogFreeze_wifiConnected (c : Core) :
    c.scheduleLogFreeze.wifiConnected = c.wifiConnected := by
  obtain ⟨scheduled, work, hwrites⟩ := MemfaultCore.scheduleLogFreeze_writes c
  rw [hwrites]

theorem memfaultWifiListener_wifiConnected (c : Core) (bound : Bool) :
    (coreStep c (.wifiMsg (if bound then .wifiStaConnected else .wifiStaDisconnected))).wifiConnected =
      bound := by
  cases bound with
  | true => rfl
  | false => exact scheduleLogFreeze_wifiConnected _

theorem memfaultNetworkListener_wifiConnected (c : Core) (type : NetworkMsgType) :
    (coreStep c (.networkMsg type)).wifiConnected = c.wifiConnected := by
  cases type with
  | networkReady => rfl
  | networkNotReady => exact scheduleLogFreeze_wifiConnected c

theorem viewsInv_hookCalled (s : Device) (bound : Bool) (h : ViewsInv s) :
    ViewsInv (s.hookCalled bound) := by
  rw [Device.hookCalled]
  split
  · have hall : ∀ o : WifiObserver, o ∈ [WifiObserver.memfault, .https, .mqtt] := by
      intro o
      cases o with
      | _ => decide
    exact ⟨fun hquiet => absurd rfl (hquiet _), fun hcalled => absurd (hall _) hcalled,
      ⟨h.https.running, h.https.ready, fun hcalled => absurd (hall _) hcalled,
        fun hcalled => absurd (hall _) hcalled⟩,
      ⟨h.mqtt.running, fun hcalled => absurd (hall _) hcalled,
        fun hcalled => absurd (hall _) hcalled⟩⟩
  · exact h

/-- An observer that is still to be called after `o` has not been called before. -/
theorem pending_of_filter {pending : List WifiObserver} {o o' : WifiObserver} (hne : o' ≠ o)
    (h : o' ∉ pending.filter (· ≠ o)) : o' ∉ pending :=
  fun hmem => h (List.mem_filter.mpr ⟨hmem, decide_eq_true hne⟩)

theorem viewsInv_observerCalled (s : Device) (o : WifiObserver) (h : ViewsInv s) :
    ViewsInv (s.observerCalled o) := by
  rw [Device.observerCalled]
  split
  · rename_i hcall
    obtain ⟨hhttps, hmqtt⟩ := (listenersIdle_iff s).mp hcall.2
    -- the other two views stay as they are
    have hcore : WifiObserver.memfault ≠ o →
        .memfault ∉ s.hook.pending.filter (· ≠ o) → s.core.wifiConnected = s.bound :=
      fun hne hcalled => h.core (pending_of_filter hne hcalled)
    have hhttpsInv : WifiObserver.https ≠ o → HttpsInv s.https.vars s.https.listener
        (s.hook.pending.filter (· ≠ o)) s.bound s.certFailed :=
      fun hne => ⟨h.https.running, h.https.ready,
        fun hcalled => h.https.sets (pending_of_filter hne hcalled),
        fun hcalled => h.https.settled (pending_of_filter hne hcalled)⟩
    have hmqttInv : WifiObserver.mqtt ≠ o → MqttInv s.mqtt.client.vars s.mqtt.listener
        (s.hook.pending.filter (· ≠ o)) s.bound :=
      fun hne => ⟨h.mqtt.running, fun hcalled => h.mqtt.sets (pending_of_filter hne hcalled),
        fun hcalled => h.mqtt.settled (pending_of_filter hne hcalled)⟩
    cases o with
    | memfault =>
      exact ⟨fun hquiet => absurd rfl (hquiet _),
        fun _ => memfaultWifiListener_wifiConnected s.core s.bound, hhttpsInv nofun, hmqttInv nofun⟩
    | https =>
      exact ⟨fun hquiet => absurd rfl (hquiet _), hcore nofun,
        httpsInv_called hhttps _ h.https, hmqttInv nofun⟩
    | mqtt =>
      exact ⟨fun hquiet => absurd rfl (hquiet _), hcore nofun, hhttpsInv nofun,
        mqttInv_called hmqtt _ h.mqtt⟩
  · exact h

theorem viewsInv_hookNext (s : Device) (h : ViewsInv s) : ViewsInv s.hookNext := by
  obtain ⟨hquiet, hcore, hhttps, hmqtt⟩ := h
  rw [Device.hookNext]
  cases hhook : s.hook with
  | idle => exact ⟨hquiet, hcore, hhttps, hmqtt⟩
  | wifiChan pending =>
    simp only
    split
    · rename_i hdone
      rw [hhook, HookPc.pending, hdone.1] at hcore hhttps hmqtt
      exact ⟨fun _ => hdone.2, hcore, hhttps, hmqtt⟩
    · exact ⟨hquiet, hcore, hhttps, hmqtt⟩
  | networkChan =>
    rw [hhook] at hquiet hcore hhttps hmqtt
    exact ⟨fun _ => hquiet nofun,
      fun hcalled => (memfaultNetworkListener_wifiConnected s.core _).trans (hcore hcalled), hhttps,
      hmqtt⟩

theorem viewsInv_step (httpsCfg : HttpsConfig) (mqttCfg : MqttConfig) (s : Device) (e : DeviceEvent)
    (h : ViewsInv s) : ViewsInv (stepDevice httpsCfg mqttCfg s e) := by
  cases e with
  | elapse ms => exact ⟨h.quiet, h.core, h.https, h.mqtt⟩
  | dhcpBound => exact viewsInv_hookCalled s true h
  | wifiDisconnect => exact viewsInv_hookCalled s false h
  | observer o => exact viewsInv_observerCalled s o h
  | hook => exact viewsInv_hookNext s h
  | httpsListener =>
    refine ⟨?_, h.core, httpsInv_listener h.https, h.mqtt⟩
    intro hquiet
    obtain ⟨hhttps, hmqtt⟩ := (listenersIdle_iff s).mp (h.quiet hquiet)
    simp [stepDevice, listenersIdle_iff, HttpsSystem.listenerStep, hhttps, hmqtt]
  | mqttListener =>
    refine ⟨?_, h.core, h.https, mqttInv_listener h.mqtt⟩
    intro hquiet
    obtain ⟨hhttps, hmqtt⟩ := (listenersIdle_iff s).mp (h.quiet hquiet)
    simp [stepDevice, listenersIdle_iff, ListenedMqtt.listenerStep, hhttps, hmqtt]
  | httpsThread i =>
    refine ⟨?_, h.core, httpsInv_thread httpsCfg i h.https, h.mqtt⟩
    intro hquiet
    obtain ⟨hhttps, hmqtt⟩ := (listenersIdle_iff s).mp (h.quiet hquiet)
    rw [listenersIdle_iff]
    exact ⟨(httpsThread_view httpsCfg s.https i).2.1.trans hhttps, hmqtt⟩
  | mqttThread i => exact ⟨h.quiet, h.core, h.https, mqttInv_thread mqttCfg i h.mqtt⟩
  | mqttCallback e => exact ⟨h.quiet, h.core, h.https, mqttInv_callback mqttCfg e.1 e.2 h.mqtt⟩
  | core e =>
    exact ⟨h.quiet, fun hcalled => (coreOwn_wifiConnected s.core e.1 e.2).trans (h.core hcalled),
      h.https, h.mqtt⟩

/-- **The views agree with the last hook.**  Whenever no hook is under way the core and the MQTT client have
the network exactly after a `dhcp_bound`; the HTTPS client has it then unless `cert_provision` has failed
since its listener last set `network_ready`. -/
theorem views_agree (httpsCfg : HttpsConfig) (mqttCfg : MqttConfig) (es : List DeviceEvent)
    (hidle : (Runs.run (stepDevice httpsCfg mqttCfg) Device.boot es).hook = .idle) :
    let s := Runs.run (stepDevice httpsCfg mqttCfg) Device.boot es
    s.core.wifiConnected = s.bound ∧ s.mqtt.client.vars.networkReady = s.bound ∧
      s.https.vars.networkReady = (s.bound && !s.certFailed) := by
  have hinv := Runs.run_invariant_always (viewsInv_step httpsCfg mqttCfg) es Device.boot viewsInv_boot
  intro s
  have hpending : s.hook.pending = [] := by
    rw [hidle]
    rfl
  obtain ⟨hhttps, hmqtt⟩ := (listenersIdle_iff s).mp (hinv.quiet (by rw [hidle]; exact nofun))
  have hnone : ∀ o : WifiObserver, o ∉ s.hook.pending := by
    rw [hpending]
    exact nofun
  exact ⟨hinv.core (hnone _), hinv.mqtt.settled (hnone _) (by rw [hmqtt]; rfl),
    hinv.https.settled (hnone _) (by rw [hhttps]; rfl)⟩

/-- The whole of a hook that finds the three views down, and of one that finds them up. -/
def bindHook : List DeviceEvent :=
  [.dhcpBound, .observer .https, .httpsListener, .httpsListener, .httpsListener, .observer .mqtt,
    .mqttListener, .mqttListener, .mqttListener, .observer .memfault, .hook, .hook]

def disconnectHook : List DeviceEvent :=
  [.wifiDisconnect, .observer .https, .observer .mqtt, .mqttListener, .observer .memfault, .hook, .hook]

theorem views_agree_bound_twice :
    let s := Runs.run (stepDevice ⟨60⟩ MqttThread.sampleConfig) Device.boot
      (bindHook ++ disconnectHook ++ bindHook)
    s.hook = .idle ∧ s.bound = true ∧ s.core.wifiConnected = s.bound ∧
      s.mqtt.client.vars.networkReady = s.bound ∧
      s.https.vars.networkReady = (s.bound && !s.certFailed) :=
  ⟨by decide +kernel, by decide +kernel,
    views_agree ⟨60⟩ MqttThread.sampleConfig (bindHook ++ disconnectHook ++ bindHook) (by decide +kernel)⟩

/-- **A certificate that is not provisioned.**  The hook was `dhcp_bound`, and the core and the MQTT client
have the network, the HTTPS client has not. -/
theorem failed_certificate_splits_views :
    let s := Runs.run (stepDevice ⟨60⟩ MqttThread.sampleConfig) Device.boot
      ([.httpsThread ⟨0, true, 0, false⟩] ++ bindHook ++
        [.httpsThread ⟨0, true, 0, false⟩, .httpsThread ⟨0, true, 0, false⟩,
          .httpsThread ⟨-1, true, 0, false⟩])
    s.hook = .idle ∧ s.bound = true ∧ s.core.wifiConnected = true ∧
      s.mqtt.client.vars.networkReady = true ∧ s.https.vars.networkReady = false := by
  decide +kernel

end WifiMemfault.ConnectivityViews
