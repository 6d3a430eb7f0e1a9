import WifiMemfault.ConnectivityViews
import WifiMemfault.HttpsPace
import WifiMemfault.MqttPace
import WifiMemfault.Lib.Simulation

/-!
# The device at work

A run of the whole device, with the hooks of `net_event_mgmt.c` and the listeners of `WIFI_CHAN`, is for the
core and for each client a run of its own model.  So what holds of a client's runs holds on the device: once
a `dhcp_bound` hook has run to its end, and until a `wifi_disconnect`, the HTTPS client gets to its next
request, and the MQTT client to its next message while the broker is connected.
-/

namespace WifiMemfault.DeviceRuns

open ConnectivityViews Runs
open MemfaultCore (CoreEvent coreStep WifiMsgType)
open HttpsClient (HttpsConfig HttpsEvent HttpsSystem stepHttps)
open MqttClient (MqttConfig)
open MqttThread (MqttEvent)
open MqttListener (ListenedMqtt ListenedEvent stepListened isNotification)

/-! ### What each part sees -/

/-- The observer is called, as the next one of the hook's publish. -/
def calls (s : Device) (o : WifiObserver) : Bool := o ∈ s.hook.pending ∧ s.listenersIdle = true

def httpsSees (s : Device) : DeviceEvent → Option HttpsEvent
  | .elapse ms => some (.elapse ms)
  | .observer .https => if calls s .https then some (.wifiMsg s.wifiMsgType) else none
  | .httpsListener => some .listener
  | .httpsThread i => some (.thread i)
  | _ => none

theorem elapse_no_notification (ms : ℕ) : isNotification (.elapse ms) = false := rfl

theorem thread_no_notification (i : MqttThread.ThreadInput) : isNotification (.thread i) = false := rfl

theorem callback_no_notification {e : MqttEvent} (h : isCallback e = true) : isNotification e = false := by
  cases e with
  | notifyConnected => cases h
  | notifyDisconnected => cases h
  | _ => rfl

def mqttSees (s : Device) : DeviceEvent → Option ListenedEvent
  | .elapse ms => some (.client ⟨.elapse ms, elapse_no_notification ms⟩)
  | .observer .mqtt => if calls s .mqtt then some (.wifiMsg s.wifiMsgType) else none
  | .mqttListener => some .listener
  | .mqttThread i => some (.client ⟨.thread i, thread_no_notification i⟩)
  | .mqttCallback e => some (.client ⟨e.1, callback_no_notification e.2⟩)
  | _ => none

def coreSees (s : Device) : DeviceEvent → Option CoreEvent
  | .elapse ms => some (.elapse ms)
  | .observer .memfault => if calls s .memfault then some (.wifiMsg s.wifiMsgType) else none
  | .hook => if s.hook = .networkChan then some (.networkMsg s.networkMsgType) else none
  | .core e => some e.1
  | _ => none

variable {httpsCfg : HttpsConfig} {mqttCfg : MqttConfig} {s : Device}

theorem observerCalled_calls (s : Device) (o : WifiObserver) :
    s.observerCalled o
      = if calls s o then { s.deliver o with hook := .wifiChan (s.hook.pending.filter (· ≠ o)) } else s := by
  simp only [Device.observerCalled, calls, decide_eq_true_eq]

theorem hookNext_clients (s : Device) : s.hookNext.https = s.https ∧ s.hookNext.mqtt = s.mqtt := by
  simp only [Device.hookNext]
  split
  · exact ⟨rfl, rfl⟩
  · split
    · exact ⟨rfl, rfl⟩
    · exact ⟨rfl, rfl⟩
  · exact ⟨rfl, rfl⟩

theorem hookNext_core (s : Device) :
    s.hookNext.core
      = if s.hook = .networkChan then coreStep s.core (.networkMsg s.networkMsgType) else s.core := by
  simp only [Device.hookNext]
  cases s.hook with
  | idle => rfl
  | wifiChan pending =>
    simp only [reduceCtorEq, if_false]
    split
    · rfl
    · rfl
  | networkChan => rfl

theorem hookCalled_parts (s : Device) (bound : Bool) :
    (s.hookCalled bound).https = s.https ∧ (s.hookCalled bound).mqtt = s.mqtt ∧
      (s.hookCalled bound).core = s.core := by
  rw [Device.hookCalled]
  split
  · exact ⟨rfl, rfl, rfl⟩
  · exact ⟨rfl, rfl, rfl⟩

/-- The calls of the other observers leave the HTTPS client alone. -/
theorem observerCalled_https (httpsCfg : HttpsConfig) (s : Device) (o : WifiObserver) :
    (s.observerCalled o).https
      = if o = .https ∧ calls s o = true then stepHttps httpsCfg s.https (.wifiMsg s.wifiMsgType)
        else s.https := by
  rw [observerCalled_calls]
  cases hcalls : calls s o with
  | false => simp
  | true =>
    obtain ⟨-, hidle⟩ := of_decide_eq_true hcalls
    obtain ⟨hhttps, -⟩ := (listenersIdle_iff s).mp hidle
    cases o with
    | https => simp [stepHttps, hhttps, Device.deliver]
    | memfault => simp [Device.deliver]
    | mqtt => simp [Device.deliver]

theorem observerCalled_mqtt (mqttCfg : MqttConfig) (s : Device) (o : WifiObserver) :
    (s.observerCalled o).mqtt
      = if o = .mqtt ∧ calls s o = true then stepListened mqttCfg s.mqtt (.wifiMsg s.wifiMsgType)
        else s.mqtt := by
  rw [observerCalled_calls]
  cases hcalls : calls s o with
  | false => simp
  | true =>
    obtain ⟨-, hidle⟩ := of_decide_eq_true hcalls
    obtain ⟨-, hmqtt⟩ := (listenersIdle_iff s).mp hidle
    cases o with
    | mqtt => simp [stepListened, hmqtt, Device.deliver]
    | memfault => simp [Device.deliver]
    | https => simp [Device.deliver]

theorem observerCalled_core (s : Device) (o : WifiObserver) :
    (s.observerCalled o).core
      = if o = .memfault ∧ calls s o = true then coreStep s.core (.wifiMsg s.wifiMsgType) else s.core := by
  rw [observerCalled_calls]
  cases hcalls : calls s o with
  | false => simp
  | true =>
    cases o with
    | memfault => simp [Device.deliver]
    | mqtt => simp [Device.deliver]
    | https => simp [Device.deliver]

/-! ### A run of the device is a run of each part -/

theorem https_part (httpsCfg : HttpsConfig) (mqttCfg : MqttConfig) :
    PartOf (stepDevice httpsCfg mqttCfg) (stepHttps httpsCfg) Device.https httpsSees := by
  refine ⟨fun s e d hsees => ?_, fun s e hsees => ?_⟩
  · cases e with
    | elapse ms => cases hsees; rfl
    | httpsListener => cases hsees; rfl
    | httpsThread i => cases hsees; rfl
    | observer o =>
      refine (observerCalled_https httpsCfg s o).trans ?_
      cases o with
      | https =>
        obtain ⟨hcalls, hd⟩ := Option.ite_none_right_eq_some.mp hsees
        cases hd
        rw [if_pos ⟨rfl, hcalls⟩]
      | _ => cases hsees
    | _ => cases hsees
  · cases e with
    | dhcpBound => exact (hookCalled_parts s true).1
    | wifiDisconnect => exact (hookCalled_parts s false).1
    | hook => exact (hookNext_clients s).1
    | observer o =>
      refine (observerCalled_https httpsCfg s o).trans ?_
      cases o with
      | https =>
        rw [if_neg fun hcalled => ?_]
        simp [httpsSees, hcalled.2] at hsees
      | _ => simp
    | mqttListener => rfl
    | mqttThread i => rfl
    | mqttCallback e => rfl
    | core e => rfl
    | _ => cases hsees

theorem mqtt_part (httpsCfg : HttpsConfig) (mqttCfg : MqttConfig) :
    PartOf (stepDevice httpsCfg mqttCfg) (stepListened mqttCfg) Device.mqtt mqttSees := by
  refine ⟨fun s e d hsees => ?_, fun s e hsees => ?_⟩
  · cases e with
    | elapse ms => cases hsees; rfl
    | mqttListener => cases hsees; rfl
    | mqttThread i => cases hsees; rfl
    | mqttCallback e => cases hsees; rfl
    | observer o =>
      refine (observerCalled_mqtt mqttCfg s o).trans ?_
      cases o with
      | mqtt =>
        obtain ⟨hcalls, hd⟩ := Option.ite_none_right_eq_some.mp hsees
        cases hd
        rw [if_pos ⟨rfl, hcalls⟩]
      | _ => cases hsees
    | _ => cases hsees
  · cases e with
    | dhcpBound => exact (hookCalled_parts s true).2.1
    | wifiDisconnect => exact (hookCalled_parts s false).2.1
    | hook => exact (hookNext_clients s).2
    | observer o =>
      refine (observerCalled_mqtt mqttCfg s o).trans ?_
      cases o with
      | mqtt =>
        rw [if_neg fun hcalled => ?_]
        simp [mqttSees, hcalled.2] at hsees
      | _ => simp
    | httpsListener => rfl
    | httpsThread i => rfl
    | core e => rfl
    | _ => cases hsees

theorem core_part (httpsCfg : HttpsConfig) (mqttCfg : MqttConfig) :
    PartOf (stepDevice httpsCfg mqttCfg) coreStep Device.core coreSees := by
  refine ⟨fun s e d hsees => ?_, fun s e hsees => ?_⟩
  · cases e with
    | elapse ms => cases hsees; rfl
    | core e => cases hsees; rfl
    | hook =>
      obtain ⟨hhook, hd⟩ := Option.ite_none_right_eq_some.mp hsees
      cases hd
      exact (hookNext_core s).trans (if_pos hhook)
    | observer o =>
      refine (observerCalled_core s o).trans ?_
      cases o with
      | memfault =>
        obtain ⟨hcalls, hd⟩ := Option.ite_none_right_eq_some.mp hsees
        cases hd
        rw [if_pos ⟨rfl, hcalls⟩]
      | _ => cases hsees
    | _ => cases hsees
  · cases e with
    | dhcpBound => exact (hookCalled_parts s true).2.2
    | wifiDisconnect => exact (hookCalled_parts s false).2.2
    | hook =>
      refine (hookNext_core s).trans (if_neg fun hhook => ?_)
      simp [coreSees, hhook] at hsees
    | observer o =>
      refine (observerCalled_core s o).trans ?_
      cases o with
      | memfault =>
        rw [if_neg fun hcalled => ?_]
        simp [coreSees, hcalled.2] at hsees
      | _ => simp
    | httpsListener => rfl
    | httpsThread i => rfl
    | mqttListener => rfl
    | mqttThread i => rfl
    | mqttCallback e => rfl
    | _ => cases hsees

/-- The event takes the network from the HTTPS client. -/
def httpsLoses (s : HttpsSystem) : HttpsEvent → Bool
  | .thread i => s.pc = .certProvision ∧ i.certErr ≠ 0
  | .wifiMsg .wifiStaDisconnected => true
  | _ => false

theorem httpsReady_step (s : HttpsSystem) (e : HttpsEvent) (hkeeps : httpsLoses s e = false)
    (h : s.vars.networkReady = true) : (stepHttps httpsCfg s e).vars.networkReady = true := by
  cases e with
  | elapse ms => exact h
  | thread i =>
    exact (httpsThread_view httpsCfg s i).2.2.trans ((if_neg (of_decide_eq_false hkeeps)).trans h)
  | wifiMsg type =>
    simp only [stepHttps]
    split
    · cases type with
      | wifiStaConnected =>
        simp only [HttpsSystem.wifiListener]
        split
        · exact h
        · exact h
      | wifiStaDisconnected => cases hkeeps
      | other => exact h
    · exact h
  | listener =>
    simp only [stepHttps, HttpsSystem.listenerStep]
    cases s.listener with
    | setReady => rfl
    | _ => exact h

theorem mqttReady_step (s : ListenedMqtt) (e : ListenedEvent) (hkeeps : e ≠ .wifiMsg .wifiStaDisconnected)
    (h : s.client.vars.networkReady = true) :
    (stepListened mqttCfg s e).client.vars.networkReady = true := by
  cases e with
  | client e =>
    obtain ⟨e, hnotify⟩ := e
    by_cases hthread : ∃ i, e = .thread i
    · obtain ⟨i, rfl⟩ := hthread
      rcases MqttListener.threadStep_linkFlags mqttCfg s.client i with hflags | ⟨-, hflags⟩
      · exact (congrArg MqttListener.LinkFlags.networkReady hflags).trans h
      · exact (congrArg MqttListener.LinkFlags.networkReady hflags).trans h
    · have hflags := (MqttListener.stepMqtt_linkFlags mqttCfg s.client e hnotify
        fun i hi => hthread ⟨i, hi⟩).1
      exact (congrArg MqttListener.LinkFlags.networkReady hflags).trans h
  | wifiMsg type =>
    simp only [stepListened]
    split
    · cases type with
      | wifiStaConnected =>
        simp only [ListenedMqtt.wifiListener]
        split
        · exact h
        · exact h
      | wifiStaDisconnected => exact absurd rfl hkeeps
      | other => exact h
    · exact h
  | listener =>
    simp only [stepListened, ListenedMqtt.listenerStep]
    cases s.listener with
    | setReady => rfl
    | _ => exact h

/-- The last hook was `dhcp_bound`, and the HTTPS client knows. -/
structure HttpsOnline (s : Device) : Prop where
  bound : s.bound = true
  ready : s.https.vars.networkReady = true

/-- The last hook was `dhcp_bound`, and the MQTT client knows. -/
structure MqttOnline (s : Device) : Prop where
  bound : s.bound = true
  ready : s.mqtt.client.vars.networkReady = true

def isDisconnect : DeviceEvent → Bool
  | .wifiDisconnect => true
  | _ => false

/-- The event is a certificate that is not provisioned. -/
def certFailsAt (s : Device) : DeviceEvent → Bool
  | .httpsThread i => s.certFails i
  | _ => false

theorem bound_step (e : DeviceEvent) (hstays : isDisconnect e = false) (h : s.bound = true) :
    (stepDevice httpsCfg mqttCfg s e).bound = true := by
  cases e with
  | wifiDisconnect => cases hstays
  | dhcpBound =>
    simp only [stepDevice, Device.hookCalled]
    split
    · rfl
    · exact h
  | observer o =>
    refine Eq.trans ?_ h
    simp only [stepDevice, observerCalled_calls]
    split
    · cases o with
      | _ => rfl
    · rfl
  | hook =>
    refine Eq.trans ?_ h
    simp only [stepDevice, Device.hookNext]
    split
    · rfl
    · split
      · rfl
      · rfl
    · rfl
  | _ => exact h

/-- Until a `wifi_disconnect` the hooks say that the network is there. -/
theorem wifiMsgType_bound (h : s.bound = true) : s.wifiMsgType = .wifiStaConnected := if_pos h

theorem httpsOnline_step (httpsCfg : HttpsConfig) (mqttCfg : MqttConfig) (s : Device) (e : DeviceEvent)
    (h : HttpsOnline s) (hstays : isDisconnect e = false ∧ certFailsAt s e = false) :
    HttpsOnline (stepDevice httpsCfg mqttCfg s e) := by
  refine ⟨bound_step e hstays.1 h.bound, ?_⟩
  cases hsees : httpsSees s e with
  | none => rw [(https_part httpsCfg mqttCfg).stays s e hsees, h.ready]
  | some d =>
    rw [(https_part httpsCfg mqttCfg).moves s e d hsees]
    refine httpsReady_step s.https d ?_ h.ready
    cases e with
    | httpsThread i =>
      cases hsees
      exact hstays.2
    | observer o =>
      cases o with
      | https =>
        obtain ⟨-, hd⟩ := Option.ite_none_right_eq_some.mp hsees
        cases hd
        rw [wifiMsgType_bound h.bound]
        rfl
      | _ => cases hsees
    | elapse ms => cases hsees; rfl
    | httpsListener => cases hsees; rfl
    | _ => cases hsees

theorem mqttOnline_step (httpsCfg : HttpsConfig) (mqttCfg : MqttConfig) (s : Device) (e : DeviceEvent)
    (h : MqttOnline s) (hstays : isDisconnect e = false) :
    MqttOnline (stepDevice httpsCfg mqttCfg s e) := by
  refine ⟨bound_step e hstays h.bound, ?_⟩
  cases hsees : mqttSees s e with
  | none => rw [(mqtt_part httpsCfg mqttCfg).stays s e hsees, h.ready]
  | some d =>
    rw [(mqtt_part httpsCfg mqttCfg).moves s e d hsees]
    refine mqttReady_step s.mqtt d ?_ h.ready
    cases e with
    | observer o =>
      cases o with
      | mqtt =>
        obtain ⟨-, hd⟩ := Option.ite_none_right_eq_some.mp hsees
        cases hd
        rw [wifiMsgType_bound h.bound]
        simp
      | _ => cases hsees
    | elapse ms => cases hsees; simp
    | mqttListener => cases hsees; simp
    | mqttThread i => cases hsees; simp
    | mqttCallback e => cases hsees; simp
    | _ => cases hsees

section Reached

variable (httpsCfg : HttpsConfig) (mqttCfg : MqttConfig) (es : List DeviceEvent)

theorem viewsInv_run : ViewsInv (run (stepDevice httpsCfg mqttCfg) Device.boot es) :=
  run_invariant_always (viewsInv_step httpsCfg mqttCfg) es Device.boot viewsInv_boot

/-- Between two hooks every listener has been called and is through. -/
theorem settled_of_idle {s : Device} (h : ViewsInv s) (hidle : s.hook = .idle) :
    (∀ o : WifiObserver, o ∉ s.hook.pending) ∧ s.https.listener = .idle ∧ s.mqtt.listener = .idle := by
  refine ⟨?_, (listenersIdle_iff s).mp (h.quiet (by simp [hidle]))⟩
  rw [hidle]
  simp [HookPc.pending]

/-- **A hook that is through puts the clients online.** -/
theorem httpsOnline_of_hook :
    let s := run (stepDevice httpsCfg mqttCfg) Device.boot es
    s.hook = .idle → s.bound = true → s.certFailed = false → HttpsOnline s := by
  intro s hidle hbound hprovisioned
  have hinv : ViewsInv s := viewsInv_run httpsCfg mqttCfg es
  obtain ⟨hcalled, hlistener, -⟩ := settled_of_idle hinv hidle
  refine ⟨hbound, ?_⟩
  rw [hinv.https.settled (hcalled _) (by rw [hlistener]; rfl), hbound, hprovisioned]
  rfl

theorem mqttOnline_of_hook :
    let s := run (stepDevice httpsCfg mqttCfg) Device.boot es
    s.hook = .idle → s.bound = true → MqttOnline s := by
  intro s hidle hbound
  have hinv : ViewsInv s := viewsInv_run httpsCfg mqttCfg es
  obtain ⟨hcalled, -, hlistener⟩ := settled_of_idle hinv hidle
  refine ⟨hbound, ?_⟩
  rw [hinv.mqtt.settled (hcalled _) (by rw [hlistener]; rfl), hbound]

end Reached

/-! ### The next request and the next message -/

/-- The event leaves the HTTPS client its network. -/
def KeepsHttps (s : Device) (e : DeviceEvent) : Prop := isDisconnect e = false ∧ certFailsAt s e = false

instance (s : Device) (e : DeviceEvent) : Decidable (KeepsHttps s e) := inferInstanceAs (Decidable (_ ∧ _))

def httpsTurn : DeviceEvent := .httpsThread ⟨0, true, 0, false⟩

def mqttTurn : DeviceEvent := .mqttThread MqttThread.okInput

theorem connack_callback : isCallback (.onMqttConnack 0) = true := rfl

/-- Both threads take `turns` turns, and every sleep is over before the next. -/
def workingTurns (turns : ℕ) : List DeviceEvent :=
  (List.replicate turns [httpsTurn, mqttTurn, .elapse 300000]).flatten

/-- **After a `dhcp_bound` the HTTPS client sends.**  Once the hook is through, and until the next
`wifi_disconnect` or a certificate that is not provisioned, a request starts within 101 turns of the HTTPS
thread, sleeping apart, whatever the hooks, the listeners, the MQTT client and the core do between them. -/
theorem device_request_comes (httpsCfg : HttpsConfig) (mqttCfg : MqttConfig) (es fs : List DeviceEvent) :
    let step := stepDevice httpsCfg mqttCfg
    let s := run step Device.boot es
    s.hook = .idle → s.bound = true → s.certFailed = false → EachStep step KeepsHttps s fs →
      101 ≤ countSteps step (partTurn Device.https httpsSees HttpsPace.takesStep) s fs →
      Happens step (AtPart Device.https httpsSees fun s e => HttpsPace.startsRequest s e = true) s fs := by
  intro step s hidle hbound hprovisioned hkeeps hturns
  have hpart := https_part httpsCfg mqttCfg
  have hrunning : HttpsPace.Running s.https := by
    rw [hpart.run_view es Device.boot]
    exact run_invariant_always (HttpsPace.running_step httpsCfg) _ HttpsSystem.boot
      ⟨rfl, by simp [HttpsSystem.boot]⟩
  -- the client has the network before and after each of its steps
  have hready : EachStep (stepHttps httpsCfg) (HttpsPace.StaysReady httpsCfg) s.https
      (seen step httpsSees s fs) := by
    refine hpart.eachStep fs s (eachStep_of_invariant (httpsOnline_step httpsCfg mqttCfg) ?_ fs s
      (httpsOnline_of_hook httpsCfg mqttCfg es hidle hbound hprovisioned) hkeeps)
    intro s e honline hkeep d hsees
    refine ⟨honline.ready, ?_⟩
    rw [← hpart.moves s e d hsees]
    exact (httpsOnline_step httpsCfg mqttCfg s e honline hkeep).ready
  rw [hpart.countSteps_eq fs s] at hturns
  have hleft := Nat.le_trans (HttpsPace.stepsLeft_le hrunning.not_exited) hturns
  exact hpart.happens fs s ((HttpsPace.request_variant httpsCfg).happens _ s.https hrunning hready hleft)

theorem device_request_comes_first :
    Happens (stepDevice ⟨60⟩ MqttThread.sampleConfig)
      (AtPart Device.https httpsSees fun s e => HttpsPace.startsRequest s e = true)
      (run (stepDevice ⟨60⟩ MqttThread.sampleConfig) Device.boot bindHook) (workingTurns 101) :=
  device_request_comes ⟨60⟩ MqttThread.sampleConfig bindHook (workingTurns 101) (by decide +kernel)
    (by decide +kernel) (by decide +kernel) (by decide +kernel) (by decide +kernel)

/-- The event leaves the MQTT client its network, and the broker connected. -/
def KeepsBroker (httpsCfg : HttpsConfig) (mqttCfg : MqttConfig) (s : Device) (e : DeviceEvent) : Prop :=
  isDisconnect e = false ∧ s.mqtt.client.vars.currentState = .connected ∧
    (stepDevice httpsCfg mqttCfg s e).mqtt.client.vars.currentState = .connected

instance (httpsCfg : HttpsConfig) (mqttCfg : MqttConfig) (s : Device) (e : DeviceEvent) :
    Decidable (KeepsBroker httpsCfg mqttCfg s e) :=
  inferInstanceAs (Decidable (_ ∧ _ ∧ _))

/-- **After a `dhcp_bound` the MQTT client sends.**  Once the hook is through and the thread initialised, and
as long as no `wifi_disconnect` comes and the broker stays connected, a message is handed over within 103
turns of the MQTT thread, sleeping apart, whatever becomes of the HTTPS client. -/
theorem device_publish_comes (httpsCfg : HttpsConfig) (mqttCfg : MqttConfig) (es fs : List DeviceEvent) :
    let step := stepDevice httpsCfg mqttCfg
    let s := run step Device.boot es
    s.hook = .idle → s.bound = true → MqttPace.inLoop s.mqtt.client.pc = true →
      EachStep step (KeepsBroker httpsCfg mqttCfg) s fs →
      103 ≤ countSteps step (partTurn Device.mqtt mqttSees MqttPace.takesStep) s fs →
      Happens step (AtPart Device.mqtt mqttSees fun s e => MqttPace.startsPublish s e = true) s fs := by
  intro step s hidle hbound hloop hkeeps hturns
  have hpart := mqtt_part httpsCfg mqttCfg
  have hrunning : MqttPace.ClientRuns s.mqtt := by
    rw [hpart.run_view es Device.boot]
    exact run_invariant_always (MqttPace.running_kept mqttCfg) _ _ rfl
  have honline : ∀ s e, MqttOnline s → KeepsBroker httpsCfg mqttCfg s e → MqttOnline (step s e) :=
    fun s e h hkeep => mqttOnline_step httpsCfg mqttCfg s e h hkeep.1
  have hup : EachStep (stepListened mqttCfg) (MqttPace.StaysUp mqttCfg) s.mqtt
      (seen step mqttSees s fs) := by
    refine hpart.eachStep fs s (eachStep_of_invariant honline ?_ fs s
      (mqttOnline_of_hook httpsCfg mqttCfg es hidle hbound) hkeeps)
    intro s e h hkeep d hsees
    refine ⟨⟨h.ready, hkeep.2.1⟩, ?_⟩
    rw [← hpart.moves s e d hsees]
    exact ⟨(honline s e h hkeep).ready, hkeep.2.2⟩
  rw [hpart.countSteps_eq fs s] at hturns
  have hleft := Nat.le_trans (MqttPace.stepsLeft_le hloop) hturns
  exact hpart.happens fs s ((MqttPace.publish_variant mqttCfg).happens _ s.mqtt ⟨hrunning, hloop⟩ hup hleft)

/-- A device whose broker has accepted the MQTT client. -/
def brokerAccepts : List DeviceEvent :=
  mqttTurn :: bindHook ++ workingTurns 12 ++ [.mqttCallback ⟨.onMqttConnack 0, connack_callback⟩]

theorem device_publish_comes_first :
    Happens (stepDevice ⟨60⟩ MqttThread.sampleConfig)
      (AtPart Device.mqtt mqttSees fun s e => MqttPace.startsPublish s e = true)
      (run (stepDevice ⟨60⟩ MqttThread.sampleConfig) Device.boot brokerAccepts) (workingTurns 103) :=
  device_publish_comes ⟨60⟩ MqttThread.sampleConfig brokerAccepts (workingTurns 103) (by decide +kernel)
    (by decide +kernel) (by decide +kernel) (by decide +kernel) (by decide +kernel)

end WifiMemfault.DeviceRuns
