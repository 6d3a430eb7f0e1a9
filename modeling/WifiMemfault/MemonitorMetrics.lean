import WifiMemfault.HttpsRequest
import WifiMemfault.Lib.LastWrite
import Mathlib.Logic.Function.Basic

/-!
# The heap and stack metrics

The model of `metrics/app_memfault_memonitor_metrics.c`: the table from thread names to metric keys, with the
entries a build leaves out, and the two updates that a message on `MEMONITOR_CHAN` makes.  What memonitor
answers is an input; `size_t` has 32 bits.

A metric is what the last snapshot with its name says, over any sequence of messages.  This rests on the
table: no two of its entries share a name or a key, in any build.
-/

namespace WifiMemfault.MemonitorMetrics

open CString
open HttpsRequest (ascii)
open LastWrite (latest)

/-! ### The keys and the table -/

/-- The metric keys of this file. -/
inductive MetricKey where
  | ncsSystemHeapTotal | ncsSystemHeapUsed | ncsSystemHeapPeak
  | ncsMbedtlsHeapTotal | ncsMbedtlsHeapUsed | ncsMbedtlsHeapPeak
  | ncsWifiHostapIfaceUnusedStack | ncsWifiHostapHandlerUnusedStack
  | ncsWifiIntrUnusedStack | ncsWifiBhUnusedStack
  | ncsMfltHttpUnusedStack | memfaultUploadUnusedStack | mfltOtaTriggersUnusedStack
  | ncsMqttHelperUnusedStack | ncsConnMgrMonitorUnusedStack | ncsNetSocketServiceUnusedStack
  | ncsRxQ0UnusedStack | ncsTxQ0UnusedStack | ncsNetMgmtUnusedStack | ncsTcpWorkUnusedStack
  | ncsShellUartUnusedStack | ncsLoggingUnusedStack | ncsMainUnusedStack
  | ncsSysworkqUnusedStack | ncsSystemThreadUnusedStack
  | appHttpsClientUnusedStack | appMqttClientUnusedStack
  | ncsBtRxUnusedStack | ncsBtTxUnusedStack | ncsBtHciIsrUnusedStack | ncsBtHostTxUnusedStack
  | ncsNtpUnusedStack
  deriving DecidableEq, Repr

structure MemonitorConfig where
  /-- `CONFIG_ZEGO_MEMONITOR_HEAP_MONITOR` and `CONFIG_ZEGO_MEMONITOR_THREAD_MONITOR`. -/
  heapMonitor : Bool
  threadMonitor : Bool
  /-- `CONFIG_HEAP_MEM_POOL_SIZE > 0`. -/
  heapMemPool : Bool
  mbedtlsEnableHeap : Bool
  appHttpsClientModule : Bool
  appMqttClientModule : Bool
  bt : Bool
  zegoNtp : Bool

structure ThreadMetric where
  name : CText
  key : MetricKey
  deriving DecidableEq

def threadMetric (name : String) (key : MetricKey) : ThreadMetric := ⟨.ofBytes (ascii name), key⟩

/-- The entries of every build. -/
def baseThreads : List ThreadMetric :=
  [threadMetric "hostap_iface_wq" .ncsWifiHostapIfaceUnusedStack,
    threadMetric "hostap_handler" .ncsWifiHostapHandlerUnusedStack,
    threadMetric "nrf70_intr_wq" .ncsWifiIntrUnusedStack,
    threadMetric "nrf70_bh_wq" .ncsWifiBhUnusedStack,
    threadMetric "mflt_http" .ncsMfltHttpUnusedStack,
    threadMetric "memfault_upload_tid" .memfaultUploadUnusedStack,
    threadMetric "mflt_ota_triggers_tid" .mfltOtaTriggersUnusedStack,
    threadMetric "mqtt_helper_thread" .ncsMqttHelperUnusedStack,
    threadMetric "conn_mgr_monitor" .ncsConnMgrMonitorUnusedStack,
    threadMetric "net_socket_service" .ncsNetSocketServiceUnusedStack,
    threadMetric "rx_q[0]" .ncsRxQ0UnusedStack,
    threadMetric "tx_q[0]" .ncsTxQ0UnusedStack,
    threadMetric "net_mgmt" .ncsNetMgmtUnusedStack,
    threadMetric "tcp_work" .ncsTcpWorkUnusedStack,
    threadMetric "shell_uart" .ncsShellUartUnusedStack,
    threadMetric "logging" .ncsLoggingUnusedStack,
    threadMetric "main" .ncsMainUnusedStack,
    threadMetric "sysworkq" .ncsSysworkqUnusedStack,
    threadMetric "k_system_thread" .ncsSystemThreadUnusedStack]

def httpsThreads : List ThreadMetric := [threadMetric "app_https_client_tid" .appHttpsClientUnusedStack]

def mqttThreads : List ThreadMetric := [threadMetric "app_mqtt_client_tid" .appMqttClientUnusedStack]

def btThreads : List ThreadMetric :=
  [threadMetric "bt_rx" .ncsBtRxUnusedStack, threadMetric "bt_tx" .ncsBtTxUnusedStack,
    threadMetric "bt_hci_isr" .ncsBtHciIsrUnusedStack,
    threadMetric "bt_host_tx" .ncsBtHostTxUnusedStack]

def ntpThreads : List ThreadMetric := [threadMetric "ntp" .ncsNtpUnusedStack]

/-- `#if`. -/
def ifEnabled (enabled : Bool) (rows : List ThreadMetric) : List ThreadMetric :=
  if enabled then rows else []

variable (cfg : MemonitorConfig)

def sThreadTable : List ThreadMetric :=
  baseThreads ++ (ifEnabled cfg.appHttpsClientModule httpsThreads ++
    (ifEnabled cfg.appMqttClientModule mqttThreads ++
      (ifEnabled cfg.bt btThreads ++ ifEnabled cfg.zegoNtp ntpThreads)))

/-! ### The updates -/

structure HeapEntry where
  name : CText
  total : UInt32
  used : UInt32
  watermark : UInt32

structure ThreadEntry where
  name : CText
  stackSize : UInt32
  stackHwm : UInt32

/-- What `memonitor_get_heaps` or `memonitor_get_threads` answers, with the entries up to `count`. -/
structure Snapshot (α : Type) where
  err : ℤ
  entries : List α

/-- The metrics, none before they are set. -/
abbrev Metrics : Type := MetricKey → Option UInt32

/-- `MEMFAULT_METRIC_SET_UNSIGNED`. -/
def setUnsigned (m : Metrics) (key : MetricKey) (value : UInt32) : Metrics :=
  Function.update m key (some value)

/-- The three metrics of one heap. -/
structure HeapKeys where
  total : MetricKey
  used : MetricKey
  peak : MetricKey

def systemHeap : HeapKeys := ⟨.ncsSystemHeapTotal, .ncsSystemHeapUsed, .ncsSystemHeapPeak⟩

def mbedtlsHeap : HeapKeys := ⟨.ncsMbedtlsHeapTotal, .ncsMbedtlsHeapUsed, .ncsMbedtlsHeapPeak⟩

def systemHeapName : CText := .ofBytes (ascii "_system_heap")

def mbedtlsHeapName : CText := .ofBytes (ascii "mbedtls_heap")

def setHeap (m : Metrics) (keys : HeapKeys) (e : HeapEntry) : Metrics :=
  setUnsigned (setUnsigned (setUnsigned m keys.total e.total) keys.used e.used) keys.peak e.watermark

/-- The body of the loop over the heaps. -/
def updateHeap (m : Metrics) (e : HeapEntry) : Metrics :=
  if cfg.heapMemPool = true ∧ strcmp e.name.text systemHeapName.text = 0 then setHeap m systemHeap e
  else if cfg.mbedtlsEnableHeap = true ∧ strcmp e.name.text mbedtlsHeapName.text = 0 then
    setHeap m mbedtlsHeap e
  else m

def updateHeapMetrics (m : Metrics) (heaps : Snapshot HeapEntry) : Metrics :=
  if cfg.heapMonitor = false then m
  else if heaps.err ≠ 0 then m
  else heaps.entries.foldl (updateHeap cfg) m

/-- The loop over the table, which ends at the first entry with the name. -/
def setThread (m : Metrics) (name : CText) (unused : UInt32) : List ThreadMetric → Metrics
  | [] => m
  | row :: rows =>
    if strcmp name.text row.name.text = 0 then setUnsigned m row.key unused
    else setThread m name unused rows

/-- The body of the loop over the threads. -/
def updateThread (m : Metrics) (e : ThreadEntry) : Metrics :=
  if e.stackSize = 0 then m
  else
    let unused := e.stackSize - e.stackHwm
    setThread m e.name unused (sThreadTable cfg)

def updateThreadMetrics (m : Metrics) (threads : Snapshot ThreadEntry) : Metrics :=
  if cfg.threadMonitor = false then m
  else if threads.err ≠ 0 then m
  else threads.entries.foldl (updateThread cfg) m

/-- What memonitor answers to the two questions of one message. -/
structure Sample where
  heaps : Snapshot HeapEntry
  threads : Snapshot ThreadEntry

def memonitorMetricsCb (m : Metrics) (sample : Sample) : Metrics :=
  updateThreadMetrics cfg (updateHeapMetrics cfg m sample.heaps) sample.threads

/-! ### The table -/

/-- The table of a build that leaves nothing out. -/
def fullTable : List ThreadMetric :=
  baseThreads ++ (httpsThreads ++ (mqttThreads ++ (btThreads ++ ntpThreads)))

theorem ifEnabled_sublist (enabled : Bool) (rows : List ThreadMetric) :
    (ifEnabled enabled rows).Sublist rows := by
  cases enabled with
  | false => exact List.nil_sublist rows
  | true => exact List.Sublist.refl rows

theorem sThreadTable_sublist (cfg : MemonitorConfig) : (sThreadTable cfg).Sublist fullTable := by
  refine (List.Sublist.refl baseThreads).append ?_
  refine (ifEnabled_sublist _ httpsThreads).append ?_
  refine (ifEnabled_sublist _ mqttThreads).append ?_
  exact (ifEnabled_sublist _ btThreads).append (ifEnabled_sublist _ ntpThreads)

/-- No two entries share a name or a key. -/
structure Distinct (rows : List ThreadMetric) : Prop where
  names : (rows.map ThreadMetric.name).Nodup
  keys : (rows.map ThreadMetric.key).Nodup

theorem fullTable_distinct : Distinct fullTable := ⟨by decide +kernel, by decide +kernel⟩

theorem sThreadTable_distinct (cfg : MemonitorConfig) : Distinct (sThreadTable cfg) := by
  have hsub := sThreadTable_sublist cfg
  exact ⟨fullTable_distinct.names.sublist (hsub.map _), fullTable_distinct.keys.sublist (hsub.map _)⟩

/-! ### The metrics of the heaps -/

inductive Heap where
  | system | mbedtls
  deriving DecidableEq, Repr

namespace Heap

def enabled (cfg : MemonitorConfig) : Heap → Bool
  | .system => cfg.heapMemPool
  | .mbedtls => cfg.mbedtlsEnableHeap

def name : Heap → CText
  | .system => systemHeapName
  | .mbedtls => mbedtlsHeapName

def keys : Heap → HeapKeys
  | .system => systemHeap
  | .mbedtls => mbedtlsHeap

end Heap

/-- One of the three metrics of a heap. -/
inductive HeapField where
  | total | used | peak
  deriving DecidableEq, Repr

namespace HeapField

def key (keys : HeapKeys) : HeapField → MetricKey
  | .total => keys.total
  | .used => keys.used
  | .peak => keys.peak

def value (e : HeapEntry) : HeapField → UInt32
  | .total => e.total
  | .used => e.used
  | .peak => e.watermark

end HeapField

/-- The keys of the two heaps. -/
def heapKeys : List MetricKey :=
  [.ncsSystemHeapTotal, .ncsSystemHeapUsed, .ncsSystemHeapPeak, .ncsMbedtlsHeapTotal,
    .ncsMbedtlsHeapUsed, .ncsMbedtlsHeapPeak]

/-! ### One message -/

variable {cfg} {m : Metrics} {key : MetricKey} {row : ThreadMetric}

theorem setUnsigned_self (value : UInt32) : setUnsigned m key value key = some value := by
  simp [setUnsigned]

theorem setUnsigned_other {key' : MetricKey} (h : key' ≠ key) (value : UInt32) :
    setUnsigned m key value key' = m key' := by
  simp [setUnsigned, h]

theorem setThread_other {rows : List ThreadMetric} (h : key ∉ rows.map ThreadMetric.key) (name : CText)
    (unused : UInt32) : setThread m name unused rows key = m key := by
  induction rows with
  | nil => rfl
  | cons head rows ih =>
    rw [List.map_cons, List.mem_cons, not_or] at h
    rw [setThread]
    split
    · exact setUnsigned_other h.1 unused
    · exact ih h.2

/-- A snapshot sets the metric of its name, and no other of the table. -/
theorem setThread_row {rows : List ThreadMetric} (hrows : Distinct rows) (hrow : row ∈ rows) (name : CText)
    (unused : UInt32) :
    setThread m name unused rows row.key = if name = row.name then some unused else m row.key := by
  induction rows with
  | nil => cases hrow
  | cons head rows ih =>
    obtain ⟨hnames, hkeys⟩ := hrows
    obtain ⟨hname, hnames⟩ := List.nodup_cons.mp hnames
    obtain ⟨hkey, hkeys⟩ := List.nodup_cons.mp hkeys
    simp only [setThread, strcmp_eq_zero name.nonzero head.name.nonzero, ← CText.ext_iff]
    rcases List.mem_cons.mp hrow with rfl | hrow
    · split
      · exact setUnsigned_self unused
      · exact setThread_other hkey name unused
    · have hother : row.key ≠ head.key := fun h => hkey (h ▸ List.mem_map_of_mem hrow)
      have hnot : row.name ≠ head.name := fun h => hname (h ▸ List.mem_map_of_mem hrow)
      split
      · rename_i hhead
        rw [setUnsigned_other hother, if_neg]
        rintro rfl
        exact hnot hhead
      · exact ih ⟨hnames, hkeys⟩ hrow

/-- The snapshot counts for the entry of the table. -/
def reportsThread (row : ThreadMetric) (e : ThreadEntry) : Bool := e.stackSize ≠ 0 ∧ e.name = row.name

def unusedStack (e : ThreadEntry) : UInt32 := e.stackSize - e.stackHwm

theorem updateThread_row (hrow : row ∈ sThreadTable cfg) (m : Metrics) (e : ThreadEntry) :
    updateThread cfg m e row.key = if reportsThread row e then some (unusedStack e) else m row.key := by
  rw [updateThread]
  split
  · rename_i hsize
    simp [reportsThread, hsize]
  · rename_i hsize
    rw [setThread_row (sThreadTable_distinct cfg) hrow]
    simp [reportsThread, hsize, unusedStack]

theorem updateThread_other (h : key ∉ (sThreadTable cfg).map ThreadMetric.key) (m : Metrics)
    (e : ThreadEntry) : updateThread cfg m e key = m key := by
  rw [updateThread]
  split
  · rfl
  · exact setThread_other h e.name _

/-! ### The heaps -/

theorem thread_keys_disjoint (cfg : MemonitorConfig) :
    ∀ key ∈ (sThreadTable cfg).map ThreadMetric.key, key ∉ heapKeys := by
  have hall : ∀ key ∈ fullTable.map ThreadMetric.key, key ∉ heapKeys := by decide +kernel
  exact fun key hkey => hall key (((sThreadTable_sublist cfg).map _).subset hkey)

theorem field_key_mem (heap : Heap) (field : HeapField) : field.key heap.keys ∈ heapKeys := by
  cases heap <;> cases field <;> decide

/-- A heap sets its three metrics, and none of the other heap. -/
theorem setHeap_field (heap heap' : Heap) (field : HeapField) (e : HeapEntry) :
    setHeap m heap'.keys e (field.key heap.keys)
      = if heap' = heap then some (field.value e) else m (field.key heap.keys) := by
  cases heap <;> cases heap' <;> cases field <;> rfl

theorem setHeap_other (h : key ∉ heapKeys) (heap : Heap) (e : HeapEntry) :
    setHeap m heap.keys e key = m key := by
  have hkeys : ∀ field : HeapField, key ≠ field.key heap.keys := by
    rintro field rfl
    exact h (field_key_mem heap field)
  have htotal : key ≠ heap.keys.total := hkeys .total
  have hused : key ≠ heap.keys.used := hkeys .used
  have hpeak : key ≠ heap.keys.peak := hkeys .peak
  rw [setHeap, setUnsigned_other hpeak, setUnsigned_other hused, setUnsigned_other htotal]

/-- The snapshot counts for the heap. -/
def reportsHeap (cfg : MemonitorConfig) (heap : Heap) (e : HeapEntry) : Bool :=
  heap.enabled cfg = true ∧ e.name = heap.name

theorem heap_names_ne : systemHeapName ≠ mbedtlsHeapName := by decide +kernel

theorem updateHeap_eq (cfg : MemonitorConfig) (m : Metrics) (e : HeapEntry) :
    updateHeap cfg m e =
      if reportsHeap cfg .system e then setHeap m Heap.system.keys e
      else if reportsHeap cfg .mbedtls e then setHeap m Heap.mbedtls.keys e
      else m := by
  simp only [updateHeap, strcmp_eq_zero e.name.nonzero systemHeapName.nonzero,
    strcmp_eq_zero e.name.nonzero mbedtlsHeapName.nonzero, ← CText.ext_iff, reportsHeap,
    decide_eq_true_eq]
  rfl

theorem updateHeap_field (cfg : MemonitorConfig) (heap : Heap) (field : HeapField) (m : Metrics)
    (e : HeapEntry) :
    updateHeap cfg m e (field.key heap.keys)
      = if reportsHeap cfg heap e then some (field.value e) else m (field.key heap.keys) := by
  have hone : reportsHeap cfg .system e = true → reportsHeap cfg .mbedtls e = false := by
    intro hsystem
    obtain ⟨-, hname⟩ := of_decide_eq_true hsystem
    refine decide_eq_false fun hmbedtls => heap_names_ne ?_
    exact hname.symm.trans hmbedtls.2
  rw [updateHeap_eq]
  cases hsystem : reportsHeap cfg .system e with
  | true =>
    rw [if_pos rfl, setHeap_field]
    cases heap with
    | system => simp [hsystem]
    | mbedtls => simp [hone hsystem]
  | false =>
    rw [if_neg Bool.false_ne_true]
    cases hmbedtls : reportsHeap cfg .mbedtls e with
    | true =>
      rw [if_pos rfl, setHeap_field]
      cases heap with
      | system => simp [hsystem]
      | mbedtls => simp [hmbedtls]
    | false =>
      rw [if_neg Bool.false_ne_true]
      cases heap with
      | system => simp [hsystem]
      | mbedtls => simp [hmbedtls]

theorem updateHeap_other (cfg : MemonitorConfig) (h : key ∉ heapKeys) (m : Metrics) (e : HeapEntry) :
    updateHeap cfg m e key = m key := by
  rw [updateHeap_eq]
  split
  · exact setHeap_other h .system e
  · split
    · exact setHeap_other h .mbedtls e
    · rfl

/-! ### Any sequence of messages -/

/-- The snapshots a message reports. -/
def heapsSeen (cfg : MemonitorConfig) (sample : Sample) : List HeapEntry :=
  if cfg.heapMonitor = true ∧ sample.heaps.err = 0 then sample.heaps.entries else []

def threadsSeen (cfg : MemonitorConfig) (sample : Sample) : List ThreadEntry :=
  if cfg.threadMonitor = true ∧ sample.threads.err = 0 then sample.threads.entries else []

/-- A message works off the snapshots it reports. -/
theorem memonitorMetricsCb_eq (cfg : MemonitorConfig) (m : Metrics) (sample : Sample) :
    memonitorMetricsCb cfg m sample
      = (threadsSeen cfg sample).foldl (updateThread cfg)
          ((heapsSeen cfg sample).foldl (updateHeap cfg) m) := by
  have hheaps : updateHeapMetrics cfg m sample.heaps = (heapsSeen cfg sample).foldl (updateHeap cfg) m := by
    simp only [updateHeapMetrics, heapsSeen]
    cases cfg.heapMonitor with
    | false => rfl
    | true => by_cases herr : sample.heaps.err = 0 <;> simp [herr]
  have hthreads : ∀ m, updateThreadMetrics cfg m sample.threads
      = (threadsSeen cfg sample).foldl (updateThread cfg) m := by
    intro m
    simp only [updateThreadMetrics, threadsSeen]
    cases cfg.threadMonitor with
    | false => rfl
    | true => by_cases herr : sample.threads.err = 0 <;> simp [herr]
  rw [memonitorMetricsCb, hheaps, hthreads]

theorem message_row (hrow : row ∈ sThreadTable cfg) (m : Metrics) (sample : Sample) :
    memonitorMetricsCb cfg m sample row.key
      = (latest (reportsThread row) unusedStack (threadsSeen cfg sample)).or (m row.key) := by
  have hheap : row.key ∉ heapKeys := thread_keys_disjoint cfg row.key (List.mem_map_of_mem hrow)
  rw [memonitorMetricsCb_eq, LastWrite.fold_events (fun m : Metrics => m row.key) (updateThread_row hrow)]
  exact congrArg _ (LastWrite.fold_kept (fun m : Metrics => m row.key) (updateHeap_other cfg hheap) _ m)

theorem message_field (heap : Heap) (field : HeapField) (m : Metrics) (sample : Sample) :
    memonitorMetricsCb cfg m sample (field.key heap.keys)
      = (latest (reportsHeap cfg heap) (fun e => field.value e) (heapsSeen cfg sample)).or
          (m (field.key heap.keys)) := by
  have hthread : field.key heap.keys ∉ (sThreadTable cfg).map ThreadMetric.key :=
    fun hmem => thread_keys_disjoint cfg _ hmem (field_key_mem heap field)
  have hkept := LastWrite.fold_kept (fun m : Metrics => m (field.key heap.keys))
    (updateThread_other hthread) (threadsSeen cfg sample)
  have hfold := LastWrite.fold_events (fun m : Metrics => m (field.key heap.keys))
    (updateHeap_field cfg heap field) (heapsSeen cfg sample) m
  rw [memonitorMetricsCb_eq]
  exact (hkept _).trans hfold

/-- **A metric is what the last snapshot says.**  After any messages, the metric of a thread of the table is
the unused stack in the last snapshot with the thread's name and a stack, and the metrics of a heap are those
of the last snapshot with the heap's name; what no snapshot names, and every key that the build leaves out of
the table, is as before. -/
theorem metrics_latest (cfg : MemonitorConfig) (samples : List Sample) (m : Metrics) :
    let after := samples.foldl (memonitorMetricsCb cfg) m
    (∀ row ∈ sThreadTable cfg, after row.key =
      (latest (reportsThread row) unusedStack (samples.flatMap (threadsSeen cfg))).or (m row.key)) ∧
    (∀ (heap : Heap) (field : HeapField), after (field.key heap.keys) =
      (latest (reportsHeap cfg heap) (fun e => field.value e) (samples.flatMap (heapsSeen cfg))).or
        (m (field.key heap.keys))) ∧
    ∀ key, key ∉ (sThreadTable cfg).map ThreadMetric.key → key ∉ heapKeys → after key = m key := by
  intro after
  refine ⟨fun row hrow => ?_, fun heap field => ?_, fun key hthread hheap => ?_⟩
  · exact LastWrite.fold_batches (fun m : Metrics => m row.key) (message_row hrow) samples m
  · exact LastWrite.fold_batches (fun m : Metrics => m (field.key heap.keys)) (message_field heap field)
      samples m
  · refine LastWrite.fold_kept (fun m : Metrics => m key) (fun m sample => ?_) samples m
    rw [memonitorMetricsCb_eq]
    have hthreads := LastWrite.fold_kept (fun m : Metrics => m key) (updateThread_other hthread)
      (threadsSeen cfg sample)
    have hheaps := LastWrite.fold_kept (fun m : Metrics => m key) (updateHeap_other cfg hheap)
      (heapsSeen cfg sample)
    exact (hthreads _).trans (hheaps m)

/-- A build with everything in it. -/
def fullConfig : MemonitorConfig := ⟨true, true, true, true, true, true, true, true⟩

/-- A message with one snapshot of a thread. -/
def threadSample (err : ℤ) (name : String) (stackSize stackHwm : UInt32) : Sample :=
  ⟨⟨0, []⟩, ⟨err, [⟨.ofBytes (ascii name), stackSize, stackHwm⟩]⟩⟩

/-- The main thread twice, with another thread, an error and an empty stack between and after. -/
def mainSamples : List Sample :=
  [threadSample 0 "main" 4096 1000, threadSample 0 "logging" 768 500, threadSample 0 "main" 4096 1200,
    threadSample (-5) "main" 4096 1500, threadSample 0 "main" 0 0]

theorem metrics_latest_main :
    mainSamples.foldl (memonitorMetricsCb fullConfig) (fun _ => none) .ncsMainUnusedStack = some 2896 :=
  ((metrics_latest fullConfig mainSamples fun _ => none).1
    (threadMetric "main" .ncsMainUnusedStack) (by decide +kernel)).trans (by decide +kernel)

end WifiMemfault.MemonitorMetrics
