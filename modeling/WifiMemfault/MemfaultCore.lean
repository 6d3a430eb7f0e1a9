import WifiMemfault.Lib.Runs

/-!
# The connectivity state machine of the Memfault core

The model of `core/app_memfault_core.c`: the flags `wifi_connected`, `log_freeze_scheduled` and
`network_ever_connected`, the delayable work `log_freeze_work`, the semaphore `upload_sem`, and the
upload thread with its initial sleep, its DNS loop and the steps of `on_connect`.

* A listener call, the start of the work handler and each statement of the upload thread that reads or
  changes shared state is one event.  Time passes by `elapse`, in milliseconds.
* An event that is not possible in a state (the work is not due, the thread still sleeps) leaves the
  state alone.
* What the handler and `on_connect` do to the flash partitions is not part of this state:
  `persistStarts` and `restoreStarts` say in which steps they do it.
-/

namespace WifiMemfault.MemfaultCore

def dnsCheckIntervalSec : ℕ := 10
def dnsTimeoutSec : ℕ := 300
def logFreezeDelaySec : ℕ := 10

/-- `K_SECONDS`. -/
def kSeconds (s : ℕ) : ℕ := 1000 * s

/-- Where the upload thread is inside `on_connect`. -/
inductive OnConnectPc where
  | coredumpTest | logRestore | cdrRestore | upload
  deriving DecidableEq, Repr

/-- Where the upload thread is.  A sleep carries the time it ends. -/
inductive UploadPc where
  | semTake
  | initialSleep (wake : ℕ)
  | dnsTest (dnsWaitTime : ℕ)
  | dnsCheck (dnsWaitTime : ℕ)
  | dnsSleep (dnsWaitTime wake : ℕ)
  | finalTest
  | onConnect (pc : OnConnectPc)
  deriving DecidableEq, Repr

@[ext] structure Core where
  now : ℕ
  wifiConnected : Bool
  logFreezeScheduled : Bool
  networkEverConnected : Bool
  /-- The time the pending `log_freeze_work` is due, if it is pending. -/
  logFreezeWork : Option ℕ
  uploadSem : ℕ
  upload : UploadPc
  deriving DecidableEq, Repr

/-- The state the static initialisers give. -/
def Core.boot (now : ℕ) : Core := ⟨now, false, false, false, none, 0, .semTake⟩

inductive WifiMsgType where
  | wifiStaConnected | wifiStaDisconnected | other
  deriving DecidableEq, Repr

inductive NetworkMsgType where
  | networkReady | networkNotReady
  deriving DecidableEq, Repr

inductive ButtonMsgType where
  | buttonSingleClick | other
  deriving DecidableEq, Repr

/-- `k_work_schedule`: an item that is already pending stays as it is. -/
def kWorkSchedule (pending : Option ℕ) (due : ℕ) : Option ℕ :=
  match pending with
  | some d => some d
  | none => some due

/-- `k_sem_give` on a semaphore with limit 1. -/
def kSemGive (_count : ℕ) : ℕ := 1

/-! ### The listeners and the work handler -/

/-- The part that `memfault_wifi_listener` and `memfault_network_listener` have in common on a loss. -/
def Core.scheduleLogFreeze (c : Core) : Core :=
  if c.networkEverConnected = true ∧ c.logFreezeScheduled = false then
    { c with
      logFreezeScheduled := true
      logFreezeWork := kWorkSchedule c.logFreezeWork (c.now + kSeconds logFreezeDelaySec) }
  else c

def memfaultWifiListener (c : Core) : WifiMsgType → Core
  | .wifiStaConnected =>
    { c with
      wifiConnected := true
      networkEverConnected := true
      logFreezeScheduled := false
      logFreezeWork := none
      uploadSem := kSemGive c.uploadSem }
  | .wifiStaDisconnected => { c with wifiConnected := false }.scheduleLogFreeze
  | .other => c

def memfaultNetworkListener (c : Core) : NetworkMsgType → Core
  | .networkNotReady => c.scheduleLogFreeze
  | .networkReady => c

/-- Button 0's single click is the only gesture that touches this state.  The crash demos of the long
presses end the session. -/
def memfaultButtonListener (c : Core) (buttonNumber : ℕ) : ButtonMsgType → Core
  | .buttonSingleClick =>
    if buttonNumber = 0 ∧ c.wifiConnected = true then
      { c with uploadSem := kSemGive c.uploadSem }
    else c
  | .other => c

/-- The work item is due and the workqueue may start it. -/
def Core.logFreezeDue (c : Core) : Bool :=
  match c.logFreezeWork with
  | some due => due ≤ c.now
  | none => false

/-- The start of `log_freeze_work_fn`, which then persists. -/
def logFreezeWorkFn (c : Core) : Core :=
  if c.logFreezeDue then { c with logFreezeScheduled := false, logFreezeWork := none } else c

/-! ### The upload thread -/

/-- `on_connect`: with a coredump to post first it returns at once. -/
def onConnectStep (c : Core) (hasCoredump : Bool) : OnConnectPc → Core
  | .coredumpTest =>
    { c with upload := if hasCoredump then .semTake else .onConnect .logRestore }
  | .logRestore => { c with upload := .onConnect .cdrRestore }
  | .cdrRestore => { c with upload := .onConnect .upload }
  | .upload => { c with upload := .semTake }

/-- One step of `upload_thread_fn`.  `res` is what `check_dns_ready` or the coredump test of
`on_connect` answers in this step. -/
def uploadThreadStep (c : Core) (res : Bool) : Core :=
  match c.upload with
  | .semTake =>
    if c.uploadSem = 0 then c
    else { c with
      uploadSem := c.uploadSem - 1
      upload := .initialSleep (c.now + kSeconds 2) }
  | .initialSleep wake => if c.now < wake then c else { c with upload := .dnsTest 2 }
  | .dnsTest dnsWaitTime =>
    { c with upload := if c.wifiConnected then .dnsCheck dnsWaitTime else .finalTest }
  | .dnsCheck dnsWaitTime =>
    if res = true ∨ dnsTimeoutSec ≤ dnsWaitTime then { c with upload := .finalTest }
    else { c with upload := .dnsSleep dnsWaitTime (c.now + kSeconds dnsCheckIntervalSec) }
  | .dnsSleep dnsWaitTime wake =>
    if c.now < wake then c
    else { c with upload := .dnsTest (dnsWaitTime + dnsCheckIntervalSec) }
  | .finalTest =>
    { c with upload := if c.wifiConnected then .onConnect .coredumpTest else .semTake }
  | .onConnect pc => onConnectStep c res pc

/-! ### The machine -/

inductive CoreEvent where
  | elapse (ms : ℕ)
  | wifiMsg (type : WifiMsgType)
  | networkMsg (type : NetworkMsgType)
  | buttonMsg (buttonNumber : ℕ) (type : ButtonMsgType)
  | logFreezeWork
  | uploadThread (res : Bool)
  deriving DecidableEq, Repr

def coreStep (c : Core) : CoreEvent → Core
  | .elapse ms => { c with now := c.now + ms }
  | .wifiMsg type => memfaultWifiListener c type
  | .networkMsg type => memfaultNetworkListener c type
  | .buttonMsg buttonNumber type => memfaultButtonListener c buttonNumber type
  | .logFreezeWork => logFreezeWorkFn c
  | .uploadThread res => uploadThreadStep c res

/-- In this step `log_freeze_work_fn` runs. -/
def persistStarts (c : Core) (e : CoreEvent) : Bool :=
  e = .logFreezeWork ∧ c.logFreezeDue = true

/-- In this step `on_connect` restores the log state. -/
def restoreStarts (c : Core) (e : CoreEvent) : Bool :=
  c.upload = .onConnect .logRestore ∧ (e = .uploadThread true ∨ e = .uploadThread false)

/-! ### What the parts write -/

/-- A loss schedules the work, and writes nothing else. -/
theorem scheduleLogFreeze_writes (c : Core) : ∃ scheduled work,
    c.scheduleLogFreeze = { c with logFreezeScheduled := scheduled, logFreezeWork := work } := by
  rw [Core.scheduleLogFreeze]
  split
  · exact ⟨_, _, rfl⟩
  · exact ⟨c.logFreezeScheduled, c.logFreezeWork, rfl⟩

theorem logFreezeWorkFn_writes (c : Core) : ∃ scheduled work,
    logFreezeWorkFn c = { c with logFreezeScheduled := scheduled, logFreezeWork := work } := by
  rw [logFreezeWorkFn]
  split
  · exact ⟨_, _, rfl⟩
  · exact ⟨c.logFreezeScheduled, c.logFreezeWork, rfl⟩

/-- The upload thread writes `upload_sem` and its own place only. -/
theorem uploadThreadStep_writes (c : Core) (res : Bool) :
    ∃ sem pc, uploadThreadStep c res = { c with uploadSem := sem, upload := pc } := by
  obtain ⟨now, wifi, scheduled, ever, work, sem, upload⟩ := c
  have hite : ∀ (p : Prop) [Decidable p] (pc pc' : UploadPc), ∃ sem' pc'',
      (if p then ⟨now, wifi, scheduled, ever, work, sem, pc⟩
        else ⟨now, wifi, scheduled, ever, work, sem, pc'⟩ : Core) =
        ⟨now, wifi, scheduled, ever, work, sem', pc''⟩ := by
    intro p _ pc pc'
    split
    · exact ⟨sem, pc, rfl⟩
    · exact ⟨sem, pc', rfl⟩
  cases upload with
  | semTake =>
    simp only [uploadThreadStep]
    split
    · exact ⟨sem, _, rfl⟩
    · exact ⟨sem - 1, _, rfl⟩
  | initialSleep wake => exact hite _ _ _
  | dnsTest dnsWaitTime => exact ⟨sem, _, rfl⟩
  | dnsCheck dnsWaitTime => exact hite _ _ _
  | dnsSleep dnsWaitTime wake => exact hite _ _ _
  | finalTest => exact ⟨sem, _, rfl⟩
  | onConnect pc =>
    cases pc with
    | coredumpTest => exact ⟨sem, _, rfl⟩
    | logRestore => exact ⟨sem, _, rfl⟩
    | cdrRestore => exact ⟨sem, _, rfl⟩
    | upload => exact ⟨sem, _, rfl⟩

theorem buttonListener_writes (c : Core) (n : ℕ) (type : ButtonMsgType) :
    ∃ sem, memfaultButtonListener c n type = { c with uploadSem := sem } := by
  cases type with
  | other => exact ⟨c.uploadSem, rfl⟩
  | buttonSingleClick =>
    simp only [memfaultButtonListener]
    split
    · exact ⟨_, rfl⟩
    · exact ⟨c.uploadSem, rfl⟩

end WifiMemfault.MemfaultCore
