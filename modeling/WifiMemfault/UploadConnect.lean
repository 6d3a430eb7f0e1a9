import WifiMemfault.MemfaultCore

/-!
# No connect is lost

The upload thread with the listeners of the WiFi and the button channel, each of them one statement at a
time: the thread may read `wifi_connected` or take the semaphore between any two statements of a listener.
The messages of one channel come one after the other, those of different channels do not wait for each
other.

A connect *awaits* its upload from the `k_sem_give` at the end of its processing until `on_connect` starts or
a disconnect clears `wifi_connected`.  While one does, there is a token or the thread is on its way to its
final check, which then reads true; and the thread needs at most 99 steps to get there.
-/

namespace WifiMemfault.UploadConnect

open MemfaultCore

/-! ### The listeners, statement by statement -/

/-- The next statement of `memfault_wifi_listener`. -/
inductive WifiListenerPc where
  | idle | setEverConnected | clearScheduled | cancelWork | giveSem | scheduleFreeze
  deriving DecidableEq, Repr

/-- The next statement of `memfault_button_listener`, once its test has succeeded. -/
inductive ButtonListenerPc where
  | idle | giveSem
  deriving DecidableEq, Repr

structure ConnectSystem where
  core : Core
  wifi : WifiListenerPc
  button : ButtonListenerPc
  /-- A connect has been processed, and since then no disconnect has come and no `on_connect` started. -/
  awaiting : Bool
  /-- How many calls of `on_connect` have started. -/
  onConnects : ℕ
  deriving DecidableEq, Repr

def ConnectSystem.boot (now : ℕ) : ConnectSystem := ⟨Core.boot now, .idle, .idle, false, 0⟩

/-- The first statement of `memfault_wifi_listener` writes the flag. -/
def wifiListenerStart (c : Core) : WifiMsgType → Core × WifiListenerPc
  | .wifiStaConnected => ({ c with wifiConnected := true }, .setEverConnected)
  | .wifiStaDisconnected => ({ c with wifiConnected := false }, .scheduleFreeze)
  | .other => (c, .idle)

def wifiListenerNext (c : Core) : WifiListenerPc → Core × WifiListenerPc
  | .idle => (c, .idle)
  | .setEverConnected => ({ c with networkEverConnected := true }, .clearScheduled)
  | .clearScheduled => ({ c with logFreezeScheduled := false }, .cancelWork)
  | .cancelWork => ({ c with logFreezeWork := none }, .giveSem)
  | .giveSem => ({ c with uploadSem := kSemGive c.uploadSem }, .idle)
  | .scheduleFreeze => (c.scheduleLogFreeze, .idle)

/-- The click of button 0 tests the flag; every other gesture leaves this state alone. -/
def buttonListenerStart (c : Core) (buttonNumber : ℕ) : ButtonMsgType → ButtonListenerPc
  | .buttonSingleClick =>
    if buttonNumber = 0 ∧ c.wifiConnected = true then .giveSem else .idle
  | .other => .idle

def buttonListenerNext (c : Core) : ButtonListenerPc → Core
  | .idle => c
  | .giveSem => { c with uploadSem := kSemGive c.uploadSem }

/-- A connect without anything in between is the listener of the core. -/
theorem wifiListener_connected (c : Core) :
    wifiListenerNext
      (wifiListenerNext
        (wifiListenerNext
          (wifiListenerNext (wifiListenerStart c .wifiStaConnected).1 .setEverConnected).1
          .clearScheduled).1 .cancelWork).1 .giveSem
      = (memfaultWifiListener c .wifiStaConnected, .idle) := rfl

theorem wifiListener_disconnected (c : Core) :
    wifiListenerNext (wifiListenerStart c .wifiStaDisconnected).1 .scheduleFreeze
      = (memfaultWifiListener c .wifiStaDisconnected, .idle) := rfl

theorem buttonListener_whole (c : Core) (buttonNumber : ℕ) (type : ButtonMsgType) :
    buttonListenerNext c (buttonListenerStart c buttonNumber type)
      = memfaultButtonListener c buttonNumber type := by
  cases type with
  | other => rfl
  | buttonSingleClick =>
    simp only [buttonListenerStart, memfaultButtonListener]
    split
    · rfl
    · rfl

/-! ### The machine -/

inductive ConnectEvent where
  | elapse (ms : ℕ)
  | uploadThread (res : Bool)
  | wifiMsg (type : WifiMsgType)
  | wifiListener
  | buttonMsg (buttonNumber : ℕ) (type : ButtonMsgType)
  | buttonListener
  | networkMsg (type : NetworkMsgType)
  | logFreezeWork
  deriving DecidableEq, Repr

/-- The final check reads true, and `on_connect` starts. -/
def ConnectSystem.startsOnConnect (s : ConnectSystem) : Bool :=
  s.core.upload = .finalTest ∧ s.core.wifiConnected = true

/-- One event.  A message waits until its channel is free. -/
def stepConnect (s : ConnectSystem) : ConnectEvent → ConnectSystem
  | .elapse ms => { s with core := coreStep s.core (.elapse ms) }
  | .uploadThread res =>
    { s with
      core := uploadThreadStep s.core res
      awaiting := s.awaiting && !s.startsOnConnect
      onConnects := if s.startsOnConnect then s.onConnects + 1 else s.onConnects }
  | .wifiMsg type =>
    if s.wifi = .idle then
      { s with
        core := (wifiListenerStart s.core type).1
        wifi := (wifiListenerStart s.core type).2
        awaiting := s.awaiting && decide (type ≠ .wifiStaDisconnected) }
    else s
  | .wifiListener =>
    { s with
      core := (wifiListenerNext s.core s.wifi).1
      wifi := (wifiListenerNext s.core s.wifi).2
      awaiting := s.awaiting || decide (s.wifi = .giveSem) }
  | .buttonMsg buttonNumber type =>
    if s.button = .idle then
      { s with button := buttonListenerStart s.core buttonNumber type }
    else s
  | .buttonListener => { s with core := buttonListenerNext s.core s.button, button := .idle }
  | .networkMsg type => { s with core := memfaultNetworkListener s.core type }
  | .logFreezeWork => { s with core := logFreezeWorkFn s.core }

/-! ### One step of the thread -/

/-- The thread is between a take and its final check. -/
def inWindow : UploadPc → Bool
  | .initialSleep _ | .dnsTest _ | .dnsCheck _ | .dnsSleep _ _ | .finalTest => true
  | .semTake | .onConnect _ => false

def inOnConnect : UploadPc → Bool
  | .onConnect _ => true
  | _ => false

/-- The seconds the thread has waited for the resolver. -/
def dnsWaited : UploadPc → Option ℕ
  | .dnsTest dnsWaitTime | .dnsCheck dnsWaitTime | .dnsSleep dnsWaitTime _ => some dnsWaitTime
  | .semTake | .initialSleep _ | .finalTest | .onConnect _ => none

/-- The thread sleeps, and the time has not come. -/
def Asleep (c : Core) : Prop :=
  match c.upload with
  | .initialSleep wake | .dnsSleep _ wake => c.now < wake
  | .semTake | .dnsTest _ | .dnsCheck _ | .finalTest | .onConnect _ => False

instance (c : Core) : Decidable (Asleep c) := by
  unfold Asleep
  split <;> infer_instance

/-- The sleeps between DNS checks that may still come. -/
def sleepsLeft (dnsWaitTime : ℕ) : ℕ :=
  (dnsTimeoutSec - dnsWaitTime + (dnsCheckIntervalSec - 1)) / dnsCheckIntervalSec

/-- The steps until `on_connect` starts, sleeping apart, if the link stays up and there is a token. -/
def stepsLeft : UploadPc → ℕ
  | .onConnect .coredumpTest => 99
  | .onConnect .logRestore => 98
  | .onConnect .cdrRestore => 97
  | .onConnect .upload => 96
  | .semTake => 95
  | .initialSleep _ => 94
  | .dnsTest dnsWaitTime => 3 * sleepsLeft dnsWaitTime + 3
  | .dnsCheck dnsWaitTime => 3 * sleepsLeft dnsWaitTime + 2
  | .dnsSleep dnsWaitTime _ => 3 * sleepsLeft (dnsWaitTime + dnsCheckIntervalSec) + 4
  | .finalTest => 1

/-- The core after one step of the thread from `c`, by what the step does. -/
inductive UploadMoves (c : Core) : Core → Prop where
  | blocked (hpc : c.upload = .semTake) (hsem : c.uploadSem = 0) : UploadMoves c c
  | asleep (hsleep : Asleep c) : UploadMoves c c
  | takes (wake : ℕ) (hpc : c.upload = .semTake) (hsem : c.uploadSem ≠ 0) :
      UploadMoves c { c with uploadSem := c.uploadSem - 1, upload := .initialSleep wake }
  | goesOn (pc : UploadPc) (hpc : inWindow c.upload = true) (hpc' : inWindow pc = true)
      (hwaited : ∀ d ∈ dnsWaited pc, d = 2 ∨ ∃ d' ∈ dnsWaited c.upload, d' ≤ d)
      (hleft : stepsLeft pc < stepsLeft c.upload) : UploadMoves c { c with upload := pc }
  | starts (hpc : c.upload = .finalTest) (hwifi : c.wifiConnected = true) :
      UploadMoves c { c with upload := .onConnect .coredumpTest }
  | aborts (hpc : c.upload = .finalTest) (hwifi : c.wifiConnected = false) :
      UploadMoves c { c with upload := .semTake }
  | uploads (pc : UploadPc) (hpc : inOnConnect c.upload = true)
      (hpc' : pc = .semTake ∨ inOnConnect pc = true) (hleft : stepsLeft pc < stepsLeft c.upload) :
      UploadMoves c { c with upload := pc }

/-- A sleep brings the thread one check nearer to the timeout. -/
theorem sleepsLeft_slept {dnsWaitTime : ℕ} (h : ¬ dnsTimeoutSec ≤ dnsWaitTime) :
    sleepsLeft (dnsWaitTime + dnsCheckIntervalSec) + 1 = sleepsLeft dnsWaitTime := by
  have htimeout : dnsTimeoutSec = 300 := rfl
  have hinterval : dnsCheckIntervalSec = 10 := rfl
  rw [htimeout] at h
  simp only [sleepsLeft, htimeout, hinterval]
  omega

/-- **One step of the thread.** -/
theorem uploadThreadStep_moves (c : Core) (res : Bool) : UploadMoves c (uploadThreadStep c res) := by
  obtain ⟨now, wifi, scheduled, ever, work, sem, upload⟩ := c
  cases upload with
  | semTake =>
    by_cases hsem : sem = 0
    · simp only [uploadThreadStep, if_pos hsem]
      exact .blocked rfl hsem
    · simp only [uploadThreadStep, if_neg hsem]
      exact .takes _ rfl hsem
  | initialSleep wake =>
    by_cases hnow : now < wake
    · simp only [uploadThreadStep, if_pos hnow]
      exact .asleep hnow
    · simp only [uploadThreadStep, if_neg hnow]
      refine .goesOn (.dnsTest 2) rfl rfl (fun d hd => ?_) (show stepsLeft (.dnsTest 2) < 94 by decide)
      cases hd
      exact Or.inl rfl
  | dnsTest dnsWaitTime =>
    cases wifi with
    | false => exact .goesOn .finalTest rfl rfl (by rintro d ⟨⟩) (by simp only [stepsLeft]; omega)
    | true =>
      exact .goesOn (.dnsCheck dnsWaitTime) rfl rfl (fun d hd => Or.inr ⟨d, hd, Nat.le_refl d⟩)
        (by simp only [stepsLeft]; omega)
  | dnsCheck dnsWaitTime =>
    by_cases hdone : res = true ∨ dnsTimeoutSec ≤ dnsWaitTime
    · simp only [uploadThreadStep, if_pos hdone]
      exact .goesOn .finalTest rfl rfl (by rintro d ⟨⟩) (by simp only [stepsLeft]; omega)
    · simp only [uploadThreadStep, if_neg hdone]
      have hslept := sleepsLeft_slept (not_or.mp hdone).2
      exact .goesOn (.dnsSleep dnsWaitTime _) rfl rfl (fun d hd => Or.inr ⟨d, hd, Nat.le_refl d⟩)
        (by simp only [stepsLeft]; omega)
  | dnsSleep dnsWaitTime wake =>
    by_cases hnow : now < wake
    · simp only [uploadThreadStep, if_pos hnow]
      exact .asleep hnow
    · simp only [uploadThreadStep, if_neg hnow]
      refine .goesOn (.dnsTest (dnsWaitTime + dnsCheckIntervalSec)) rfl rfl (fun d hd => ?_)
        (by simp only [stepsLeft]; omega)
      cases hd
      exact Or.inr ⟨dnsWaitTime, rfl, Nat.le_add_right _ _⟩
  | finalTest =>
    cases wifi with
    | false => exact .aborts rfl rfl
    | true => exact .starts rfl rfl
  | onConnect pc =>
    cases pc with
    | coredumpTest =>
      cases res with
      | false => exact .uploads (.onConnect .logRestore) rfl (Or.inr rfl) (show 98 < 99 by decide)
      | true => exact .uploads .semTake rfl (Or.inl rfl) (show 95 < 99 by decide)
    | logRestore => exact .uploads (.onConnect .cdrRestore) rfl (Or.inr rfl) (show 97 < 98 by decide)
    | cdrRestore => exact .uploads (.onConnect .upload) rfl (Or.inr rfl) (show 96 < 97 by decide)
    | upload => exact .uploads .semTake rfl (Or.inl rfl) (show 95 < 96 by decide)

/-! ### The invariant -/

/-- The listener is processing a connect. -/
def connects : WifiListenerPc → Bool
  | .setEverConnected | .clearScheduled | .cancelWork | .giveSem => true
  | .idle | .scheduleFreeze => false

/-- What an awaiting connect can rely on. -/
structure ConnectInv (s : ConnectSystem) : Prop where
  connected : s.awaiting = true ∨ connects s.wifi = true → s.core.wifiConnected = true
  token : s.awaiting = true → s.core.uploadSem = 1 ∨ inWindow s.core.upload = true
  sem_le : s.core.uploadSem ≤ 1
  waited : ∀ d ∈ dnsWaited s.core.upload, 2 ≤ d

theorem connectInv_boot (now : ℕ) : ConnectInv (ConnectSystem.boot now) := by
  refine ⟨?_, nofun, Nat.zero_le _, nofun⟩
  rintro (h | h)
  · cases h
  · cases h

variable {c : Core} {s : ConnectSystem}

theorem startsOnConnect_iff :
    s.startsOnConnect = true ↔ s.core.upload = .finalTest ∧ s.core.wifiConnected = true :=
  decide_eq_true_iff

/-- No step of the thread writes the flag. -/
theorem uploadThread_wifi (c : Core) (res : Bool) :
    (uploadThreadStep c res).wifiConnected = c.wifiConnected := by
  obtain ⟨sem, pc, h⟩ := uploadThreadStep_writes c res
  rw [h]

variable {c' : Core}

/-- Before the final check the thread keeps the token or the window. -/
theorem token_of_moves (hmove : UploadMoves c c') (hfinal : c.upload ≠ .finalTest)
    (h : c.uploadSem = 1 ∨ inWindow c.upload = true) :
    c'.uploadSem = 1 ∨ inWindow c'.upload = true := by
  cases hmove with
  | blocked hpc hsem => exact h
  | asleep hsleep => exact h
  | takes wake hpc hsem => exact Or.inr rfl
  | goesOn pc hpc hpc' hwaited hleft => exact Or.inr hpc'
  | starts hpc hwifi => exact absurd hpc hfinal
  | aborts hpc hwifi => exact absurd hpc hfinal
  | uploads pc hpc hpc' hleft =>
    refine h.imp_right fun hwindow => ?_
    cases hup : c.upload with
    | onConnect p =>
      rw [hup] at hwindow
      cases hwindow
    | _ =>
      rw [hup] at hpc
      cases hpc

theorem sem_le_of_moves (hmove : UploadMoves c c') (h : c.uploadSem ≤ 1) : c'.uploadSem ≤ 1 := by
  cases hmove with
  | takes wake hpc hsem => exact Nat.le_trans (Nat.sub_le _ 1) h
  | _ => exact h

theorem waited_of_moves (hmove : UploadMoves c c') (h : ∀ d ∈ dnsWaited c.upload, 2 ≤ d) :
    ∀ d ∈ dnsWaited c'.upload, 2 ≤ d := by
  cases hmove with
  | blocked hpc hsem => exact h
  | asleep hsleep => exact h
  | takes wake hpc hsem => exact nofun
  | goesOn pc hpc hpc' hwaited hleft =>
    intro d hd
    rcases hwaited d hd with rfl | ⟨d', hd', hle⟩
    · exact Nat.le_refl 2
    · exact Nat.le_trans (h d' hd') hle
  | starts hpc hwifi => exact nofun
  | aborts hpc hwifi => exact nofun
  | uploads pc hpc hpc' hleft =>
    cases pc with
    | semTake => exact nofun
    | onConnect p => exact nofun
    | _ => simp [inOnConnect] at hpc'

theorem connectInv_thread (h : ConnectInv s) (res : Bool) :
    ConnectInv (stepConnect s (.uploadThread res)) := by
  have hmove := uploadThreadStep_moves s.core res
  refine ⟨?_, ?_, sem_le_of_moves hmove h.sem_le, waited_of_moves hmove h.waited⟩
  · intro hawait
    show (uploadThreadStep s.core res).wifiConnected = true
    rw [uploadThread_wifi]
    refine h.connected (hawait.imp_left fun ha => ?_)
    exact (Bool.and_eq_true_iff.mp ha).1
  · intro hawait
    obtain ⟨ha, hstarts⟩ := Bool.and_eq_true_iff.mp hawait
    refine token_of_moves hmove (fun hfinal => ?_) (h.token ha)
    have hstart := startsOnConnect_iff.mpr ⟨hfinal, h.connected (Or.inl ha)⟩
    rw [hstart] at hstarts
    cases hstarts

theorem connectInv_wifiMsg (h : ConnectInv s) (type : WifiMsgType) :
    ConnectInv (stepConnect s (.wifiMsg type)) := by
  simp only [stepConnect]
  split
  · cases type with
    | wifiStaConnected =>
      refine ⟨fun _ => rfl, fun hawait => ?_, h.sem_le, h.waited⟩
      exact h.token (Bool.and_eq_true_iff.mp hawait).1
    | wifiStaDisconnected =>
      refine ⟨?_, fun hawait => ?_, h.sem_le, h.waited⟩
      · rintro (hawait | hconnects)
        · exact absurd (Bool.and_eq_true_iff.mp hawait).2 (by decide)
        · cases hconnects
      · exact absurd (Bool.and_eq_true_iff.mp hawait).2 (by decide)
    | other =>
      refine ⟨?_, fun hawait => ?_, h.sem_le, h.waited⟩
      · rintro (hawait | hconnects)
        · exact h.connected (Or.inl (Bool.and_eq_true_iff.mp hawait).1)
        · cases hconnects
      · exact h.token (Bool.and_eq_true_iff.mp hawait).1
  · exact h

theorem connectInv_wifiListener (h : ConnectInv s) : ConnectInv (stepConnect s .wifiListener) := by
  obtain ⟨core, wifi, button, awaiting, n⟩ := s
  have hkeep : ∀ {core' : Core} {wifi' : WifiListenerPc}, core'.wifiConnected = core.wifiConnected →
      core'.uploadSem = core.uploadSem → core'.upload = core.upload →
      (connects wifi' = true → connects wifi = true) →
      ConnectInv ⟨core', wifi', button, awaiting || false, n⟩ := by
    intro core' wifi' hwifi hsem hup hconnects
    refine ⟨fun hawait => ?_, fun hawait => ?_, ?_, ?_⟩
    · show core'.wifiConnected = true
      rw [hwifi]
      exact h.connected (hawait.imp (fun ha => (Bool.or_false _).symm.trans ha) hconnects)
    · show core'.uploadSem = 1 ∨ inWindow core'.upload = true
      rw [hsem, hup]
      exact h.token ((Bool.or_false _).symm.trans hawait)
    · show core'.uploadSem ≤ 1
      rw [hsem]
      exact h.sem_le
    · show ∀ d ∈ dnsWaited core'.upload, 2 ≤ d
      rw [hup]
      exact h.waited
  cases wifi with
  | idle => exact hkeep rfl rfl rfl id
  | setEverConnected => exact hkeep rfl rfl rfl id
  | clearScheduled => exact hkeep rfl rfl rfl id
  | cancelWork => exact hkeep rfl rfl rfl id
  | giveSem => exact ⟨fun _ => h.connected (Or.inr rfl), fun _ => Or.inl rfl, Nat.le_refl 1, h.waited⟩
  | scheduleFreeze =>
    obtain ⟨scheduled, work, hcore⟩ := scheduleLogFreeze_writes core
    refine hkeep ?_ ?_ ?_ nofun
    · show core.scheduleLogFreeze.wifiConnected = _
      rw [hcore]
    · show core.scheduleLogFreeze.uploadSem = _
      rw [hcore]
    · show core.scheduleLogFreeze.upload = _
      rw [hcore]

/-- An event that changes neither the flag nor the token nor the place of the thread. -/
theorem connectInv_core (h : ConnectInv s) {core : Core} (button : ButtonListenerPc)
    (hwifi : core.wifiConnected = s.core.wifiConnected)
    (hsem : core.uploadSem = s.core.uploadSem ∨ core.uploadSem = 1)
    (hup : core.upload = s.core.upload) : ConnectInv { s with core := core, button := button } := by
  refine ⟨fun hawait => ?_, fun hawait => ?_, ?_, ?_⟩
  · show core.wifiConnected = true
    rw [hwifi]
    exact h.connected hawait
  · show core.uploadSem = 1 ∨ inWindow core.upload = true
    rcases hsem with hsem | hsem
    · rw [hsem, hup]
      exact h.token hawait
    · exact Or.inl hsem
  · show core.uploadSem ≤ 1
    rcases hsem with hsem | hsem
    · rw [hsem]
      exact h.sem_le
    · exact Nat.le_of_eq hsem
  · show ∀ d ∈ dnsWaited core.upload, 2 ≤ d
    rw [hup]
    exact h.waited

theorem connectInv_step (s : ConnectSystem) (e : ConnectEvent) (h : ConnectInv s) :
    ConnectInv (stepConnect s e) := by
  cases e with
  | elapse ms => exact connectInv_core h s.button rfl (Or.inl rfl) rfl
  | uploadThread res => exact connectInv_thread h res
  | wifiMsg type => exact connectInv_wifiMsg h type
  | wifiListener => exact connectInv_wifiListener h
  | buttonMsg buttonNumber type =>
    simp only [stepConnect]
    split
    · exact connectInv_core h _ rfl (Or.inl rfl) rfl
    · exact h
  | buttonListener =>
    refine connectInv_core h .idle ?_ ?_ ?_
    · cases s.button <;> rfl
    · cases s.button with
      | idle => exact Or.inl rfl
      | giveSem => exact Or.inr rfl
    · cases s.button <;> rfl
  | networkMsg type =>
    obtain ⟨scheduled, work, hcore⟩ := scheduleLogFreeze_writes s.core
    cases type with
    | networkReady => exact h
    | networkNotReady =>
      have hlistener : memfaultNetworkListener s.core .networkNotReady = s.core.scheduleLogFreeze := rfl
      exact connectInv_core h s.button (by rw [hlistener, hcore]) (Or.inl (by rw [hlistener, hcore]))
        (by rw [hlistener, hcore])
  | logFreezeWork =>
    obtain ⟨scheduled, work, hcore⟩ := logFreezeWorkFn_writes s.core
    exact connectInv_core h s.button (by rw [hcore]) (Or.inl (by rw [hcore])) (by rw [hcore])

theorem connectInv_run (now : ℕ) (es : List ConnectEvent) :
    ConnectInv (Runs.run stepConnect (ConnectSystem.boot now) es) :=
  Runs.run_invariant_always connectInv_step es _ (connectInv_boot now)

/-! ### The thread gets there -/

/-- A disconnect message begins to be processed, or would if the channel were free. -/
def disconnects : ConnectEvent → Bool
  | .wifiMsg type => type = .wifiStaDisconnected
  | _ => false

def isThread : ConnectEvent → Bool
  | .uploadThread _ => true
  | _ => false

/-- The steps the thread takes in a run, those it sleeps through apart. -/
def awakeSteps : ConnectSystem → List ConnectEvent → ℕ
  | _, [] => 0
  | s, e :: es =>
    (if isThread e = true ∧ ¬ Asleep s.core then 1 else 0) + awakeSteps (stepConnect s e) es

theorem stepsLeft_le (h : ConnectInv s) : stepsLeft s.core.upload ≤ 99 := by
  have hwaits := h.waited
  have hsleeps : ∀ d, 2 ≤ d → sleepsLeft d ≤ 30 := by
    intro d hd
    have htimeout : dnsTimeoutSec = 300 := rfl
    have hinterval : dnsCheckIntervalSec = 10 := rfl
    simp only [sleepsLeft, htimeout, hinterval]
    omega
  cases hup : s.core.upload with
  | semTake => simp only [stepsLeft]; omega
  | initialSleep wake => simp only [stepsLeft]; omega
  | dnsTest d =>
    rw [hup] at hwaits
    have hd := hsleeps d (hwaits d rfl)
    simp only [stepsLeft]
    omega
  | dnsCheck d =>
    rw [hup] at hwaits
    have hd := hsleeps d (hwaits d rfl)
    simp only [stepsLeft]
    omega
  | dnsSleep d wake =>
    have hd := hsleeps (d + dnsCheckIntervalSec) (Nat.le_trans (by decide) (Nat.le_add_left _ d))
    simp only [stepsLeft]
    omega
  | finalTest => simp only [stepsLeft]; omega
  | onConnect pc => cases pc <;> simp only [stepsLeft] <;> omega

theorem stepsLeft_pos (pc : UploadPc) : 0 < stepsLeft pc := by
  cases pc with
  | onConnect pc => cases pc <;> simp only [stepsLeft] <;> omega
  | _ => simp only [stepsLeft]; omega

/-- With a token or in the window, a step of the thread is the final check, or brings it nearer, or sleeps
on. -/
theorem stepsLeft_of_moves (hmove : UploadMoves c c') (hfinal : c.upload ≠ .finalTest)
    (h : c.uploadSem = 1 ∨ inWindow c.upload = true) :
    stepsLeft c'.upload < stepsLeft c.upload ∨ (Asleep c ∧ c' = c) := by
  cases hmove with
  | blocked hpc hsem =>
    rw [hpc, hsem] at h
    rcases h with h | h
    · cases h
    · cases h
  | asleep hsleep => exact Or.inr ⟨hsleep, rfl⟩
  | takes wake hpc hsem =>
    rw [hpc]
    exact Or.inl (show 94 < 95 by decide)
  | goesOn pc hpc hpc' hwaited hleft => exact Or.inl hleft
  | starts hpc hwifi => exact absurd hpc hfinal
  | aborts hpc hwifi => exact absurd hpc hfinal
  | uploads pc hpc hpc' hleft => exact Or.inl hleft

/-- What one event does to an awaiting connect: its `on_connect` starts, or it still awaits and the thread is
no farther from it, and nearer after a step of its own. -/
structure Nearer (s : ConnectSystem) (e : ConnectEvent) : Prop where
  awaits : (stepConnect s e).awaiting = true
  same : (stepConnect s e).onConnects = s.onConnects
  left : stepsLeft (stepConnect s e).core.upload
      + (if isThread e = true ∧ ¬ Asleep s.core then 1 else 0) ≤ stepsLeft s.core.upload

theorem nearer_thread (h : ConnectInv s) (hawait : s.awaiting = true) (res : Bool) :
    s.onConnects < (stepConnect s (.uploadThread res)).onConnects ∨ Nearer s (.uploadThread res) := by
  have htoken := h.token hawait
  by_cases hstarts : s.startsOnConnect = true
  · apply Or.inl
    show s.onConnects < if s.startsOnConnect then s.onConnects + 1 else s.onConnects
    rw [if_pos hstarts]
    exact Nat.lt_succ_self _
  · apply Or.inr
    have hfinal : s.core.upload ≠ .finalTest :=
      fun hpc => hstarts (startsOnConnect_iff.mpr ⟨hpc, h.connected (Or.inl hawait)⟩)
    refine ⟨?_, if_neg hstarts, ?_⟩
    · show (s.awaiting && !s.startsOnConnect) = true
      rw [hawait, Bool.eq_false_iff.mpr hstarts]
      rfl
    · show stepsLeft (uploadThreadStep s.core res).upload + _ ≤ _
      rcases stepsLeft_of_moves (uploadThreadStep_moves s.core res) hfinal htoken with
        hless | ⟨hsleep, hstays⟩
      · split
        · omega
        · omega
      · rw [hstays, if_neg fun hawake => hawake.2 hsleep]
        exact Nat.le_refl _

/-- An event that is no step of the thread and no disconnect. -/
theorem nearer_other {e : ConnectEvent} (hthread : isThread e = false)
    (hawait : (stepConnect s e).awaiting = true) (hsame : (stepConnect s e).onConnects = s.onConnects)
    (hup : (stepConnect s e).core.upload = s.core.upload) : Nearer s e := by
  refine ⟨hawait, hsame, ?_⟩
  rw [hup, hthread, if_neg fun h => Bool.false_ne_true h.1]
  exact Nat.le_refl _

theorem nearer_step (h : ConnectInv s) (hawait : s.awaiting = true) (e : ConnectEvent)
    (hlink : disconnects e = false) :
    s.onConnects < (stepConnect s e).onConnects ∨ Nearer s e := by
  cases e with
  | uploadThread res => exact nearer_thread h hawait res
  | elapse ms => exact Or.inr (nearer_other rfl hawait rfl rfl)
  | wifiMsg type =>
    have htype : type ≠ .wifiStaDisconnected := of_decide_eq_false hlink
    refine Or.inr (nearer_other rfl ?_ ?_ ?_)
    · simp only [stepConnect]
      split
      · simp [hawait, htype]
      · exact hawait
    · simp only [stepConnect]
      split
      · rfl
      · rfl
    · simp only [stepConnect]
      split
      · cases type <;> rfl
      · rfl
  | wifiListener =>
    refine Or.inr (nearer_other rfl ?_ rfl ?_)
    · simp [stepConnect, hawait]
    · show (wifiListenerNext s.core s.wifi).1.upload = s.core.upload
      cases s.wifi with
      | scheduleFreeze =>
        obtain ⟨scheduled, work, hcore⟩ := scheduleLogFreeze_writes s.core
        show s.core.scheduleLogFreeze.upload = s.core.upload
        rw [hcore]
      | _ => rfl
  | buttonMsg buttonNumber type =>
    refine Or.inr (nearer_other rfl ?_ ?_ ?_)
    · simp only [stepConnect]
      split
      · exact hawait
      · exact hawait
    · simp only [stepConnect]
      split
      · rfl
      · rfl
    · simp only [stepConnect]
      split
      · rfl
      · rfl
  | buttonListener =>
    refine Or.inr (nearer_other rfl hawait rfl ?_)
    show (buttonListenerNext s.core s.button).upload = s.core.upload
    cases s.button <;> rfl
  | networkMsg type =>
    obtain ⟨scheduled, work, hcore⟩ := scheduleLogFreeze_writes s.core
    refine Or.inr (nearer_other rfl hawait rfl ?_)
    cases type with
    | networkReady => rfl
    | networkNotReady =>
      show s.core.scheduleLogFreeze.upload = s.core.upload
      rw [hcore]
  | logFreezeWork =>
    obtain ⟨scheduled, work, hcore⟩ := logFreezeWorkFn_writes s.core
    refine Or.inr (nearer_other rfl hawait rfl ?_)
    show (logFreezeWorkFn s.core).upload = s.core.upload
    rw [hcore]

/-- The count of `on_connect` calls only grows. -/
theorem onConnects_step (s : ConnectSystem) (e : ConnectEvent) :
    s.onConnects ≤ (stepConnect s e).onConnects := by
  cases e with
  | uploadThread res =>
    show s.onConnects ≤ if s.startsOnConnect then s.onConnects + 1 else s.onConnects
    split
    · exact Nat.le_succ _
    · exact Nat.le_refl _
  | wifiMsg type =>
    simp only [stepConnect]
    split
    · exact Nat.le_refl _
    · exact Nat.le_refl _
  | buttonMsg buttonNumber type =>
    simp only [stepConnect]
    split
    · exact Nat.le_refl _
    · exact Nat.le_refl _
  | _ => exact Nat.le_refl _

theorem onConnects_run (n : ℕ) (s : ConnectSystem) (es : List ConnectEvent) (h : n ≤ s.onConnects) :
    n ≤ (Runs.run stepConnect s es).onConnects := by
  have hstep : ∀ s e, n ≤ s.onConnects → n ≤ (stepConnect s e).onConnects :=
    fun s e hn => Nat.le_trans hn (onConnects_step s e)
  exact Runs.run_invariant_always hstep es s h

theorem onConnect_comes (fs : List ConnectEvent) (s : ConnectSystem) (h : ConnectInv s)
    (hawait : s.awaiting = true) (hlink : ∀ e ∈ fs, disconnects e = false)
    (hsteps : stepsLeft s.core.upload ≤ awakeSteps s fs) :
    s.onConnects < (Runs.run stepConnect s fs).onConnects := by
  induction fs generalizing s with
  | nil => exact absurd (stepsLeft_pos s.core.upload) (Nat.not_lt.mpr hsteps)
  | cons e fs ih =>
    rw [Runs.run_cons]
    rcases nearer_step h hawait e (hlink e List.mem_cons_self) with hmore | hnear
    · exact onConnects_run _ _ fs hmore
    · have hleft := hnear.left
      have hsum : awakeSteps s (e :: fs) = (if isThread e = true ∧ ¬ Asleep s.core then 1 else 0)
          + awakeSteps (stepConnect s e) fs := rfl
      have hnext := ih (stepConnect s e) (connectInv_step s e h) hnear.awaits
        (fun e he => hlink e (List.mem_cons_of_mem _ he)) (by omega)
      rw [hnear.same] at hnext
      exact hnext

/-- **No connect is lost.**  In every reachable state in which a connect awaits its upload, there is a token
or the thread is between its take and its final check, and this check starts `on_connect`; and once the
thread has taken 99 more steps, sleeping apart, `on_connect` has started, unless a disconnect has come. -/
theorem no_lost_connect (now : ℕ) (es : List ConnectEvent) :
    let s := Runs.run stepConnect (ConnectSystem.boot now) es
    s.awaiting = true →
      (s.core.uploadSem = 1 ∨ inWindow s.core.upload = true) ∧
      (s.core.upload = .finalTest → ∀ res,
        (uploadThreadStep s.core res).upload = .onConnect .coredumpTest) ∧
      ∀ fs, (∀ e ∈ fs, disconnects e = false) → 99 ≤ awakeSteps s fs →
        s.onConnects < (Runs.run stepConnect s fs).onConnects := by
  intro s hawait
  have h : ConnectInv s := connectInv_run now es
  refine ⟨h.token hawait, fun hfinal res => ?_, fun fs hlink hsteps => ?_⟩
  · simp only [uploadThreadStep, hfinal, h.connected (Or.inl hawait), if_true]
  · exact onConnect_comes fs s h hawait hlink (Nat.le_trans (stepsLeft_le h) hsteps)

/-- A connect, processed to its end. -/
def connectMsg : List ConnectEvent := .wifiMsg .wifiStaConnected :: List.replicate 4 .wifiListener

/-- The thread takes the token, sleeps and goes on. -/
def uploadSteps : List ConnectEvent :=
  .uploadThread true :: .elapse 2000 :: List.replicate 98 (.uploadThread true)

theorem no_lost_connect_first :
    (Runs.run stepConnect (ConnectSystem.boot 0) connectMsg).onConnects <
      (Runs.run stepConnect (Runs.run stepConnect (ConnectSystem.boot 0) connectMsg)
        uploadSteps).onConnects :=
  (no_lost_connect 0 connectMsg (by decide)).2.2 uploadSteps (by decide) (by decide +kernel)

end WifiMemfault.UploadConnect
