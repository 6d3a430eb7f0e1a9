import WifiMemfault.Lib.Runs
import Mathlib.Data.List.Range
import Mathlib.Tactic.Common

/-!
# The OTA triggers

The model of `ota/app_memfault_ota_triggers.c`: the flags and the binary semaphore, any number of calls of
`mflt_ota_triggers_notify_button` and `mflt_ota_triggers_notify_connected`, and the thread that starts the
OTA checks.  Each atomic access to the flags or the semaphore is one event, and the calls and the thread
take their steps in any order.

Beside the state of the device, `OtaSystem` keeps which call a flag, a semaphore token or a check comes
from.
-/

namespace WifiMemfault.OtaTriggers

/-! ### Flags and contexts -/

def mfltOtaTriggersButtonFlag : UInt32 := 1
def mfltOtaTriggersConnectFlag : UInt32 := 2

/-- Which of the two functions was called. -/
inductive Trigger where
  | button | connect
  deriving DecidableEq, Repr

def Trigger.flag : Trigger → UInt32
  | .button => mfltOtaTriggersButtonFlag
  | .connect => mfltOtaTriggersConnectFlag

/-- The `context` of a check. -/
inductive TriggerContext where
  | manual | buttonConnect | button | connect | periodic
  deriving DecidableEq, Repr

/-- The text the log shows. -/
def TriggerContext.text : TriggerContext → String
  | .manual => "manual"
  | .buttonConnect => "button+connect"
  | .button => "button"
  | .connect => "connect"
  | .periodic => "periodic"

/-- The build has a button module, `CONFIG_ZEGO_BUTTON` or `CONFIG_DK_LIBRARY`. -/
structure OtaConfig where
  button : Bool

variable (cfg : OtaConfig)

/-- What `consume_trigger_context` returns for the flags it found. -/
def consumeTriggerContext (flags : UInt32) : TriggerContext :=
  if flags = 0 then .manual
  else if cfg.button = true ∧ flags &&& mfltOtaTriggersButtonFlag ≠ 0 ∧
      flags &&& mfltOtaTriggersConnectFlag ≠ 0 then .buttonConnect
  else if cfg.button = true ∧ flags &&& mfltOtaTriggersButtonFlag ≠ 0 then .button
  else if flags &&& mfltOtaTriggersConnectFlag ≠ 0 then .connect
  else .manual

/-- `connect_only`. -/
def connectOnly (flags : UInt32) : Bool :=
  flags &&& mfltOtaTriggersConnectFlag ≠ 0 ∧
    (cfg.button = true → flags &&& mfltOtaTriggersButtonFlag = 0)

/-! ### The state -/

/-- Where a call is after its `atomic_or`. -/
inductive NotifyPc where
  | semCountGet | semGive | returned
  deriving DecidableEq, Repr

/-- A call that has set its flag. -/
structure Notification where
  id : ℕ
  trigger : Trigger
  deriving DecidableEq, Repr

/-- Where the thread is.  From a successful take on it carries the call that gave the token; once it has
exchanged the flags, what it found. -/
inductive OtaPc where
  | semTake
  | flagsGet (token : ℕ)
  | connectSleep (token : ℕ)
  | consume (token : ℕ)
  | scheduleOtaCheck (token : Option ℕ) (context : TriggerContext) (served : List Notification)
  deriving DecidableEq, Repr

/-- A check that has been started.  A periodic check has taken no token. -/
structure OtaCheck where
  token : Option ℕ
  context : TriggerContext
  served : List Notification
  deriving DecidableEq, Repr

structure OtaSystem where
  flags : UInt32
  /-- The semaphore: the call that gave its token, or none. -/
  sem : Option ℕ
  pc : OtaPc
  /-- The calls in the order of their `atomic_or`. -/
  calls : List NotifyPc
  /-- The calls whose flag has not been exchanged yet, last one first. -/
  pending : List Notification
  /-- The checks, last one first. -/
  checks : List OtaCheck
  deriving DecidableEq, Repr

def OtaSystem.boot : OtaSystem := ⟨0, none, .semTake, [], [], []⟩

namespace OtaSystem

variable (s : OtaSystem)

/-- `k_sem_count_get`. -/
def semCount : ℕ := if s.sem.isSome then 1 else 0

/-- `k_sem_give` by call `id`: the limit is 1, so a token that is there stays. -/
def semGive (id : ℕ) : OtaSystem := { s with sem := s.sem <|> some id }

/-- A call starts: `atomic_or`. -/
def notify (trigger : Trigger) : OtaSystem :=
  { s with
    flags := s.flags ||| trigger.flag
    calls := s.calls ++ [.semCountGet]
    pending := ⟨s.calls.length, trigger⟩ :: s.pending }

/-- The next step of call `id`. -/
def notifyStep (id : ℕ) : OtaSystem :=
  match s.calls[id]? with
  | some .semCountGet =>
    { s with calls := s.calls.set id (if s.semCount = 0 then .semGive else .returned) }
  | some .semGive => { s.semGive id with calls := s.calls.set id .returned }
  | some .returned => s
  | none => s

/-- The next step of `mflt_ota_triggers_thread`.  In `k_sem_take` it waits for a token. -/
def threadStep : OtaSystem :=
  match s.pc with
  | .semTake =>
    match s.sem with
    | some token => { s with sem := none, pc := .flagsGet token }
    | none => s
  | .flagsGet token =>
    { s with pc := if connectOnly cfg s.flags then .connectSleep token else .consume token }
  | .connectSleep token => { s with pc := .consume token }
  | .consume token =>
    { s with
      flags := 0
      pending := []
      pc := .scheduleOtaCheck (some token) (consumeTriggerContext cfg s.flags) s.pending }
  | .scheduleOtaCheck token context served =>
    { s with checks := ⟨token, context, served⟩ :: s.checks, pc := .semTake }

/-- `k_sem_take` returns `-EAGAIN`: it has waited for the whole interval and there is no token. -/
def timeout : OtaSystem :=
  if s.pc = .semTake ∧ s.sem = none then { s with pc := .scheduleOtaCheck none .periodic [] } else s

end OtaSystem

inductive OtaEvent where
  | notifyButton
  | notifyConnected
  | notifyStep (id : ℕ)
  | thread
  | timeout
  deriving DecidableEq, Repr

/-- One event.  A build without a button module has no `mflt_ota_triggers_notify_button`. -/
def stepOta (s : OtaSystem) : OtaEvent → OtaSystem
  | .notifyButton => if cfg.button then s.notify .button else s
  | .notifyConnected => s.notify .connect
  | .notifyStep id => s.notifyStep id
  | .thread => s.threadStep cfg
  | .timeout => s.timeout

/-! ### What the steps can do -/

variable {cfg} {s : OtaSystem}

/-- What one event can do, with everything it leaves alone. -/
theorem step_cases (cfg : OtaConfig) (s : OtaSystem) (e : OtaEvent) :
    stepOta cfg s e = s ∨
    (∃ t, (cfg.button = true ∨ t = .connect) ∧ stepOta cfg s e = s.notify t) ∨
    (∃ id, e = .notifyStep id ∧ s.calls[id]? = some .semCountGet ∧ s.sem = none ∧
      stepOta cfg s e = { s with calls := s.calls.set id .semGive }) ∨
    (∃ id, e = .notifyStep id ∧ s.calls[id]? = some .semCountGet ∧ s.sem ≠ none ∧
      stepOta cfg s e = { s with calls := s.calls.set id .returned }) ∨
    (∃ id, e = .notifyStep id ∧ s.calls[id]? = some .semGive ∧
      stepOta cfg s e =
        { s with sem := s.sem <|> some id, calls := s.calls.set id .returned }) ∨
    (e = .thread ∧ stepOta cfg s e = s.threadStep cfg) ∨
    (e = .timeout ∧ s.pc = .semTake ∧ s.sem = none ∧
      stepOta cfg s e = { s with pc := .scheduleOtaCheck none .periodic [] }) := by
  cases e with
  | notifyButton =>
    by_cases hb : cfg.button = true
    · exact Or.inr (Or.inl ⟨.button, Or.inl hb, if_pos hb⟩)
    · exact Or.inl (if_neg hb)
  | notifyConnected => exact Or.inr (Or.inl ⟨.connect, Or.inr rfl, rfl⟩)
  | notifyStep id =>
    cases hcall : s.calls[id]? with
    | none =>
      left
      simp only [stepOta, OtaSystem.notifyStep, hcall]
    | some pc =>
      cases pc with
      | returned =>
        left
        simp only [stepOta, OtaSystem.notifyStep, hcall]
      | semGive =>
        refine Or.inr (Or.inr (Or.inr (Or.inr (Or.inl ⟨id, rfl, hcall, ?_⟩))))
        simp only [stepOta, OtaSystem.notifyStep, OtaSystem.semGive, hcall]
      | semCountGet =>
        cases hsem : s.sem with
        | none =>
          refine Or.inr (Or.inr (Or.inl ⟨id, rfl, hcall, rfl, ?_⟩))
          simp [stepOta, OtaSystem.notifyStep, hcall, OtaSystem.semCount, hsem]
        | some token =>
          refine Or.inr (Or.inr (Or.inr (Or.inl ⟨id, rfl, hcall, Option.some_ne_none _, ?_⟩)))
          simp [stepOta, OtaSystem.notifyStep, hcall, OtaSystem.semCount, hsem]
  | thread => exact Or.inr (Or.inr (Or.inr (Or.inr (Or.inr (Or.inl ⟨rfl, rfl⟩)))))
  | timeout =>
    by_cases h : s.pc = .semTake ∧ s.sem = none
    · exact Or.inr (Or.inr (Or.inr (Or.inr (Or.inr (Or.inr ⟨rfl, h.1, h.2, if_pos h⟩)))))
    · exact Or.inl (if_neg h)

end WifiMemfault.OtaTriggers
