import WifiMemfault.LogStateSpec
import WifiMemfault.MemfaultCore
import WifiMemfault.MemfaultLog

/-!
# The log path of the device

The connectivity state machine, the log-state partition and the live ring buffer together.  When the
delayed work starts, `memfaultLogStatePersistNow` runs on the partition and the live bytes; when
`on_connect` reaches it, `memfaultLogStateRestoreOnConnect` does.  Lines are saved and uploads read
lines at any time between these steps, and the device may reboot.

Beside the state of the device, `LogSystem` keeps what the statements about it need: which lines uploads
have read in this session, and where the blob in the partition comes from.
-/

namespace WifiMemfault.LogPath

open EffectProgram NorFlash LogStateRestore LogStateImage LogStateSpec MemfaultCore MemfaultLog

/-- Where a blob comes from: what it holds, and what had been saved and read when it was written. -/
@[ext] structure BlobOrigin where
  snapshot : LogSnapshot
  nextLine : ℕ
  sent : List ℕ
  deriving DecidableEq

structure LogSystem where
  core : Core
  flash : List UInt8
  live : LogSnapshot
  /-- The number of the next line to be saved. -/
  nextLine : ℕ
  /-- The lines uploads have read in this session. -/
  sent : List ℕ
  /-- The persist that wrote the blob the partition holds, if it holds one. -/
  blob : Option BlobOrigin

inductive LogSystemEvent where
  | core (e : CoreEvent) (os : ℕ → Outcome)
  | saveLine
  | markRead (k : ℕ)
  | reboot (live : LogSnapshot) (h : live.WellSized)

/-- The bytes of the two live objects. -/
def ramSnapshot (w : LogWorld) : LogSnapshot := ⟨w.bytes .context, w.bytes .storage⟩

theorem ramSnapshot_of_ram (w : LogWorld) (s : LogSnapshot) (h : w.ram = liveRam s) :
    ramSnapshot w = s := by
  rw [ramSnapshot, World.bytes, World.bytes, h]
  rfl

variable (sdk : LogSdk) (F : FaultModel)

/-- Saving line `n`, on the live objects. -/
def saveMarker (n : ℕ) (ram : LogObj → Option (List UInt8)) : LogObj → Option (List UInt8) :=
  liveRam (sdk.save n ⟨(ram .context).getD [], (ram .storage).getD []⟩)

namespace LogSystem

variable (s : LogSystem) (os : ℕ → Outcome)

/-- The device of the log path. -/
def device : Device (flashSig LogObj Unit LogCall) Outcome LogWorld :=
  flashDevice F (logOutside (saveMarker sdk s.nextLine))

def persistRun : Option ℤ × LogWorld :=
  (s.device sdk F).exec memfaultLogStatePersistNow os (liveWorld s.flash s.live)

def restoreRun : Option ℤ × LogWorld :=
  (s.device sdk F).exec memfaultLogStateRestoreOnConnect os (liveWorld s.flash s.live)

/-- The restore up to its marker line. -/
def restoreCopy : Option ℤ × LogWorld :=
  (s.device sdk F).exec restoreFromPartition os (liveWorld s.flash s.live)

/-- The partition starts with the blob of `t`. -/
def holdsBlob (flash : List UInt8) (t : LogSnapshot) : Bool :=
  flash.take (blobImage t).length = blobImage t

/-- The partition after the handler's persist, and where its blob now comes from. -/
def persist : LogSystem :=
  let flash := (s.persistRun sdk F os).2.flash
  { s with
    flash := flash
    blob := if holdsBlob flash s.live then some ⟨s.live, s.nextLine, s.sent⟩ else s.blob }

/-- The partition and the live ring buffer after the restore of `on_connect`.  The marker line takes a
number whether it is saved or not. -/
def restore : LogSystem :=
  let w := (s.restoreRun sdk F os).2
  { s with flash := w.flash, live := ramSnapshot w, nextLine := s.nextLine + 1 }

end LogSystem

def stepLogSystem (s : LogSystem) : LogSystemEvent → LogSystem
  | .core e os =>
    let core := coreStep s.core e
    if persistStarts s.core e then { s.persist sdk F os with core := core }
    else if restoreStarts s.core e then { s.restore sdk F os with core := core }
    else { s with core := core }
  | .saveLine => { s with live := sdk.save s.nextLine s.live, nextLine := s.nextLine + 1 }
  | .markRead k =>
    { s with
      live := sdk.markRead k s.live
      sent := (sdk.ring s.live).unsent.take k ++ s.sent }
  | .reboot live _ => { s with core := Core.boot s.core.now, live := live, sent := [] }

/-- The persist of the handler runs in this step. -/
def PersistStep (s : LogSystem) : LogSystemEvent → Prop
  | .core e _ => persistStarts s.core e = true
  | _ => False

/-- The restore of `on_connect` runs in this step. -/
def RestoreStep (s : LogSystem) : LogSystemEvent → Prop
  | .core e _ => restoreStarts s.core e = true
  | _ => False

instance (s : LogSystem) (e : LogSystemEvent) : Decidable (PersistStep s e) :=
  match e with
  | .core _ _ => inferInstanceAs (Decidable (_ = true))
  | .saveLine | .markRead _ | .reboot _ _ => inferInstanceAs (Decidable False)

instance (s : LogSystem) (e : LogSystemEvent) : Decidable (RestoreStep s e) :=
  match e with
  | .core _ _ => inferInstanceAs (Decidable (_ = true))
  | .saveLine | .markRead _ | .reboot _ _ => inferInstanceAs (Decidable False)

/-- No step is both: the handler is no step of the upload thread. -/
theorem persistStarts_false_of_restore {c : Core} {e : CoreEvent} (h : restoreStarts c e = true) :
    persistStarts c e = false := by
  have h' := of_decide_eq_true h
  refine decide_eq_false ?_
  rintro ⟨rfl, -⟩
  rcases h'.2 with h | h
  · cases h
  · cases h

section Steps

variable {sdk F} {s : LogSystem} {os : ℕ → Outcome} {e : CoreEvent}

theorem step_persist (h : persistStarts s.core e = true) :
    stepLogSystem sdk F s (.core e os) = { s.persist sdk F os with core := coreStep s.core e } :=
  if_pos h

theorem step_restore (h : restoreStarts s.core e = true) :
    stepLogSystem sdk F s (.core e os) = { s.restore sdk F os with core := coreStep s.core e } := by
  have hp := persistStarts_false_of_restore h
  show (if persistStarts s.core e = true then _ else _) = _
  rw [hp, if_neg Bool.false_ne_true]
  exact if_pos h

theorem step_core (hp : persistStarts s.core e = false) (hr : restoreStarts s.core e = false) :
    stepLogSystem sdk F s (.core e os) = { s with core := coreStep s.core e } := by
  show (if persistStarts s.core e = true then _ else _) = _
  rw [hp, if_neg Bool.false_ne_true]
  show (if restoreStarts s.core e = true then _ else _) = _
  rw [hr, if_neg Bool.false_ne_true]

/-- What one event can do to the partition, the live ring buffer and the records beside them. -/
theorem step_cases (sdk : LogSdk) (F : FaultModel) (s : LogSystem) (e : LogSystemEvent) :
    (∃ ce os, e = .core ce os ∧ persistStarts s.core ce = true ∧
      stepLogSystem sdk F s e = { s.persist sdk F os with core := coreStep s.core ce }) ∨
    (∃ ce os, e = .core ce os ∧ restoreStarts s.core ce = true ∧
      stepLogSystem sdk F s e = { s.restore sdk F os with core := coreStep s.core ce }) ∨
    (∃ ce os, e = .core ce os ∧ persistStarts s.core ce = false ∧
      restoreStarts s.core ce = false ∧
      stepLogSystem sdk F s e = { s with core := coreStep s.core ce }) ∨
    e = .saveLine ∨ (∃ k, e = .markRead k) ∨ (∃ live h, e = .reboot live h) := by
  cases e with
  | core ce os =>
    cases hp : persistStarts s.core ce with
    | true => exact Or.inl ⟨ce, os, rfl, hp, step_persist hp⟩
    | false =>
      right
      cases hr : restoreStarts s.core ce with
      | true => exact Or.inl ⟨ce, os, rfl, hr, step_restore hr⟩
      | false => exact Or.inr (Or.inl ⟨ce, os, rfl, hp, hr, step_core hp hr⟩)
  | saveLine => exact Or.inr (Or.inr (Or.inr (Or.inl rfl)))
  | markRead k => exact Or.inr (Or.inr (Or.inr (Or.inr (Or.inl ⟨k, rfl⟩))))
  | reboot live h => exact Or.inr (Or.inr (Or.inr (Or.inr (Or.inr ⟨live, h, rfl⟩))))

/-- The restore's copy, then the marker line if the copy succeeded. -/
theorem restoreRun_eq (sdk : LogSdk) (F : FaultModel) (s : LogSystem) (os : ℕ → Outcome)
    (hF : F.powerLoss = false) (o : Option LogSnapshot) (hread : F.mayFail .read = false)
    (hlive : s.live.WellSized) (hrep : Represents s.flash o) :
    ∃ r w, s.restoreCopy sdk F os = (some r, w) ∧
      RestorePost o s.live s.flash.length r w ∧
      s.restoreRun sdk F os =
        (some r, if r = 0 then { w with ram := saveMarker sdk s.nextLine w.ram } else w) := by
  have hcopy : ∃ r w, s.restoreCopy sdk F os = (some r, w) ∧
      RestorePost o s.live s.flash.length r w :=
    always_powered hF (restoreFromPartition_always o s.live hread hlive s.flash hrep) os
  obtain ⟨r, w, hexec, hpost⟩ := hcopy
  refine ⟨r, w, hexec, hpost, ?_⟩
  obtain ⟨os', hbind⟩ := Device.exec_bind (s.device sdk F) restoreFromPartition (fun err =>
    if err = 0 then
      .call (.outside .memfaultLogDataSourceReset) fun _ =>
        .call (.outside .restoreMarker) fun _ => .ret 0
    else .ret err) os (liveWorld s.flash s.live)
  rw [LogSystem.restoreRun, LogStateSteps.memfaultLogStateRestoreOnConnect_eq, hbind]
  have hexec' : (s.device sdk F).exec restoreFromPartition os (liveWorld s.flash s.live)
      = (some r, w) := hexec
  rw [hexec']
  by_cases hr : r = 0
  · simp only [hr, if_true]
    rfl
  · simp only [hr, if_false]
    rfl

end Steps

end WifiMemfault.LogPath
