import WifiMemfault.CdrPath

/-!
# A failing call and the pending CDR

A CDR is pending while `has_cdr_cb` returns true.  A collection and a persist clear the ready flag and the
size before they ask the driver, so a driver that delivers nothing costs the pending CDR; once the driver
has delivered, the fresh snapshot stays ready however the flash calls end.  A restore reads straight over
the buffer and leaves the flag and the size alone when that read fails, so the bytes it got through are then
announced as part of the pending CDR.
-/

namespace WifiMemfault.CdrFailure

open EffectProgram ByteList NorFlash FwStatsCdr FwStatsImage FwStatsSpec CdrPath

inductive CdrOperation where
  | collect (driver : DriverStats)
  | persistToFlash (driver : DriverStats)
  | restoreFromFlash

namespace CdrOperation

def prog : CdrOperation → CdrProg ℤ
  | .collect driver => mfltNrf70FwStatsCdrCollect driver
  | .persistToFlash driver => mfltNrf70FwStatsCdrPersistToFlash driver
  | .restoreFromFlash => mfltNrf70FwStatsCdrRestoreFromFlash

/-- What the driver answers to the call. -/
def driver : CdrOperation → Option DriverStats
  | .collect driver | .persistToFlash driver => some driver
  | .restoreFromFlash => none

end CdrOperation

/-- What `has_cdr_cb` returns. -/
def hasCdr (w : CdrWorld) : Bool := (cdrDevice.exec hasCdrCb noFlashCalls w).1.join.isSome

/-- A CDR waits to be read. -/
def Pending (s : CdrStatics) : Prop := s.dataReady = true ∧ s.blobSize ≠ 0

instance (s : CdrStatics) : Decidable (Pending s) := inferInstanceAs (Decidable (_ ∧ _))

theorem hasCdr_iff (w : CdrWorld) : hasCdr w = true ↔ Pending w.statics := by
  rw [hasCdr, hasCdrCb_exec, Pending]
  cases hready : w.statics.dataReady with
  | false => simp
  | true =>
    by_cases hsize : w.statics.blobSize = 0
    · simp [hsize]
    · simp [hsize]

/-- The bytes a reader of the CDR gets. -/
def available (w : CdrWorld) : List UInt8 := (w.bytes .fwStatsBlob).take w.statics.blobSize

/-- If the call fails where `has_cdr_cb` returned true, it still does, and the bytes are the same or one
complete snapshot of the driver's answer. -/
def PendingSurvives (op : CdrOperation) (m : CdrModule) (flash : List UInt8) (os : ℕ → Outcome) :
    Prop :=
  ∀ err w, cdrDevice.exec op.prog os (m.world flash) = (some err, w) → err ≠ 0 →
    hasCdr (m.world flash) = true → hasCdr w = true ∧ (available w = available (m.world flash) ∨
      ∃ driver ∈ op.driver, snapshotOf driver = some (available w))

/-! ### The condition -/

/-- The driver delivers statistics. -/
def Delivers : DriverStats → Prop
  | .stats fw => fw ≠ []
  | .noDevice | .statsGetFailed => False

/-- The bytes a restore whose copy fails has put over the buffer: the header has been read and is valid,
and the copy got this far. -/
def copiedPrefix (flash : List UInt8) (os : ℕ → Outcome) : List UInt8 :=
  match cdrFaults.headerGot flash cdrHdrSize os with
  | some bytes =>
    let got := cdrFaults.readGot flash cdrHdrSize (CdrStateHdr.ofBytes bytes).blobSize.toNat (os 2)
    if (CdrStateHdr.ofBytes bytes).Valid ∧ got.2 = false then got.1 else []
  | none => []

/-- With a CDR pending, a collection or a persist is answered with statistics, and a restore whose copy
fails has got through bytes that are those of the pending CDR. -/
def CallSpares (op : CdrOperation) (m : CdrModule) (flash : List UInt8) (os : ℕ → Outcome) : Prop :=
  Pending m.statics →
    match op with
    | .collect driver | .persistToFlash driver => Delivers driver
    | .restoreFromFlash => (overwrite 0 (copiedPrefix flash os) m.blob).take m.statics.blobSize
        = m.blob.take m.statics.blobSize

theorem delivers_iff (driver : DriverStats) : Delivers driver ↔ ∃ snap, snapshotOf driver = some snap := by
  cases driver with
  | noDevice => simp [Delivers, snapshotOf]
  | statsGetFailed => simp [Delivers, snapshotOf]
  | stats fw => by_cases hfw : fw = [] <;> simp [Delivers, snapshotOf, hfw]

/-! ### What a restore that fails leaves -/

variable {w w' : CdrWorld} {os : ℕ → Outcome}

theorem restoreAfterCopy_exec (w : CdrWorld) (len : ℕ) (err : ℤ) (os : ℕ → Outcome) :
    ∃ w', cdrDevice.exec (restoreAfterCopy len w.flash.length err) os w = (some err, w') ∧
      w'.ram = w.ram ∧ (err ≠ 0 → w'.statics = w.statics) := by
  have hrule : Always cdrDevice
      (fun e w' => e = err ∧ w'.ram = w.ram ∧ (err ≠ 0 → w'.statics = w.statics)) (fun _ => True)
      (restoreAfterCopy len w.flash.length err) w := by
    refine always_mono (restoreAfterCopy_always w len err _ fun flash _ _ => ?_) (fun _ _ h => h)
      fun _ _ => trivial
    exact ⟨rfl, rfl, fun herr => if_neg herr⟩
  obtain ⟨e, w', hexec, rfl, hram, hstatics⟩ := exec_always hrule os
  exact ⟨w', hexec, hram, hstatics⟩

/-- A restore has returned zero, or failed with a prefix of the stored blob over the buffer. -/
def RestoreOver (w : CdrWorld) (xs : List UInt8) (err : ℤ) (w' : CdrWorld) : Prop :=
  (err = 0 ∧ xs = []) ∨ (err ≠ 0 ∧ w'.ram = (w.fill .fwStatsBlob xs).ram ∧ w'.statics = w.statics)

theorem restoreOver_same {err : ℤ} (herr : err ≠ 0) : RestoreOver w [] err w :=
  Or.inr ⟨herr, by rw [fill_nil], rfl⟩

/-- The restore from its copy on. -/
theorem copy_exec (w : CdrWorld) (len : ℕ) (os : ℕ → Outcome) :
    ∃ err w', cdrDevice.exec (.call (.readInto cdrHdrSize .fwStatsBlob len) fun err =>
        restoreAfterCopy len w.flash.length err) os w = (some err, w') ∧
      RestoreOver w (if (cdrFaults.readGot w.flash cdrHdrSize len (os 0)).2 = false then
        (cdrFaults.readGot w.flash cdrHdrSize len (os 0)).1 else []) err w' := by
  obtain ⟨err, hread, hzero⟩ := exec_readInto_powered (F := cdrFaults) rfl w cdrHdrSize .fwStatsBlob len
    (restoreAfterCopy len w.flash.length) os
  obtain ⟨w', hexec, hram, hstatics⟩ := restoreAfterCopy_exec
    (w.fill .fwStatsBlob (cdrFaults.readGot w.flash cdrHdrSize len (os 0)).1) len err
    fun i => os (i + 1)
  refine ⟨err, w', hread.trans hexec, ?_⟩
  · cases hgot : (cdrFaults.readGot w.flash cdrHdrSize len (os 0)).2 with
    | true => exact Or.inl ⟨hzero.mpr hgot, rfl⟩
    | false =>
      have herr : err ≠ 0 := fun h => Bool.false_ne_true (hgot.symm.trans (hzero.mp h))
      exact Or.inr ⟨herr, hram, hstatics herr⟩

/-- A restore returns zero, or fails with `copiedPrefix` over the buffer and nothing else changed. -/
theorem restore_exec (w : CdrWorld) (os : ℕ → Outcome) :
    ∃ err w', cdrDevice.exec mfltNrf70FwStatsCdrRestoreFromFlash os w = (some err, w') ∧
      RestoreOver w (copiedPrefix w.flash os) err w' := by
  have hrestore : cdrDevice.exec mfltNrf70FwStatsCdrRestoreFromFlash os w =
      match cdrFaults.headerGot w.flash cdrHdrSize os with
      | some bytes =>
        cdrDevice.exec (restoreHeader w.flash.length (.ok bytes)) (fun i => os (i + 2)) w
      | none => (some enoent, w) :=
    exec_header_powered (F := cdrFaults) rfl cdrHdrSize enoent _ restoreHeader (fun _ => rfl)
      (fun _ => rfl) (fun _ _ => rfl) os
  rw [hrestore, copiedPrefix]
  cases cdrFaults.headerGot w.flash cdrHdrSize os with
  | none => exact ⟨enoent, w, rfl, restoreOver_same (by decide)⟩
  | some bytes =>
    simp only [restoreHeader]
    by_cases hvalid : (CdrStateHdr.ofBytes bytes).Valid
    · simp only [hvalid, not_true_eq_false, if_false, true_and]
      exact copy_exec w _ fun i => os (i + 2)
    · simp only [hvalid, not_false_eq_true, if_true, false_and, if_false]
      exact ⟨enoent, w, rfl, restoreOver_same (by decide)⟩

/-! ### The condition is exact -/

variable {op : CdrOperation} {driver : DriverStats} {m : CdrModule} {flash : List UInt8}

/-- An operation that has collected first, whatever it did after. -/
theorem collected_survives_iff (hop : op.driver = some driver) {err : ℤ} {w : CdrWorld}
    (hexec : cdrDevice.exec op.prog os (m.world flash) = (some err, w))
    (hram : w.ram = (collectedWorld driver (m.world flash)).ram)
    (hstatics : w.statics = (collectedWorld driver (m.world flash)).statics)
    (herr : err = 0 → ∃ snap, snapshotOf driver = some snap) :
    PendingSurvives op m flash os ↔ (Pending m.statics → Delivers driver) := by
  constructor
  · intro h hpending
    by_contra hdelivers
    rw [delivers_iff] at hdelivers
    have hnone : snapshotOf driver = none := by
      by_contra hsome
      exact hdelivers (Option.ne_none_iff_exists'.mp hsome)
    obtain ⟨hcdr, -⟩ := h err w hexec (fun h0 => hdelivers (herr h0)) ((hasCdr_iff _).mpr hpending)
    obtain ⟨hready, -⟩ := (hasCdr_iff w).mp hcdr
    rw [hstatics, collectedWorld, hnone] at hready
    cases hready
  · intro h err' w' hexec' _ hcdr
    rw [hexec] at hexec'
    cases hexec'
    obtain ⟨snap, hsnap⟩ := (delivers_iff driver).mp (h ((hasCdr_iff _).mp hcdr))
    obtain ⟨-, hbytes, hready, hsize⟩ := collectedWorld_some hsnap (m.bufferOk flash)
    have hpos := (snapshotOf_ok hsnap).pos
    have havailable : available w = snap := by
      rw [available, World.bytes, hram, hstatics, hsize]
      exact hbytes
    refine ⟨(hasCdr_iff w).mpr ⟨?_, ?_⟩, Or.inr ⟨driver, hop, ?_⟩⟩
    · rw [hstatics]
      exact hready
    · rw [hstatics, hsize]
      omega
    · rw [hsnap, havailable]

theorem collect_survives_iff :
    PendingSurvives (.collect driver) m flash os ↔ CallSpares (.collect driver) m flash os :=
  collected_survives_iff rfl (collect_exec driver os (m.world flash)) rfl rfl
    (collectErr_zero_iff driver).mp

theorem persist_survives_iff : PendingSurvives (.persistToFlash driver) m flash os ↔
    CallSpares (.persistToFlash driver) m flash os := by
  obtain ⟨err, w, hexec, hleaves⟩ := persist_exec driver os (m.bufferOk flash)
  exact collected_survives_iff rfl hexec hleaves.ram_eq hleaves.statics_eq hleaves.collected

theorem copiedPrefix_available (m : CdrModule) (flash xs : List UInt8) {w : CdrWorld}
    (hram : w.ram = ((m.world flash).fill .fwStatsBlob xs).ram) (hstatics : w.statics = m.statics) :
    available w = (overwrite 0 xs m.blob).take m.statics.blobSize := by
  have hfill : w.ram .fwStatsBlob = some (overwrite 0 xs m.blob) := by
    rw [hram]
    exact World.fill_of_some (m.world flash) .fwStatsBlob xs m.blob rfl
  rw [available, hstatics, World.bytes, hfill]
  rfl

theorem restore_survives_iff : PendingSurvives .restoreFromFlash m flash os ↔
    CallSpares .restoreFromFlash m flash os := by
  obtain ⟨err, w, hexec, hover⟩ := restore_exec (m.world flash) os
  constructor
  · intro h hpending
    rcases hover with ⟨-, hnil⟩ | ⟨herr, hram, hstatics⟩
    · have hnil' : copiedPrefix flash os = [] := hnil
      simp only [hnil', overwrite_nil]
    · obtain ⟨-, hsame | ⟨driver, hdriver, -⟩⟩ :=
        h err w hexec herr ((hasCdr_iff _).mpr hpending)
      · rw [copiedPrefix_available m flash _ hram hstatics] at hsame
        exact hsame
      · cases hdriver
  · intro h err' w' hexec' herr' hcdr
    have hpending : Pending m.statics := (hasCdr_iff _).mp hcdr
    have hrun : cdrDevice.exec mfltNrf70FwStatsCdrRestoreFromFlash os (m.world flash)
        = (some err', w') := hexec'
    rw [hexec] at hrun
    cases hrun
    rcases hover with ⟨hzero, -⟩ | ⟨-, hram, hstatics⟩
    · exact absurd hzero herr'
    · refine ⟨(hasCdr_iff w).mpr (by rw [hstatics]; exact hpending), Or.inl ?_⟩
      rw [copiedPrefix_available m flash _ hram hstatics]
      exact h hpending

/-- **When a failing call keeps the pending CDR.**  Exactly if the driver delivers statistics to a
collection or a persist, and the bytes a failing copy of a restore got through are those of the pending
CDR. -/
theorem pending_survives_iff (op : CdrOperation) (m : CdrModule) (flash : List UInt8)
    (os : ℕ → Outcome) : PendingSurvives op m flash os ↔ CallSpares op m flash os := by
  cases op with
  | collect driver => exact collect_survives_iff
  | persistToFlash driver => exact persist_survives_iff
  | restoreFromFlash => exact restore_survives_iff

/-- A snapshot of two bytes waits to be read. -/
def pendingModule : CdrModule :=
  ⟨List.replicate nrf70FwStatsBlobMaxSize 7, List.length_replicate, ⟨2, true, 0, 2⟩⟩

/-- The collection fails and the pending CDR is gone. -/
theorem failed_collect_loses_pending :
    ¬ PendingSurvives (.collect .statsGetFailed) pendingModule [] noFlashCalls := by
  intro h
  obtain ⟨hcdr, -⟩ := h eio { pendingModule.world [] with statics := ⟨0, false, 0, 2⟩ } rfl
    (by decide) rfl
  cases hcdr

end WifiMemfault.CdrFailure
