import WifiMemfault.CdrUpload
import WifiMemfault.StatsTool

/-!
# From the driver to the printed values

What the nRF70 driver answers goes through the buffer of the CDR source, perhaps through its partition and a
reboot, then chunk by chunk to the SDK, and ends as the blob the script decodes.  If the record of the
statistics fits the buffer, every value is printed as the driver had it.

`Holds` says that a snapshot is ready in the buffer; a collection and a successful restore establish it, and
`quiet_session_uploads` turns it into the uploaded bytes.
-/

namespace WifiMemfault.StatsDelivery

open EffectProgram NorFlash FwStatsCdr FwStatsImage FwStatsSpec CdrPath CdrUpload
open PyText StatsHeader StatsRoundTrip StatsTool

/-- The snapshot is ready, and the buffer starts with it. -/
structure Holds (s : CdrSystem) (snap : List UInt8) : Prop where
  cdr : CdrInv s
  ok : SnapshotOk snap
  ready : s.world.statics.dataReady = true
  size : s.world.statics.blobSize = snap.length
  bytes : (s.world.bytes .fwStatsBlob).take snap.length = snap

variable {s : CdrSystem} {snap : List UInt8}

theorem Holds.announced (h : Holds s snap) : snap.length ∈ announced s := by
  have hpos := h.ok.pos
  rw [CdrUpload.announced, hasCdrCb_exec, if_neg, h.size]
  · rfl
  · rw [h.ready, h.size]
    simp only [Bool.true_eq_false, false_or]
    omega

/-- **A quiet session uploads what is ready.** -/
theorem quiet_session_uploads (h : Holds s snap) (turns : List SessionTurn)
    (hquiet : Runs.EachStep stepSession QuietTurn (startSession s) turns)
    (hall : (Runs.run stepSession (startSession s) turns).allTrue = true)
    (hend : snap.length ≤ (Runs.run stepSession (startSession s) turns).offset) :
    (Runs.run stepSession (startSession s) turns).got = snap := by
  have hinv := Runs.run_invariant sessionInv_step turns _ (sessionInv_start h.cdr h.announced) hquiet
  rw [hinv.got hall, Nat.min_eq_right hend, h.bytes]

/-! ### Getting a snapshot ready -/

theorem holds_collect (hinv : CdrInv s) {driver : DriverStats} (hsnap : snapshotOf driver = some snap) :
    Holds (stepCdr s (.collect driver)) snap := by
  obtain ⟨-, hbytes, hready, hsize⟩ := collectedWorld_some hsnap hinv.buffer
  have hworld : (stepCdr s (.collect driver)).world = collectedWorld driver s.world := by
    rw [collect_step, CdrSystem.afterCollect, hsnap]
  refine ⟨cdrInv_step hinv (.collect driver), snapshotOf_ok hsnap, ?_, ?_, ?_⟩
  · rw [hworld, hready]
  · rw [hworld, hsize]
  · rw [hworld, hbytes]

theorem holds_restore (hinv : CdrInv s) {os : ℕ → Outcome} (hzero : (s.restoreRun os).1 = some 0)
    (hstored : storedSnapshot s.world.flash = some snap) : Holds (stepCdr s (.restoreFromFlash os)) snap := by
  have hcdr := cdrInv_step hinv (.restoreFromFlash os)
  obtain ⟨err, w, hexec, hleaves⟩ := restore_step s os
  rw [hexec, Option.some_inj] at hzero
  obtain ⟨snap', hstored', hstatics, hram⟩ := hleaves.copied hzero
  obtain rfl : snap = snap' := Option.some.inj (hstored.symm.trans hstored')
  obtain ⟨hok, -⟩ := storedSnapshot_ok hstored
  have hbytes := (bufferOk_fill hinv.buffer snap hok.le hram).2
  have hworld : (stepCdr s (.restoreFromFlash os)).world = w := by
    rw [stepCdr, hexec, hzero, if_pos rfl]
  refine ⟨hcdr, hok, ?_, ?_, ?_⟩
  · rw [hworld, hstatics]
  · rw [hworld, hstatics]
  · rw [hworld, hbytes]

/-- A persist that returns zero has stored what it collected. -/
theorem persist_stores {w : CdrWorld} (hbuf : BufferOk w) (driver : DriverStats) (os : ℕ → Outcome)
    (hzero : (cdrDevice.exec (mfltNrf70FwStatsCdrPersistToFlash driver) os w).1 = some 0) :
    storedSnapshot (cdrDevice.exec (mfltNrf70FwStatsCdrPersistToFlash driver) os w).2.flash
      = snapshotOf driver := by
  have hpersist : mfltNrf70FwStatsCdrPersistToFlash driver =
    persistErase driver >>= fun err => if err ≠ 0 then .ret err else persistWrite := rfl
  have hrule : Always cdrDevice (fun err w' => err = 0 → storedSnapshot w'.flash = snapshotOf driver)
      (fun _ => True) (mfltNrf70FwStatsCdrPersistToFlash driver) w := by
    rw [hpersist, always_bind]
    refine always_mono (persistErase_crash driver w) (fun err w' herase => ?_) fun _ _ => trivial
    by_cases herr : err = 0
    · subst herr
      obtain ⟨snap, hsnap, hwrite⟩ := persistWrite_erased hbuf herase
      rw [if_neg (by decide), hsnap]
      exact always_mono hwrite (fun _ _ hleaves => hleaves.stored) fun _ _ => trivial
    · rw [if_pos herr]
      exact fun h => absurd h herr
  obtain ⟨err, w', hexec, hstored⟩ := exec_always hrule os
  rw [hexec] at hzero ⊢
  exact hstored (Option.some.inj hzero)

/-! ### To the script -/

/-- The driver has answered with the record of the statistics, and it fits the buffer. -/
theorem snapshotOf_blob {stats : FwStats} (hne : stats.blob ≠ [])
    (hfits : stats.blob.length ≤ nrf70FwStatsBlobMaxSize) :
    snapshotOf (.stats stats.blob) = some stats.blob := by
  rw [snapshotOf, if_neg hne, List.take_of_length_le hfits]

/-- A session that is quiet, reads successfully and reaches the end of the snapshot. -/
structure Complete (s : CdrSystem) (length : ℕ) (turns : List SessionTurn) : Prop where
  quiet : Runs.EachStep stepSession QuietTurn (startSession s) turns
  allTrue : (Runs.run stepSession (startSession s) turns).allTrue = true
  toEnd : length ≤ (Runs.run stepSession (startSession s) turns).offset

/-- The bytes of the session. -/
def uploaded (s : CdrSystem) (turns : List SessionTurn) : List UInt8 :=
  (Runs.run stepSession (startSession s) turns).got

theorem uploaded_printed {stats : FwStats} (hholds : Holds s stats.blob) {turns : List SessionTurn}
    (hsession : Complete s stats.blob.length turns) {fs : Files} {headerFile hexBlob : PyStr} {h : Header}
    (hheader : fs.header headerFile = some h.text) (hdef : Defines h stats)
    (hblob : Supplies fs hexBlob (uploaded s turns)) :
    main fs headerFile hexBlob = some ⟨0, stats.output⟩ := by
  have hbytes := quiet_session_uploads hholds turns hsession.quiet hsession.allTrue hsession.toEnd
  rw [uploaded, hbytes] at hblob
  rw [main, hheader]
  simp only [blobData_supplies hblob, parse_defined hdef, Option.map_some]

/-- **Collected statistics are printed.**  After any calls the driver answers a collection with the record;
whatever the chunks of the session that follows, the script prints the values from its bytes. -/
theorem collected_stats_printed (flash : List UInt8) (es : List CdrEvent) (stats : FwStats)
    (hne : stats.blob ≠ []) (hfits : stats.blob.length ≤ nrf70FwStatsBlobMaxSize)
    (turns : List SessionTurn) (fs : Files) (headerFile hexBlob : PyStr) (h : Header)
    (hheader : fs.header headerFile = some h.text) (hdef : Defines h stats) :
    let s := stepCdr (Runs.run stepCdr (cdrBoot flash) es) (.collect (.stats stats.blob))
    Complete s stats.blob.length turns → Supplies fs hexBlob (uploaded s turns) →
      main fs headerFile hexBlob = some ⟨0, stats.output⟩ := by
  intro s hsession hblob
  have hholds : Holds s stats.blob := holds_collect (cdrInv_run flash es) (snapshotOf_blob hne hfits)
  exact uploaded_printed hholds hsession hheader hdef hblob

/-- The 24 bytes of the small record in two chunks. -/
def twoChunks : List SessionTurn := [.readData 16, .readData 16]

theorem collected_stats_printed_small :
    main smallFiles "stats.h".toList
        (Spelling.ofBytes (uploaded (stepCdr (Runs.run stepCdr (cdrBoot (erased 64)) [])
          (.collect (.stats smallStats.blob))) twoChunks)).text = some ⟨0, smallStats.output⟩ :=
  collected_stats_printed (erased 64) [] smallStats (by decide +kernel) (by decide +kernel) twoChunks smallFiles
    _ _ smallHeader rfl smallHeader_defines
    ⟨by decide +kernel, by decide +kernel, by decide +kernel⟩
    (Or.inr ⟨rfl, _, rfl, Spelling.ofBytes_values _⟩)

/-- A call that leaves the partition alone. -/
def KeepsFlash : CdrEvent → Prop
  | .persistToFlash _ _ | .restoreFromFlash _ => False
  | .collect _ | .hasCdr | .readData _ _ | .markCdrRead => True

instance : DecidablePred KeepsFlash
  | .persistToFlash _ _ | .restoreFromFlash _ => isFalse id
  | .collect _ | .hasCdr | .readData _ _ | .markCdrRead => isTrue trivial

theorem keepsFlash_step (s : CdrSystem) {e : CdrEvent} (h : KeepsFlash e) :
    (stepCdr s e).world.flash = s.world.flash := by
  cases e with
  | collect driver =>
    rw [collect_step, ← collectedWorld_flash driver s.world]
    rcases afterCollect_cases s driver (collectedWorld driver s.world) with ⟨snap, -, hs⟩ | ⟨-, hs⟩
    · rw [hs]
    · rw [hs]
  | persistToFlash driver os => exact h.elim
  | restoreFromFlash os => exact h.elim
  | hasCdr =>
    rw [stepCdr, hasCdrCb_exec]
    split
    · rfl
    · rfl
  | readData offset bufLen =>
    rw [stepCdr, readDataCb_exec]
    split
    · rfl
    · rfl
  | markCdrRead =>
    rw [stepCdr, markCdrReadCb_exec]

theorem keepsFlash_run (s : CdrSystem) {es : List CdrEvent} (h : ∀ e ∈ es, KeepsFlash e) :
    (Runs.run stepCdr s es).world.flash = s.world.flash := by
  induction es generalizing s with
  | nil => rfl
  | cons e es ih =>
    obtain ⟨he, hes⟩ := List.forall_mem_cons.mp h
    rw [Runs.run_cons, ih (stepCdr s e) hes, keepsFlash_step s he]

/-- **Persisted statistics are printed.**  A persist that returns zero stores the record; after a reboot and
calls that leave the partition alone a restore returns zero, and a session follows. -/
theorem persisted_stats_printed (flash : List UInt8) (es : List CdrEvent) (stats : FwStats)
    (hne : stats.blob ≠ []) (hfits : stats.blob.length ≤ nrf70FwStatsBlobMaxSize) (os : ℕ → Outcome)
    (rebooted : List CdrEvent) (hkeeps : ∀ e ∈ rebooted, KeepsFlash e) (os' : ℕ → Outcome)
    (turns : List SessionTurn) (fs : Files) (headerFile hexBlob : PyStr) (h : Header)
    (hheader : fs.header headerFile = some h.text) (hdef : Defines h stats) :
    let persist := cdrDevice.exec (mfltNrf70FwStatsCdrPersistToFlash (.stats stats.blob)) os
      (Runs.run stepCdr (cdrBoot flash) es).world
    let connected := Runs.run stepCdr (cdrBoot persist.2.flash) rebooted
    let s := stepCdr connected (.restoreFromFlash os')
    persist.1 = some 0 → (connected.restoreRun os').1 = some 0 →
      Complete s stats.blob.length turns → Supplies fs hexBlob (uploaded s turns) →
      main fs headerFile hexBlob = some ⟨0, stats.output⟩ := by
  intro persist connected s hpersist hrestore hsession hblob
  have hstored : storedSnapshot connected.world.flash = some stats.blob := by
    have hflash : connected.world.flash = persist.2.flash := keepsFlash_run _ hkeeps
    rw [hflash, persist_stores (cdrInv_run flash es).buffer (.stats stats.blob) os hpersist,
      snapshotOf_blob hne hfits]
  have hholds : Holds s stats.blob := holds_restore (cdrInv_run _ rebooted) hrestore hstored
  exact uploaded_printed hholds hsession hheader hdef hblob

/-- The partition after a persist of the small record. -/
def smallPartition : List UInt8 :=
  (cdrDevice.exec (mfltNrf70FwStatsCdrPersistToFlash (.stats smallStats.blob)) noFlashCalls
    (Runs.run stepCdr (cdrBoot (erased 64)) []).world).2.flash

theorem persisted_stats_printed_small :
    main smallFiles "stats.h".toList
        (Spelling.ofBytes (uploaded (stepCdr (Runs.run stepCdr (cdrBoot smallPartition) [.hasCdr])
          (.restoreFromFlash noFlashCalls)) twoChunks)).text = some ⟨0, smallStats.output⟩ :=
  persisted_stats_printed (erased 64) [] smallStats (by decide +kernel) (by decide +kernel) noFlashCalls
    [.hasCdr] (by decide +kernel) noFlashCalls twoChunks smallFiles _ _ smallHeader rfl smallHeader_defines
    (by decide +kernel) (by decide +kernel)
    ⟨by decide +kernel, by decide +kernel, by decide +kernel⟩
    (Or.inr ⟨rfl, _, rfl, Spelling.ofBytes_values _⟩)

end WifiMemfault.StatsDelivery
