import WifiMemfault.CdrPath

/-!
# How often a snapshot is read out

A persist leaves its snapshot in two places, ready in the buffer and stored in the partition.  When the
SDK has read the one in the buffer, the other is still there, and the next restore makes it ready again.

`FreshRestore` is the condition under which no snapshot is read out twice: no restore finds a snapshot
that has been read out.
-/

namespace WifiMemfault.CdrDelivery

open NorFlash FwStatsCdr FwStatsImage CdrPath

/-- A restore that finds a valid header finds a snapshot that has not been read out. -/
def FreshRestore (s : CdrSystem) : CdrEvent → Prop
  | .restoreFromFlash _ => Accepts s.world.flash → ∀ f ∈ s.inFlash, f ∉ s.readOut
  | _ => True

instance (s : CdrSystem) (e : CdrEvent) : Decidable (FreshRestore s e) :=
  match e with
  | .restoreFromFlash _ => inferInstanceAs (Decidable (_ → ∀ f ∈ s.inFlash, _))
  | .collect _ | .persistToFlash _ _ | .hasCdr | .readData _ _ | .markCdrRead =>
    inferInstanceAs (Decidable True)

/-- The snapshot that is ready has not been read out, and no snapshot has been twice. -/
structure DeliveryInv (s : CdrSystem) : Prop where
  cdr : CdrInv s
  nodup : s.readOut.Nodup
  readOut_lt : ∀ i ∈ s.readOut, i < s.collected.length
  unread : ∀ r, s.inRam = some r → r ∉ s.readOut

variable {s : CdrSystem}

theorem deliveryInv_boot (flash : List UInt8) : DeliveryInv (cdrBoot flash) :=
  { cdr := cdrInv_boot flash
    nodup := List.nodup_nil
    readOut_lt := fun i hi => by cases hi
    unread := fun r hr => by cases hr }

/-- A collection makes a snapshot with a new number ready. -/
theorem deliveryInv_afterCollect (hinv : DeliveryInv s) (driver : DriverStats) (w : CdrWorld) :
    (s.afterCollect driver w).readOut.Nodup ∧
      (∀ i ∈ (s.afterCollect driver w).readOut, i < (s.afterCollect driver w).collected.length) ∧
      ∀ r, (s.afterCollect driver w).inRam = some r → r ∉ (s.afterCollect driver w).readOut := by
  rcases afterCollect_cases s driver w with ⟨snap, -, hs⟩ | ⟨-, hs⟩
  · rw [hs]
    refine ⟨hinv.nodup, fun i hi => ?_, fun r hr hmem => ?_⟩
    · have hi' := hinv.readOut_lt i hi
      simp only [List.length_append, List.length_singleton]
      omega
    · cases hr
      exact Nat.lt_irrefl _ (hinv.readOut_lt _ hmem)
  · rw [hs]
    exact ⟨hinv.nodup, hinv.readOut_lt, fun r hr => by cases hr⟩

/-- Marking the ready snapshot adds one that was not there. -/
theorem markRead_readOut (hinv : DeliveryInv s) :
    (stepCdr s .markCdrRead).readOut.Nodup ∧
      ∀ i ∈ (stepCdr s .markCdrRead).readOut, i < s.collected.length := by
  have hread : (stepCdr s .markCdrRead).readOut =
      if s.world.statics.dataReady then s.readOut ++ s.inRam.toList else s.readOut := rfl
  rw [hread, hinv.cdr.ready]
  cases hr : s.inRam with
  | none => exact ⟨hinv.nodup, hinv.readOut_lt⟩
  | some r =>
    obtain ⟨snap, hsnap, -⟩ := hinv.cdr.ram r hr
    have hlt : r < s.collected.length := (List.getElem?_eq_some_iff.mp hsnap).1
    simp only [Option.isSome_some, if_true, Option.toList_some]
    refine ⟨?_, fun i hi => ?_⟩
    · rw [List.nodup_append]
      refine ⟨hinv.nodup, by simp, ?_⟩
      rintro i hi j hj rfl
      rw [List.mem_singleton] at hj
      subst hj
      exact hinv.unread i hr hi
    · rcases List.mem_append.mp hi with h | h
      · exact hinv.readOut_lt i h
      · rw [List.mem_singleton] at h
        rw [h]
        exact hlt

theorem deliveryInv_step (s : CdrSystem) (e : CdrEvent) (hinv : DeliveryInv s)
    (hfresh : FreshRestore s e) : DeliveryInv (stepCdr s e) := by
  have hcdr := cdrInv_step hinv.cdr e
  cases e with
  | collect driver =>
    rw [collect_step] at hcdr ⊢
    obtain ⟨hnodup, hlt, hunread⟩ := deliveryInv_afterCollect hinv driver _
    exact ⟨hcdr, hnodup, hlt, hunread⟩
  | persistToFlash driver os =>
    obtain ⟨hnodup, hlt, hunread⟩ := deliveryInv_afterCollect hinv driver _
    exact ⟨hcdr, hnodup, hlt, hunread⟩
  | restoreFromFlash os =>
    obtain ⟨err, w, hexec, hleaves⟩ := restore_step s os
    rw [stepCdr, hexec] at hcdr ⊢
    by_cases herr : err = 0
    · subst herr
      obtain ⟨snap, hstored, -⟩ := hleaves.copied rfl
      refine ⟨hcdr, hinv.nodup, hinv.readOut_lt, fun r hr => ?_⟩
      exact hfresh (accepts_of_stored hstored) r hr
    · rw [if_neg (by simp [herr])] at hcdr ⊢
      exact ⟨hcdr, hinv.nodup, hinv.readOut_lt, hinv.unread⟩
  | hasCdr => exact ⟨hcdr, hinv.nodup, hinv.readOut_lt, hinv.unread⟩
  | readData offset bufLen => exact ⟨hcdr, hinv.nodup, hinv.readOut_lt, hinv.unread⟩
  | markCdrRead =>
    obtain ⟨hnodup, hlt⟩ := markRead_readOut hinv
    exact ⟨hcdr, hnodup, hlt, fun r hr => by cases hr⟩

/-- **No snapshot is read out twice** in a run whose restores all find snapshots that are still to be
read. -/
theorem fresh_restores_read_once (flash : List UInt8) (es : List CdrEvent)
    (hfresh : Runs.EachStep stepCdr FreshRestore (cdrBoot flash) es) :
    (Runs.run stepCdr (cdrBoot flash) es).readOut.Nodup :=
  (Runs.run_invariant deliveryInv_step es _ (deliveryInv_boot flash) hfresh).nodup

/-- No flash call fails. -/
def noFaults : ℕ → Outcome := fun _ => .ok

/-- One upload of a snapshot of three bytes, in two chunks. -/
def upload : List CdrEvent := [.hasCdr, .readData 0 2, .readData 2 2, .markCdrRead]

/-- An offline persist, then a restore before and an upload after the connection is back. -/
def persistRestoreUpload : List CdrEvent :=
  .persistToFlash (.stats [1, 2, 3]) noFaults :: .restoreFromFlash noFaults :: upload

theorem fresh_restores_read_once_twice :
    (Runs.run stepCdr (cdrBoot (erased 64)) (persistRestoreUpload ++ persistRestoreUpload)).readOut.Nodup :=
  fresh_restores_read_once _ _ (by decide +kernel)

/-- **A snapshot is read out twice**, from the buffer after the persist and from the partition after the
restore. -/
theorem persisted_snapshot_read_twice :
    ¬ (Runs.run stepCdr (cdrBoot (erased 64)) (.persistToFlash (.stats [1, 2, 3]) noFaults ::
      upload ++ .restoreFromFlash noFaults :: upload)).readOut.Nodup := by
  decide +kernel

end WifiMemfault.CdrDelivery
