import WifiMemfault.LogPath

/-!
# Reconnecting without a reboot

`on_connect` restores whatever blob the partition holds, also when the ring buffer it was taken from is
still alive.  A restore that returns zero then throws away every line saved since the persist, and makes
unsent again what was read since.

* `RestoreKeepsLog` is what a restore owes the live log: no unsent line is lost, and no line that an
  upload has read becomes unsent.
* `NothingNewer` is the condition under which it does: nothing of what happened to the log since the
  persist matters any more.
* `LogInv` ties the blob in the partition to the live ring buffer, through the persist it came from.
-/

namespace WifiMemfault.LogReconnect

open EffectProgram NorFlash LogStateRestore LogStateImage LogStateSpec MemfaultCore MemfaultLog
  LogPath

/-- Flash opens, erases and writes may fail, reads succeed, and the power stays on. -/
def connectFaults : FaultModel where
  mayFail := fun kind => kind ≠ .read
  torn := true
  powerLoss := false

variable (sdk : LogSdk)

/-- A restore that returns zero has copied a ring buffer with every line that was unsent before, and
neither the copy nor what the marker line makes of it has an unsent line that an upload had read. -/
def RestoreKeepsLog (s : LogSystem) : LogSystemEvent → Prop
  | .core e os =>
    restoreStarts s.core e = true → (s.restoreRun sdk connectFaults os).1 = some 0 →
      (∀ n ∈ (sdk.ring s.live).unsent,
        n ∈ (sdk.ring (ramSnapshot (s.restoreCopy sdk connectFaults os).2)).entries) ∧
      ∀ n ∈ s.sent,
        n ∉ (sdk.ring (ramSnapshot (s.restoreCopy sdk connectFaults os).2)).unsent ∧
        n ∉ (sdk.ring (ramSnapshot (s.restoreRun sdk connectFaults os).2)).unsent
  | _ => True

/-- When a restore runs, no line saved since the persist of the blob is still unsent, and no line read
since then was unsent in the blob.  There is no reboot. -/
def NothingNewer (s : LogSystem) : LogSystemEvent → Prop
  | .core e _ =>
    restoreStarts s.core e = true → ∀ b ∈ s.blob,
      (∀ n ∈ (sdk.ring s.live).unsent, n < b.nextLine) ∧
      ∀ n ∈ s.sent, n ∉ b.sent → n ∉ (sdk.ring b.snapshot).unsent
  | .reboot _ _ => False
  | _ => True

instance (s : LogSystem) (e : LogSystemEvent) : Decidable (RestoreKeepsLog sdk s e) :=
  match e with
  | .core _ _ => inferInstanceAs (Decidable (_ → _ → _ ∧ _))
  | .saveLine | .markRead _ | .reboot _ _ => inferInstanceAs (Decidable True)

instance (s : LogSystem) (e : LogSystemEvent) : Decidable (NothingNewer sdk s e) :=
  match e with
  | .core _ _ => inferInstanceAs (Decidable (_ → ∀ b ∈ s.blob, _ ∧ _))
  | .saveLine | .markRead _ => inferInstanceAs (Decidable True)
  | .reboot _ _ => inferInstanceAs (Decidable False)

/-- How the live ring buffer relates to the persist a blob came from. -/
structure BlobOk (s : LogSystem) (b : BlobOrigin) : Prop where
  nextLine_le : b.nextLine ≤ s.nextLine
  nodup : (sdk.ring b.snapshot).entries.Nodup
  entries_lt : ∀ n ∈ (sdk.ring b.snapshot).entries, n < b.nextLine
  sent_read : ∀ n ∈ b.sent, n ∉ (sdk.ring b.snapshot).unsent
  older_kept : ∀ n ∈ (sdk.ring s.live).entries, n < b.nextLine → n ∈ (sdk.ring b.snapshot).entries

/-- The invariant of a session. -/
structure LogInv (s : LogSystem) : Prop where
  wellSized : s.live.WellSized
  nodup : (sdk.ring s.live).entries.Nodup
  entries_lt : ∀ n ∈ (sdk.ring s.live).entries, n < s.nextLine
  sent_lt : ∀ n ∈ s.sent, n < s.nextLine
  sent_read : ∀ n ∈ s.sent, n ∉ (sdk.ring s.live).unsent
  content : ∃ o, Represents s.flash o ∧
    ∀ t, o = some t → ∃ b, s.blob = some b ∧ b.snapshot = t ∧ BlobOk sdk s b

variable {sdk} {s : LogSystem} {os : ℕ → Outcome}

theorem holdsBlob_holds {flash : List UInt8} {t : LogSnapshot}
    (h : LogSystem.holdsBlob flash t = true) : Holds flash t := by
  have htake := of_decide_eq_true h
  refine ⟨flash.drop (blobImage t).length, ?_⟩
  have hsplit := List.take_append_drop (blobImage t).length flash
  rw [htake] at hsplit
  exact hsplit.symm

theorem holds_holdsBlob {flash : List UInt8} {t : LogSnapshot} (h : Holds flash t) :
    LogSystem.holdsBlob flash t = true := by
  obtain ⟨rest, rfl⟩ := h
  exact decide_eq_true (List.take_left' rfl)

/-- The restore of an orderly session keeps the log. -/
theorem restore_spec (hinv : LogInv sdk s) {e : CoreEvent}
    (hstart : restoreStarts s.core e = true) (hnew : NothingNewer sdk s (.core e os)) :
    ∃ r w, s.restoreRun sdk connectFaults os = (some r, w) ∧
      (∃ o, Represents w.flash o ∧
        ∀ t, o = some t → ∃ b, s.blob = some b ∧ b.snapshot = t ∧ BlobOk sdk s b) ∧
      ((r ≠ 0 ∧ w.ram = liveRam s.live) ∨
        ∃ b, r = 0 ∧ s.blob = some b ∧ BlobOk sdk s b ∧
          ramSnapshot (s.restoreCopy sdk connectFaults os).2 = b.snapshot ∧
          w.ram = liveRam (sdk.save s.nextLine b.snapshot) ∧ b.snapshot.WellSized ∧
          (∀ n ∈ (sdk.ring s.live).unsent, n < b.nextLine) ∧
          ∀ n ∈ s.sent, n ∉ (sdk.ring b.snapshot).unsent) := by
  obtain ⟨o, hrep, hblob⟩ := hinv.content
  obtain ⟨r, w, hcopy, ⟨hleaves, hpost⟩, hrun⟩ :=
    restoreRun_eq sdk connectFaults s os rfl o rfl hinv.wellSized hrep
  have hcontent : ∃ o', Represents w.flash o' ∧
      ∀ t, o' = some t → ∃ b, s.blob = some b ∧ b.snapshot = t ∧ BlobOk sdk s b := by
    rcases hleaves.content with h | h
    · exact ⟨o, h, hblob⟩
    · exact ⟨none, h, fun t ht => by cases ht⟩
  rcases hpost with ⟨rfl, t, rfl, hram⟩ | ⟨hr, hram⟩
  · obtain ⟨b, hb, rfl, hok⟩ := hblob t rfl
    obtain ⟨hunsent, hsent⟩ := hnew hstart b hb
    refine ⟨0, _, hrun, ?_, Or.inr ⟨b, rfl, hb, hok, ?_, ?_, hrep.1, hunsent, ?_⟩⟩
    · rw [if_pos rfl]
      exact hcontent
    · rw [hcopy]
      exact ramSnapshot_of_ram w _ hram
    · rw [if_pos rfl]
      show saveMarker sdk s.nextLine w.ram = _
      rw [hram]
      rfl
    · intro n hn
      by_cases hb' : n ∈ b.sent
      · exact hok.sent_read n hb'
      · exact hsent n hn hb'
  · refine ⟨r, _, hrun, ?_, Or.inl ⟨hr, ?_⟩⟩
    · rw [if_neg hr]
      exact hcontent
    · rw [if_neg hr]
      exact hram

theorem restore_keepsLog (hinv : LogInv sdk s) (e : LogSystemEvent) (hnew : NothingNewer sdk s e) :
    RestoreKeepsLog sdk s e := by
  cases e with
  | saveLine => exact trivial
  | markRead k => exact trivial
  | reboot live h => exact trivial
  | core e os =>
    intro hstart hzero
    obtain ⟨r, w, hrun, -, ⟨hr, -⟩ | ⟨b, rfl, -, hok, hcopy, hram, -, hunsent, hsent⟩⟩ :=
      restore_spec hinv hstart hnew
    · rw [hrun] at hzero
      exact absurd (Option.some.inj hzero) hr
    · rw [hcopy, hrun, ramSnapshot_of_ram w _ hram]
      refine ⟨fun n hn => ?_, fun n hn => ⟨hsent n hn, fun hmem => ?_⟩⟩
      · exact hok.older_kept n (LogRing.unsent_subset _ hn) (hunsent n hn)
      · rcases sdk.mem_unsent_save hmem with h | rfl
        · exact hsent n hn h
        · exact Nat.lt_irrefl _ (hinv.sent_lt _ hn)

/-! ### The steps keep the invariant -/

theorem logInv_persist (hinv : LogInv sdk s) (core : Core) :
    LogInv sdk { s.persist sdk connectFaults os with core := core } := by
  obtain ⟨o, hrep, hblob⟩ := hinv.content
  have hrun : ∃ r w, s.persistRun sdk connectFaults os = (some r, w) ∧
      PersistPost o s.live s.flash.length r w :=
    always_powered rfl (memfaultLogStatePersistNow_always o s.live hinv.wellSized s.flash hrep) os
  obtain ⟨r, w, hexec, hleaves, -⟩ := hrun
  refine ⟨hinv.wellSized, hinv.nodup, hinv.entries_lt, hinv.sent_lt, hinv.sent_read, ?_⟩
  show ∃ o', Represents (s.persistRun sdk connectFaults os).2.flash o' ∧ _
  rw [hexec]
  by_cases hholds : LogSystem.holdsBlob w.flash s.live = true
  · refine ⟨some s.live, ⟨hinv.wellSized, holdsBlob_holds hholds⟩, fun t ht => ?_⟩
    cases ht
    refine ⟨⟨s.live, s.nextLine, s.sent⟩, ?_, rfl, ?_⟩
    · simp only [LogSystem.persist, hexec, hholds, if_true]
    · exact ⟨le_rfl, hinv.nodup, hinv.entries_lt, hinv.sent_read, fun n hn _ => hn⟩
  · have hsame : (s.persist sdk connectFaults os).blob = s.blob := by
      simp only [LogSystem.persist, hexec, hholds]
      rfl
    rcases hleaves.content with h | h | h
    · refine ⟨o, h, fun t ht => ?_⟩
      obtain ⟨b, hb, hsnap, hok⟩ := hblob t ht
      exact ⟨b, hsame.trans hb, hsnap, hok.nextLine_le, hok.nodup, hok.entries_lt, hok.sent_read,
        hok.older_kept⟩
    · exact ⟨none, h, fun t ht => by cases ht⟩
    · exact absurd (holds_holdsBlob h.2) hholds

theorem logInv_restore (hinv : LogInv sdk s) {e : CoreEvent} (core : Core)
    (hstart : restoreStarts s.core e = true) (hnew : NothingNewer sdk s (.core e os)) :
    LogInv sdk { s.restore sdk connectFaults os with core := core } := by
  obtain ⟨r, w, hrun, ⟨o, hrep, hblob⟩, hcase⟩ := restore_spec hinv hstart hnew
  have hrestore : s.restore sdk connectFaults os =
      { s with flash := w.flash, live := ramSnapshot w, nextLine := s.nextLine + 1 } := by
    rw [LogSystem.restore, hrun]
  rw [hrestore]
  rcases hcase with ⟨-, hram⟩ | ⟨b, -, hb, hok, -, hram, hwell, -, hsent⟩
  · have hlive : ramSnapshot w = s.live := ramSnapshot_of_ram w _ hram
    rw [hlive]
    refine ⟨hinv.wellSized, hinv.nodup, fun n hn => (hinv.entries_lt n hn).trans (Nat.lt_succ_self _),
      fun n hn => (hinv.sent_lt n hn).trans (Nat.lt_succ_self _), hinv.sent_read, o, hrep, ?_⟩
    intro t ht
    obtain ⟨b, hb, hsnap, hok⟩ := hblob t ht
    exact ⟨b, hb, hsnap, hok.nextLine_le.trans (Nat.le_succ _), hok.nodup, hok.entries_lt,
      hok.sent_read, hok.older_kept⟩
  · have hlive : ramSnapshot w = sdk.save s.nextLine b.snapshot := ramSnapshot_of_ram w _ hram
    have hlt : ∀ n ∈ (sdk.ring b.snapshot).entries, n < s.nextLine := fun n hn =>
      (hok.entries_lt n hn).trans_le hok.nextLine_le
    rw [hlive]
    refine ⟨sdk.save_wellSized _ hwell, sdk.nodup_save hok.nodup fun h => Nat.lt_irrefl _ (hlt _ h),
      fun n hn => ?_, fun n hn => (hinv.sent_lt n hn).trans (Nat.lt_succ_self _),
      fun n hn hmem => ?_, o, hrep, fun t ht => ?_⟩
    · rcases sdk.mem_entries_save hn with h | rfl
      · exact (hlt n h).trans (Nat.lt_succ_self _)
      · exact Nat.lt_succ_self _
    · rcases sdk.mem_unsent_save hmem with h | rfl
      · exact hsent n hn h
      · exact Nat.lt_irrefl _ (hinv.sent_lt _ hn)
    · obtain ⟨b', hb', hsnap, -⟩ := hblob t ht
      rw [hb] at hb'
      cases hb'
      refine ⟨b, hb, hsnap, hok.nextLine_le.trans (Nat.le_succ _), hok.nodup, hok.entries_lt,
        hok.sent_read, fun n hn hlt' => ?_⟩
      rcases sdk.mem_entries_save hn with h | rfl
      · exact h
      · exact absurd hlt' (Nat.not_lt.mpr hok.nextLine_le)

theorem logInv_saveLine (hinv : LogInv sdk s) :
    LogInv sdk { s with live := sdk.save s.nextLine s.live, nextLine := s.nextLine + 1 } := by
  refine ⟨sdk.save_wellSized _ hinv.wellSized,
    sdk.nodup_save hinv.nodup fun h => Nat.lt_irrefl _ (hinv.entries_lt _ h), fun n hn => ?_,
    fun n hn => (hinv.sent_lt n hn).trans (Nat.lt_succ_self _), fun n hn hmem => ?_, ?_⟩
  · rcases sdk.mem_entries_save hn with h | rfl
    · exact (hinv.entries_lt n h).trans (Nat.lt_succ_self _)
    · exact Nat.lt_succ_self _
  · rcases sdk.mem_unsent_save hmem with h | rfl
    · exact hinv.sent_read n hn h
    · exact Nat.lt_irrefl _ (hinv.sent_lt _ hn)
  · obtain ⟨o, hrep, hblob⟩ := hinv.content
    refine ⟨o, hrep, fun t ht => ?_⟩
    obtain ⟨b, hb, hsnap, hok⟩ := hblob t ht
    refine ⟨b, hb, hsnap, hok.nextLine_le.trans (Nat.le_succ _), hok.nodup, hok.entries_lt,
      hok.sent_read, fun n hn hlt => ?_⟩
    rcases sdk.mem_entries_save hn with h | rfl
    · exact hok.older_kept n h hlt
    · exact absurd hlt (Nat.not_lt.mpr hok.nextLine_le)

theorem logInv_markRead (hinv : LogInv sdk s) (k : ℕ) :
    LogInv sdk { s with
      live := sdk.markRead k s.live
      sent := (sdk.ring s.live).unsent.take k ++ s.sent } := by
  have hentries : (sdk.ring (sdk.markRead k s.live)).entries = (sdk.ring s.live).entries := by
    rw [sdk.ring_markRead]
    rfl
  refine ⟨sdk.markRead_wellSized k hinv.wellSized, ?_, fun n hn => ?_, fun n hn => ?_,
    fun n hn => ?_, ?_⟩
  · rw [hentries]
    exact hinv.nodup
  · rw [hentries] at hn
    exact hinv.entries_lt n hn
  · rcases List.mem_append.mp hn with h | h
    · exact hinv.entries_lt n (LogRing.unsent_subset _ (List.mem_of_mem_take h))
    · exact hinv.sent_lt n h
  · rw [sdk.ring_markRead]
    rcases List.mem_append.mp hn with h | h
    · exact LogRing.taken_not_unsent hinv.nodup h
    · rw [LogRing.unsent_markRead]
      exact fun hmem => hinv.sent_read n h (List.mem_of_mem_drop hmem)
  · obtain ⟨o, hrep, hblob⟩ := hinv.content
    refine ⟨o, hrep, fun t ht => ?_⟩
    obtain ⟨b, hb, hsnap, hok⟩ := hblob t ht
    refine ⟨b, hb, hsnap, hok.nextLine_le, hok.nodup, hok.entries_lt, hok.sent_read,
      fun n hn => ?_⟩
    rw [hentries] at hn
    exact hok.older_kept n hn

theorem logInv_core (hinv : LogInv sdk s) (core : Core) : LogInv sdk { s with core := core } := by
  obtain ⟨o, hrep, hblob⟩ := hinv.content
  refine ⟨hinv.wellSized, hinv.nodup, hinv.entries_lt, hinv.sent_lt, hinv.sent_read, o, hrep,
    fun t ht => ?_⟩
  obtain ⟨b, hb, hsnap, hok⟩ := hblob t ht
  exact ⟨b, hb, hsnap, hok.nextLine_le, hok.nodup, hok.entries_lt, hok.sent_read, hok.older_kept⟩

/-- **One step.** -/
theorem logInv_step (s : LogSystem) (e : LogSystemEvent) (hinv : LogInv sdk s)
    (hnew : NothingNewer sdk s e) : LogInv sdk (stepLogSystem sdk connectFaults s e) := by
  rcases step_cases sdk connectFaults s e with ⟨ce, os, -, -, hs⟩ |
    ⟨ce, os, rfl, hr, hs⟩ | ⟨ce, os, -, -, -, hs⟩ | rfl | ⟨k, rfl⟩ | ⟨live, h, rfl⟩
  · rw [hs]
    exact logInv_persist hinv _
  · rw [hs]
    exact logInv_restore hinv _ hr hnew
  · rw [hs]
    exact logInv_core hinv _
  · exact logInv_saveLine hinv
  · exact logInv_markRead hinv k
  · exact hnew.elim

/-! ### Sessions -/

/-- A session starts with an empty ring buffer.  The partition is anything a restore takes for one
blob or for none, and the blob's lines were saved in an earlier session. -/
structure SessionStart (sdk : LogSdk) (s : LogSystem) : Prop where
  wellSized : s.live.WellSized
  empty : (sdk.ring s.live).entries = []
  sent_nil : s.sent = []
  content : ∃ o, Represents s.flash o ∧
    ∀ t, o = some t → s.blob = some ⟨t, s.nextLine, []⟩ ∧ (sdk.ring t).entries.Nodup ∧
      ∀ n ∈ (sdk.ring t).entries, n < s.nextLine

theorem logInv_start (h : SessionStart sdk s) : LogInv sdk s := by
  obtain ⟨hwell, hempty, hsent, o, hrep, hblob⟩ := h
  refine ⟨hwell, ?_, ?_, ?_, ?_, o, hrep, fun t ht => ?_⟩
  · rw [hempty]
    exact List.nodup_nil
  · rw [hempty]
    exact fun n hn => absurd hn List.not_mem_nil
  · rw [hsent]
    exact fun n hn => absurd hn List.not_mem_nil
  · rw [hsent]
    exact fun n hn => absurd hn List.not_mem_nil
  · obtain ⟨hb, hnodup, hlt⟩ := hblob t ht
    refine ⟨_, hb, rfl, le_rfl, hnodup, hlt, fun n hn => absurd hn List.not_mem_nil, ?_⟩
    rw [hempty]
    exact fun n hn => absurd hn List.not_mem_nil

/-- The context is the number of lines and the read mark, each storage byte the number of a line. -/
def cellRing (s : LogSnapshot) : LogRing :=
  match s.context with
  | [count, read] =>
    { entries := (s.storage.take count.toNat).map UInt8.toNat
      read := min read.toNat (s.storage.take count.toNat).length
      read_le := by rw [List.length_map]; exact Nat.min_le_right _ _ }
  | _ => ⟨[], 0, le_rfl⟩

/-- Append while there is room, else drop the line. -/
def cellSave (n : ℕ) (s : LogSnapshot) : LogSnapshot :=
  match s.context with
  | [count, read] =>
    if n < 256 ∧ count.toNat < s.storage.length ∧ count.toNat < 255 then
      ⟨[count + 1, UInt8.ofNat (min read.toNat count.toNat)],
        s.storage.set count.toNat (UInt8.ofNat n)⟩
    else s
  | _ => s

def cellMarkRead (k : ℕ) (s : LogSnapshot) : LogSnapshot :=
  match s.context with
  | [count, read] =>
    let len := (s.storage.take count.toNat).length
    ⟨[count, UInt8.ofNat (min (min read.toNat len + k) len)], s.storage⟩
  | _ => s

theorem uint8_toNat_ofNat {n : ℕ} (h : n < 256) : (UInt8.ofNat n).toNat = n := by
  rw [UInt8.toNat_ofNat']
  exact Nat.mod_eq_of_lt h

theorem cellSave_ring (n : ℕ) (s : LogSnapshot) :
    cellRing (cellSave n s) = cellRing s ∨
      ∃ k, cellRing (cellSave n s) = (cellRing s).save k n := by
  obtain ⟨context, storage⟩ := s
  match context with
  | [] => exact Or.inl rfl
  | [_] => exact Or.inl rfl
  | _ :: _ :: _ :: _ => exact Or.inl rfl
  | [count, read] =>
    by_cases h : n < 256 ∧ count.toNat < storage.length ∧ count.toNat < 255
    · right
      refine ⟨0, ?_⟩
      obtain ⟨hn, hroom, hcount⟩ := h
      have hsucc : (count + 1).toNat = count.toNat + 1 := by
        rw [UInt8.toNat_add]
        exact Nat.mod_eq_of_lt (by simpa using Nat.succ_lt_succ hcount)
      have htake : (storage.set count.toNat (UInt8.ofNat n)).take (count.toNat + 1)
          = storage.take count.toNat ++ [UInt8.ofNat n] := by
        rw [List.take_succ_eq_append_getElem (by rw [List.length_set]; exact hroom),
          List.take_set_of_le le_rfl, List.getElem_set_self]
      have hlen : (storage.take count.toNat).length = count.toNat := by
        rw [List.length_take]
        omega
      have hread : min read.toNat count.toNat < 256 := by omega
      ext1
      · simp only [cellRing, cellSave, hn, hroom, hcount, and_self, if_true, hsucc, htake,
          LogRing.save, List.drop_zero, List.map_append, List.map_cons, List.map_nil,
          uint8_toNat_ofNat hn]
      · simp only [cellRing, cellSave, hn, hroom, hcount, and_self, if_true, hsucc, htake,
          LogRing.save, List.length_append, hlen, List.length_singleton,
          uint8_toNat_ofNat hread]
        omega
    · left
      simp only [cellSave, if_neg h]

theorem cellMarkRead_ring (k : ℕ) (s : LogSnapshot) :
    cellRing (cellMarkRead k s) = (cellRing s).markRead k := by
  obtain ⟨context, storage⟩ := s
  match context with
  | [] => simp [cellRing, cellMarkRead, LogRing.markRead]
  | [_] => simp [cellRing, cellMarkRead, LogRing.markRead]
  | _ :: _ :: _ :: _ => simp [cellRing, cellMarkRead, LogRing.markRead]
  | [count, read] =>
    have hcount : count.toNat < 256 := count.toNat_lt
    have hlen : (storage.take count.toNat).length ≤ count.toNat := List.length_take_le _ _
    ext1
    · rfl
    · simp only [cellRing, cellMarkRead, LogRing.markRead, List.length_map]
      rw [uint8_toNat_ofNat (by omega)]
      omega

def cellLog : LogSdk where
  ring := cellRing
  save := cellSave
  markRead := cellMarkRead
  save_context n s := by
    obtain ⟨context, storage⟩ := s
    match context with
    | [] | [_] | _ :: _ :: _ :: _ => rfl
    | [count, read] =>
      simp only [cellSave]
      split
      · rfl
      · rfl
  save_storage n s := by
    obtain ⟨context, storage⟩ := s
    match context with
    | [] | [_] | _ :: _ :: _ :: _ => rfl
    | [count, read] =>
      simp only [cellSave]
      split
      · exact List.length_set
      · rfl
  markRead_context k s := by
    obtain ⟨context, storage⟩ := s
    match context with
    | [] | [_] | _ :: _ :: _ :: _ => rfl
    | [count, read] => rfl
  markRead_storage k s := by
    obtain ⟨context, storage⟩ := s
    match context with
    | [] | [_] | _ :: _ :: _ :: _ => rfl
    | [count, read] => rfl
  ring_save := cellSave_ring
  ring_markRead := cellMarkRead_ring

/-- A device that has just booted, with an empty ring buffer of four cells and an erased partition. -/
def freshDevice : LogSystem where
  core := Core.boot 0
  flash := erased 32
  live := ⟨[0, 0], [0, 0, 0, 0]⟩
  nextLine := 0
  sent := []
  blob := none

theorem freshDevice_start : SessionStart cellLog freshDevice where
  wellSized := ⟨by decide, by decide, by decide, by decide⟩
  empty := rfl
  sent_nil := rfl
  content := ⟨none, rejected_of_first _ (by decide), fun t ht => by cases ht⟩

/-- A core event whose flash calls, if any, succeed. -/
def okEvent (e : CoreEvent) : LogSystemEvent := .core e fun _ => .ok

/-- WiFi connects, and the upload thread runs until `on_connect` has restored, posted and returned. -/
def connectAndUpload : List LogSystemEvent :=
  [.wifiMsg .wifiStaConnected, .uploadThread true, .elapse 2000, .uploadThread true,
    .uploadThread true, .uploadThread true, .uploadThread true, .uploadThread false,
    .uploadThread true, .uploadThread true, .uploadThread true].map okEvent

/-- WiFi is lost for ten seconds, and the delayed work persists. -/
def loseAndPersist : List LogSystemEvent :=
  [.wifiMsg .wifiStaDisconnected, .elapse 10000, .logFreezeWork].map okEvent

end WifiMemfault.LogReconnect
