import WifiMemfault.LogStateProgress
import WifiMemfault.Lib.Interleave

/-!
# A persist and a restore at the same time

The delayed work runs `memfaultLogStatePersistNow` on the system workqueue, the upload thread runs
`memfaultLogStateRestoreOnConnect`, and there is no lock: cancelling the work cannot stop a persist that
has begun.  Every flash call is one atomic step which succeeds, or fails without effect.

* `Overlap` is read off the log of the calls: how far the persist has come, and what has happened to
  the bytes the restore is about to copy.
* `Orderly` says which calls are harmless when they happen: the restore copies only bytes that the
  persist's erase has not taken away from under it, and the persist commits its header only over the
  payload it wrote, taken from a ring buffer that was not half restored.
* `RaceInv` is the invariant of orderly runs, one clause for the remainder of each thread.
-/

namespace WifiMemfault.LogStateRace

open EffectProgram ByteList NorFlash Interleave LogStateRestore LogStateImage LogStateSteps
  LogStateSpec LogStateProgress

inductive LogThread where
  | persist | restore
  deriving DecidableEq, Repr

abbrev LogEvent := Event (flashSig LogObj Unit LogCall) LogThread Empty

abbrev LogTurn := Turn LogThread Outcome Empty

abbrev RaceConfig := Config (flashSig LogObj Unit LogCall) LogThread Empty LogWorld ℤ

/-- Both calls are about to start over a partition `flash` with the live ring buffer `live`. -/
def raceStart (flash : List UInt8) (live : LogSnapshot) : RaceConfig where
  threads
    | .persist => memfaultLogStatePersistNow
    | .restore => restoreFromPartition
  world := liveWorld flash live
  events := []
  past := []

/-- Nobody else touches the device. -/
def nobodyElse (e : Empty) (_ : LogWorld) : LogWorld := nomatch e

/-- A schedule of the two threads: they share nothing but the device. -/
def race (flash : List UInt8) (live : LogSnapshot) (turns : List LogTurn) : RaceConfig :=
  runTurns atomicDevice nobodyElse (raceStart flash live) turns

/-! ### What has happened so far -/

/-- The state of the overlap, as the log tells it. -/
structure Overlap where
  /-- How many of the persist's erase, context write, storage write and header write succeeded. -/
  written : ℕ
  /-- The persist has erased the partition since the restore read the header. -/
  erasedAfterHdr : Bool
  /-- The restore has erased the partition since the persist wrote the context. -/
  payloadLost : Bool
  /-- The restore has copied the context over the live one and not yet the storage. -/
  halfRestored : Bool
  deriving DecidableEq, Repr

/-- The overlap after one more call.  Failed calls have no effect. -/
def Overlap.after (g : Overlap) : LogEvent → Overlap
  | .call .persist (.erase _ _) err =>
    if err = (0 : ℤ) then { g with written := 1, erasedAfterHdr := true } else g
  | .call .persist (.writeFrom _ .context _) err =>
    if err = (0 : ℤ) then { g with written := 2, payloadLost := false } else g
  | .call .persist (.writeFrom _ .storage _) err =>
    if err = (0 : ℤ) then { g with written := 3 } else g
  | .call .persist (.writeLocal _ _) err =>
    if err = (0 : ℤ) then { g with written := 4 } else g
  | .call .restore (.readLocal _ _) (.ok _) => { g with erasedAfterHdr := false }
  | .call .restore (.readInto _ .context _) err =>
    if err = (0 : ℤ) then { g with halfRestored := true } else g
  | .call .restore (.readInto _ .storage _) err =>
    if err = (0 : ℤ) then { g with halfRestored := false } else g
  | .call .restore (.erase _ _) err =>
    if err = (0 : ℤ) then { g with payloadLost := true } else g
  | _ => g

def overlap : List LogEvent → Overlap
  | [] => ⟨0, false, false, false⟩
  | e :: h => (overlap h).after e

/-- The call `e` after the log `h` does not run into the other thread. -/
def Orderly (h : List LogEvent) : LogEvent → Prop
  | .call .restore (.readInto _ .context _) err =>
    err = (0 : ℤ) → (overlap h).erasedAfterHdr = true → 2 ≤ (overlap h).written
  | .call .restore (.readInto _ .storage _) err =>
    err = (0 : ℤ) → (overlap h).erasedAfterHdr = true → 3 ≤ (overlap h).written
  | .call .persist (.writeFrom _ .context _) err =>
    err = (0 : ℤ) → (overlap h).halfRestored = false
  | .call .persist (.writeLocal _ _) err =>
    err = (0 : ℤ) → (overlap h).payloadLost = false
  | _ => True

instance (h : List LogEvent) (e : LogEvent) : Decidable (Orderly h e) := by
  unfold Orderly
  split <;> infer_instance

/-! ### The invariant -/

section Invariant

variable (l : LogSnapshot) (o : Option LogSnapshot) (n : ℕ)

/-- The live ring buffer is one snapshot `t`, the one before the race or the old blob's. -/
structure Whole (g : Overlap) (w : LogWorld) (t : LogSnapshot) : Prop where
  ram_eq : w.ram = liveRam t
  length_eq : w.flash.length = n
  flash_at : FlashAt o n t g.written g.payloadLost w.flash
  origin : t = l ∨ o = some t
  context_len : t.context.length = l.context.length
  storage_len : t.storage.length = l.storage.length

/-- The live ring buffer has the old blob's context and still its own storage. -/
structure HalfCopied (g : Overlap) (w : LogWorld) (s : LogSnapshot) : Prop where
  ram_eq : w.ram = liveRam ⟨s.context, l.storage⟩
  length_eq : w.flash.length = n
  flash_at : FlashAt o n s g.written g.payloadLost w.flash
  origin : o = some s
  half : g.halfRestored = true
  written_le : g.written ≤ 1
  context_len : s.context.length = l.context.length
  storage_len : s.storage.length = l.storage.length

/-- Unless the persist has erased it, the blob whose header was read is still there. -/
def Reading (g : Overlap) (w : LogWorld) (s : LogSnapshot) : Prop :=
  g.erasedAfterHdr = false →
    Holds w.flash s ∧ ((g.written = 0 ∧ o = some s) ∨ (g.written = 4 ∧ s = l))

/-- A header that passes the comparison with the live lengths belongs to a blob. -/
def Accepted (g : Overlap) (w : LogWorld) (hdr : LogStateHdr) : Prop :=
  hdr.contextLen = UInt32.ofNat l.context.length ∧
      hdr.storageLen = UInt32.ofNat l.storage.length →
    hdrSize + l.context.length + l.storage.length ≤ n ∧
      ∃ s, s.context.length = l.context.length ∧ s.storage.length = l.storage.length ∧
        Reading l o g w s

/-- The copy is over: complete, or with an error. -/
def Copied (g : Overlap) (w : LogWorld) (r : ℤ) : Prop :=
  (∃ t, Whole l o n g w t) ∨ (r ≠ 0 ∧ ∃ s, HalfCopied l o n g w s)

/-- What is left of the restore, and what it relies on until then. -/
inductive RestoreAt (g : Overlap) (w : LogWorld) : LogProg ℤ → Prop where
  | begin (h : Whole l o n g w l) (hlost : g.payloadLost = false) :
      RestoreAt g w (.call .openArea restoreOpened)
  | opened (h : Whole l o n g w l) (hlost : g.payloadLost = false) :
      RestoreAt g w (.call (.readLocal 0 hdrSize) (restoreHdrRead n))
  | checked (hdr : LogStateHdr) (h : Whole l o n g w l) (hlost : g.payloadLost = false)
      (hn : hdrSize ≤ n) (hacc : Accepted l o n g w hdr) :
      RestoreAt g w (.call (.objectSize .context) fun c => .call (.objectSize .storage) fun s =>
        restoreSized hdr n c s)
  | sized (hdr : LogStateHdr) (h : Whole l o n g w l) (hlost : g.payloadLost = false)
      (hn : hdrSize ≤ n) (hacc : Accepted l o n g w hdr) :
      RestoreAt g w (.call (.objectSize .storage) fun s =>
        restoreSized hdr n (some l.context.length) s)
  | copyContext (s : LogSnapshot) (h : Whole l o n g w l) (hlost : g.payloadLost = false)
      (hfit : hdrSize + l.context.length + l.storage.length ≤ n)
      (hc : s.context.length = l.context.length) (hs : s.storage.length = l.storage.length)
      (hread : Reading l o g w s) :
      RestoreAt g w (.call (.readInto hdrSize .context l.context.length) fun err =>
        if err = 0 then restoreCopyStorage l.context.length l.storage.length n
        else restoreErase n err)
  | copyStorage (s : LogSnapshot) (hlost : g.payloadLost = false)
      (hfit : hdrSize + l.context.length + l.storage.length ≤ n)
      (hread : Reading l o g w s)
      (h : (s = l ∧ Whole l o n g w l) ∨ HalfCopied l o n g w s) :
      RestoreAt g w (.call (.readInto (hdrSize + l.context.length) .storage l.storage.length)
        fun err => restoreErase n err)
  | erase (r : ℤ) (hn : hdrSize ≤ n) (h : Copied l o n g w r) :
      RestoreAt g w (.call (.erase 0 n) fun _ => .ret r)
  | returned (r : ℤ) (h : Copied l o n g w r) : RestoreAt g w (.ret r)

/-- The invariant of orderly races. -/
structure RaceInv (c : RaceConfig) : Prop where
  persist_at : PersistAt l n (c.threads .persist) (overlap c.events).written
  restore_at : RestoreAt l o n (overlap c.events) c.world (c.threads .restore)

variable {l o n} {g g' : Overlap} {w w' : LogWorld}

theorem restoreAt_live {p : LogProg ℤ} (h : RestoreAt l o n g w p) :
    (∃ t, Whole l o n g w t) ∨ ∃ s, HalfCopied l o n g w s := by
  cases h with
  | begin h _ => exact Or.inl ⟨l, h⟩
  | opened h _ => exact Or.inl ⟨l, h⟩
  | checked _ h _ _ _ => exact Or.inl ⟨l, h⟩
  | sized _ h _ _ _ => exact Or.inl ⟨l, h⟩
  | copyContext _ h _ _ _ _ _ => exact Or.inl ⟨l, h⟩
  | copyStorage s _ _ _ h =>
    rcases h with ⟨-, h⟩ | h
    · exact Or.inl ⟨l, h⟩
    · exact Or.inr ⟨s, h⟩
  | erase _ _ h => exact h.imp id And.right
  | returned _ h => exact h.imp id And.right

/-- What a step of the persist must respect so that the restore can go on. -/
structure PersistMove (l : LogSnapshot) (o : Option LogSnapshot) (n : ℕ) (g : Overlap)
    (w : LogWorld) (g' : Overlap) (w' : LogWorld) : Prop where
  whole : ∀ t, Whole l o n g w t → Whole l o n g' w' t
  half : ∀ s, HalfCopied l o n g w s → HalfCopied l o n g' w' s
  reading : ∀ s, Reading l o g w s → Reading l o g' w' s
  lost : g.payloadLost = false → g'.payloadLost = false

theorem PersistMove.accepted (m : PersistMove l o n g w g' w') {hdr : LogStateHdr}
    (h : Accepted l o n g w hdr) : Accepted l o n g' w' hdr := by
  intro hsame
  obtain ⟨hfit, s, hc, hs, hread⟩ := h hsame
  exact ⟨hfit, s, hc, hs, m.reading s hread⟩

theorem PersistMove.copied (m : PersistMove l o n g w g' w') {r : ℤ}
    (h : Copied l o n g w r) : Copied l o n g' w' r := by
  rcases h with ⟨t, ht⟩ | ⟨hr, s, hs⟩
  · exact Or.inl ⟨t, m.whole t ht⟩
  · exact Or.inr ⟨hr, s, m.half s hs⟩

/-- The restore's clause survives every such step. -/
theorem PersistMove.restoreAt (m : PersistMove l o n g w g' w') {p : LogProg ℤ}
    (h : RestoreAt l o n g w p) : RestoreAt l o n g' w' p := by
  cases h with
  | begin h hlost => exact .begin (m.whole l h) (m.lost hlost)
  | opened h hlost => exact .opened (m.whole l h) (m.lost hlost)
  | checked hdr h hlost hn hacc =>
    exact .checked hdr (m.whole l h) (m.lost hlost) hn (m.accepted hacc)
  | sized hdr h hlost hn hacc =>
    exact .sized hdr (m.whole l h) (m.lost hlost) hn (m.accepted hacc)
  | copyContext s h hlost hfit hc hs hread =>
    exact .copyContext s (m.whole l h) (m.lost hlost) hfit hc hs (m.reading s hread)
  | copyStorage s hlost hfit hread h =>
    exact .copyStorage s (m.lost hlost) hfit (m.reading s hread)
      (h.imp (fun h => ⟨h.1, m.whole l h.2⟩) (m.half s))
  | erase r hn h => exact .erase r hn (m.copied h)
  | returned r h => exact .returned r (m.copied h)

/-! ### The persist's steps -/

theorem persistMove_erase (hlen : w.flash.length = n) :
    PersistMove l o n g w { g with written := 1, erasedAfterHdr := true }
      { w with flash := eraseRange 0 n w.flash } where
  whole t h := ⟨h.ram_eq, (eraseRange_length 0 n _ (by omega)).trans hlen, flashAt_erase _ hlen,
    h.origin, h.context_len, h.storage_len⟩
  half s h := ⟨h.ram_eq, (eraseRange_length 0 n _ (by omega)).trans hlen, flashAt_erase _ hlen,
    h.origin, h.half, le_rfl, h.context_len, h.storage_len⟩
  reading s _ := fun h => Bool.noConfusion h
  lost h := h

/-- The context write takes the live context, which is not half restored. -/
theorem persistMove_writeContext (hk : g.written = 1) (hhalf : g.halfRestored = false)
    (hfit : hdrSize + l.context.length + l.storage.length ≤ n) :
    PersistMove l o n g w { g with written := 2, payloadLost := false }
      { w with flash :=
        program hdrSize ((w.bytes .context).take l.context.length) w.flash } where
  whole t h := by
    have hat := h.flash_at
    rw [hk] at hat
    have hc := h.context_len
    have hs := h.storage_len
    have hlen := h.length_eq
    rw [bytes_context_take t h.ram_eq hc]
    refine ⟨h.ram_eq, ?_, flashAt_writeContext hat (by omega), h.origin, hc, hs⟩
    rw [program_length _ _ _ (by omega), hlen]
  half s h := by
    have hh := h.half
    rw [hhalf] at hh
    exact absurd hh (by decide)
  reading s h := by
    intro hA
    rcases (h hA).2 with ⟨h0, -⟩ | ⟨h4, -⟩
    · omega
    · omega
  lost _ := rfl

theorem persistMove_writeStorage (hk : g.written = 2)
    (hfit : hdrSize + l.context.length + l.storage.length ≤ n) :
    PersistMove l o n g w { g with written := 3 }
      { w with
        flash :=
          program (hdrSize + l.context.length) ((w.bytes .storage).take l.storage.length)
            w.flash } where
  whole t h := by
    have hat := h.flash_at
    rw [hk] at hat
    have hc := h.context_len
    have hs := h.storage_len
    have hlen := h.length_eq
    rw [bytes_storage_take t h.ram_eq hs, ← hc]
    refine ⟨h.ram_eq, ?_, flashAt_writeStorage hat hlen (by omega), h.origin, hc, hs⟩
    rw [program_length _ _ _ (by omega), hlen]
  half s h := by
    have hle := h.written_le
    omega
  reading s h := by
    intro hA
    rcases (h hA).2 with ⟨h0, -⟩ | ⟨h4, -⟩
    · omega
    · omega
  lost h := h

/-- The header write commits a payload that is still there. -/
theorem persistMove_writeHeader (hk : g.written = 3) (hlost : g.payloadLost = false)
    (hfit : hdrSize + l.context.length + l.storage.length ≤ n) :
    PersistMove l o n g w { g with written := 4 }
      { w with flash :=
        program 0 (blobHdr l.context.length l.storage.length).toBytes w.flash } where
  whole t h := by
    have hat := h.flash_at
    rw [hk, hlost] at hat
    have hc := h.context_len
    have hs := h.storage_len
    have hlen := h.length_eq
    have hnew := flashAt_writeHeader hat
    rw [snapshotHdr, hc, hs] at hnew
    refine ⟨h.ram_eq, ?_, ?_, h.origin, hc, hs⟩
    · rw [program_length _ _ _ (by rw [toBytes_length]; omega), hlen]
    · show FlashAt o n t 4 g.payloadLost _
      rw [hlost]
      exact hnew
  half s h := by
    have hle := h.written_le
    omega
  reading s h := by
    intro hA
    rcases (h hA).2 with ⟨h0, -⟩ | ⟨h4, -⟩
    · omega
    · omega
  lost h := h

theorem PersistMove.refl : PersistMove l o n g w g w :=
  ⟨fun _ h => h, fun _ h => h, fun _ h => h, fun h => h⟩

/-- The sizes of the shared objects never change. -/
theorem restoreAt_sizes {p : LogProg ℤ} (h : RestoreAt l o n g w p) :
    (w.ram .context).map List.length = some l.context.length ∧
      (w.ram .storage).map List.length = some l.storage.length ∧ w.flash.length = n := by
  rcases restoreAt_live h with ⟨t, ht⟩ | ⟨s, hs⟩
  · rw [ht.ram_eq]
    exact ⟨congrArg some ht.context_len, congrArg some ht.storage_len, ht.length_eq⟩
  · rw [hs.ram_eq]
    exact ⟨congrArg some hs.context_len, rfl, hs.length_eq⟩

variable {c : RaceConfig} {out : Outcome}

theorem raceInv_of_persist (hinv : RaceInv l o n c) {e : LogEvent} {p : LogProg ℤ}
    (hp : PersistAt l n p (overlap (e :: c.events)).written)
    (m : PersistMove l o n (overlap c.events) c.world (overlap (e :: c.events)) w') :
    RaceInv l o n ⟨Function.update c.threads .persist p, w', e :: c.events, c.world :: c.past⟩ where
  persist_at := by
    show PersistAt l n (Function.update c.threads .persist p .persist) _
    rw [Function.update_self]
    exact hp
  restore_at := by
    show RestoreAt l o n _ w' (Function.update c.threads .persist p .restore)
    rw [Function.update_of_ne (by decide)]
    exact m.restoreAt hinv.restore_at

/-- **One call of the persist.** -/
theorem raceInv_persist (hinv : RaceInv l o n c) {op : (flashSig LogObj Unit LogCall).Op}
    {next : (flashSig LogObj Unit LogCall).Ans op → LogProg ℤ}
    {x : (flashSig LogObj Unit LogCall).Ans op} (hp : c.threads .persist = .call op next)
    (hs : atomicDevice.step op out c.world = (some x, w'))
    (hguard : Orderly c.events (.call .persist op x)) :
    RaceInv l o n
      ⟨Function.update c.threads .persist (next x), w', .call .persist op x :: c.events,
        c.world :: c.past⟩ := by
  obtain ⟨hcl, hsl, hlen⟩ := restoreAt_sizes hinv.restore_at
  have hat := hinv.persist_at
  rw [hp] at hat
  generalize hk : (overlap c.events).written = k at hat
  cases hat with
  | begin =>
    obtain ⟨rfl, hx⟩ := atomic_objectSize hs
    rw [hcl] at hx
    subst hx
    exact raceInv_of_persist hinv (hk ▸ .sized) .refl
  | sized =>
    obtain ⟨rfl, hx⟩ := atomic_objectSize hs
    rw [hsl] at hx
    subst hx
    exact raceInv_of_persist hinv (hk ▸ .opening) .refl
  | opening =>
    obtain ⟨rfl, ⟨e, rfl⟩ | rfl⟩ := atomic_openArea hs
    · exact raceInv_of_persist hinv (.failed _ e e.property.ne) .refl
    · refine raceInv_of_persist hinv ?_ .refl
      rw [hlen]
      exact hk ▸ persistAt_opened
  | erase hfit =>
    rcases atomic_erase (by omega) hs with ⟨rfl, rfl⟩ | ⟨hx, rfl⟩
    · exact raceInv_of_persist hinv (.context hfit) (persistMove_erase hlen)
    · have hg : overlap (.call .persist (.erase 0 n) x :: c.events) = overlap c.events :=
        if_neg hx
      exact raceInv_of_persist hinv (persistAt_failed hx _ _) (hg ▸ .refl)
  | context hfit =>
    rcases atomic_writeFrom (by omega) hs with ⟨rfl, rfl⟩ | ⟨hx, rfl⟩
    · exact raceInv_of_persist hinv (.storage hfit)
        (persistMove_writeContext hk (hguard rfl) hfit)
    · have hg : overlap (.call .persist (.writeFrom hdrSize .context l.context.length) x ::
          c.events) = overlap c.events := if_neg hx
      exact raceInv_of_persist hinv (persistAt_failed hx _ _) (hg ▸ .refl)
  | storage hfit =>
    rcases atomic_writeFrom (by omega) hs with ⟨rfl, rfl⟩ | ⟨hx, rfl⟩
    · exact raceInv_of_persist hinv (.header hfit) (persistMove_writeStorage hk hfit)
    · have hg : overlap (.call .persist (.writeFrom (hdrSize + l.context.length) .storage
          l.storage.length) x :: c.events) = overlap c.events := if_neg hx
      exact raceInv_of_persist hinv (persistAt_failed hx _ _) (hg ▸ .refl)
  | header hfit =>
    rcases atomic_writeLocal (by rw [toBytes_length]; omega) hs with ⟨rfl, rfl⟩ | ⟨hx, rfl⟩
    · exact raceInv_of_persist hinv (.done hfit)
        (persistMove_writeHeader hk (hguard rfl) hfit)
    · have hg : overlap (.call .persist (.writeLocal 0 (blobHdr l.context.length
          l.storage.length).toBytes) x :: c.events) = overlap c.events := if_neg hx
      exact raceInv_of_persist hinv (.failed _ _ hx) (hg ▸ .refl)

/-! ### The restore's steps -/

theorem raceInv_of_restore (hinv : RaceInv l o n c) {e : LogEvent} {p : LogProg ℤ}
    (hw : (overlap (e :: c.events)).written = (overlap c.events).written)
    (hr : RestoreAt l o n (overlap (e :: c.events)) w' p) :
    RaceInv l o n ⟨Function.update c.threads .restore p, w', e :: c.events, c.world :: c.past⟩ where
  persist_at := by
    show PersistAt l n (Function.update c.threads .restore p .persist) (overlap (e :: c.events)).written
    rw [Function.update_of_ne (by decide), hw]
    exact hinv.persist_at
  restore_at := by
    show RestoreAt l o n _ w' (Function.update c.threads .restore p .restore)
    rw [Function.update_self]
    exact hr

theorem eq_liveWorld (t : LogSnapshot) (h : w.ram = liveRam t) : w = liveWorld w.flash t := by
  obtain ⟨flash, ram, ⟨⟩⟩ := w
  have h' : ram = liveRam t := h
  rw [h']
  rfl

/-- The header read: what it accepts is the blob that is there at that moment. -/
theorem restoreAt_headerRead (hl : l.WellSized) (h : Whole l o n g w l)
    (hlost : g.payloadLost = false) (hn : hdrSize ≤ n) :
    RestoreAt l o n { g with erasedAfterHdr := false } w
      (restoreChecked (LogStateHdr.ofBytes (readRange 0 hdrSize w.flash)) n) := by
  have hwhole : Whole l o n { g with erasedAfterHdr := false } w l :=
    ⟨h.ram_eq, h.length_eq, h.flash_at, h.origin, rfl, rfl⟩
  simp only [restoreChecked]
  by_cases hv : (LogStateHdr.ofBytes (readRange 0 hdrSize w.flash)).Valid
  · rw [if_pos hv]
    refine .checked _ hwhole hlost hn fun hsame => ?_
    have hlen := h.length_eq
    have hat := h.flash_at
    rw [hlost] at hat
    obtain ⟨s, hholds, hwhich, hc, hs⟩ := flashAt_accepted hat hl ⟨by omega, hv, hsame⟩
    have hfit := holds_length _ s hholds
    exact ⟨by omega, s, hc.symm, hs.symm, fun _ => ⟨hholds, hwhich⟩⟩
  · rw [if_neg hv]
    exact .returned _ (Or.inl ⟨l, hwhole⟩)

/-- The context copy: bytes of the blob whose header was read, or the live ones coming back. -/
theorem restoreAt_copiedContext (s : LogSnapshot) (h : Whole l o n g w l)
    (hlost : g.payloadLost = false) (hfit : hdrSize + l.context.length + l.storage.length ≤ n)
    (hc : s.context.length = l.context.length) (hs : s.storage.length = l.storage.length)
    (hread : Reading l o g w s) (hguard : g.erasedAfterHdr = true → 2 ≤ g.written) :
    RestoreAt l o n { g with halfRestored := true }
      (w.fill .context (readRange hdrSize l.context.length w.flash))
      (restoreCopyStorage l.context.length l.storage.length n) := by
  have hback : ∀ xs, xs = l.context → w.fill .context xs = w := by
    intro xs hxs
    rw [eq_liveWorld l h.ram_eq, hxs, fill_context _ _ l rfl]
  have hown : readRange hdrSize l.context.length w.flash = l.context → Reading l o g w l →
      RestoreAt l o n { g with halfRestored := true }
        (w.fill .context (readRange hdrSize l.context.length w.flash))
        (restoreCopyStorage l.context.length l.storage.length n) := by
    intro hctx hreadl
    rw [hback _ hctx]
    exact .copyStorage l hlost hfit hreadl
      (Or.inl ⟨rfl, h.ram_eq, h.length_eq, h.flash_at, h.origin, rfl, rfl⟩)
  have hat := h.flash_at
  rw [hlost] at hat
  by_cases hA : g.erasedAfterHdr = true
  · refine hown (flashAt_readContext hat (hguard hA)) fun hA' => ?_
    rw [hA] at hA'
    exact Bool.noConfusion hA'
  · obtain ⟨hholds, ⟨h0, ho⟩ | ⟨h4, rfl⟩⟩ := hread (Bool.not_eq_true _ ▸ hA)
    · obtain ⟨rest, hrest⟩ := id hholds
      have hctx : readRange hdrSize l.context.length w.flash = s.context := by
        rw [← hc, hrest, readRange_context]
      have hfill : w.fill .context s.context = liveWorld w.flash ⟨s.context, l.storage⟩ := by
        rw [← fill_context w.flash s.context l hc, ← eq_liveWorld l h.ram_eq]
      rw [hctx, hfill]
      refine .copyStorage s hlost hfit (fun _ => ⟨hholds, Or.inl ⟨h0, ho⟩⟩) (Or.inr ?_)
      have hold : FlashAt o n s g.written g.payloadLost w.flash := by
        have hat' := h.flash_at
        rw [h0] at hat' ⊢
        exact flashAt_zero hat' s
      exact ⟨rfl, h.length_eq, hold, ho, rfl, by show g.written ≤ 1; omega, hc, hs⟩
    · obtain ⟨rest, hrest⟩ := id hholds
      refine hown ?_ hread
      rw [hrest, readRange_context]

/-- The storage copy completes a snapshot. -/
theorem copied_storage (s : LogSnapshot) (hlost : g.payloadLost = false)
    (hread : Reading l o g w s) (h : (s = l ∧ Whole l o n g w l) ∨ HalfCopied l o n g w s)
    (hguard : g.erasedAfterHdr = true → 3 ≤ g.written) :
    Copied l o n { g with halfRestored := false }
      (w.fill .storage (readRange (hdrSize + l.context.length) l.storage.length w.flash)) 0 := by
  rcases h with ⟨rfl, h⟩ | h
  · have hsto : readRange (hdrSize + s.context.length) s.storage.length w.flash = s.storage := by
      have hat := h.flash_at
      rw [hlost] at hat
      cases hA : g.erasedAfterHdr with
      | true => exact flashAt_readStorage hat (hguard hA)
      | false =>
        obtain ⟨rest, hrest⟩ := (hread hA).1
        rw [hrest, readRange_storage]
    have hback : w.fill .storage s.storage = w := by
      rw [eq_liveWorld s h.ram_eq, fill_storage _ _ s rfl]
    rw [hsto, hback]
    exact Or.inl ⟨s, h.ram_eq, h.length_eq, h.flash_at, h.origin, rfl, rfl⟩
  · have hle := h.written_le
    cases hA : g.erasedAfterHdr with
    | true =>
      have h3 := hguard hA
      omega
    | false =>
      obtain ⟨rest, hrest⟩ := (hread hA).1
      have hsto : readRange (hdrSize + l.context.length) l.storage.length w.flash = s.storage := by
        rw [← h.context_len, ← h.storage_len, hrest, readRange_storage]
      have hfill : w.fill .storage s.storage = liveWorld w.flash s := by
        rw [eq_liveWorld ⟨s.context, l.storage⟩ h.ram_eq]
        exact fill_storage w.flash s.storage ⟨s.context, l.storage⟩ h.storage_len
      rw [hsto, hfill]
      exact Or.inl ⟨s, rfl, h.length_eq, h.flash_at, Or.inr h.origin, h.context_len, h.storage_len⟩

theorem copied_erase {r : ℤ} (h : Copied l o n g w r) (hn : hdrSize ≤ n) :
    Copied l o n { g with payloadLost := true } { w with flash := eraseRange 0 n w.flash } r := by
  rcases h with ⟨t, h⟩ | ⟨hr, s, h⟩
  · have hlen := h.length_eq
    exact Or.inl ⟨t, h.ram_eq, (eraseRange_length 0 n _ (by omega)).trans hlen,
      flashAt_discard h.flash_at hlen hn, h.origin, h.context_len, h.storage_len⟩
  · have hlen := h.length_eq
    exact Or.inr ⟨hr, s, h.ram_eq, (eraseRange_length 0 n _ (by omega)).trans hlen,
      flashAt_discard h.flash_at hlen hn, h.origin, h.half, h.written_le, h.context_len,
      h.storage_len⟩

/-- **One call of the restore.** -/
theorem raceInv_restore (hl : l.WellSized) (hinv : RaceInv l o n c)
    {op : (flashSig LogObj Unit LogCall).Op}
    {next : (flashSig LogObj Unit LogCall).Ans op → LogProg ℤ}
    {x : (flashSig LogObj Unit LogCall).Ans op} (hp : c.threads .restore = .call op next)
    (hs : atomicDevice.step op out c.world = (some x, w'))
    (hguard : Orderly c.events (.call .restore op x)) :
    RaceInv l o n
      ⟨Function.update c.threads .restore (next x), w', .call .restore op x :: c.events,
        c.world :: c.past⟩ := by
  obtain ⟨hcl, hsl, hlen⟩ := restoreAt_sizes hinv.restore_at
  have hat := hinv.restore_at
  rw [hp] at hat
  cases hat with
  | begin h hlost =>
    obtain ⟨rfl, ⟨e, rfl⟩ | rfl⟩ := atomic_openArea hs
    · exact raceInv_of_restore hinv rfl (.returned _ (Or.inl ⟨l, h⟩))
    · refine raceInv_of_restore hinv rfl ?_
      show RestoreAt l o n _ _ (.call (.readLocal 0 hdrSize) (restoreHdrRead c.world.flash.length))
      rw [hlen]
      exact .opened h hlost
  | opened h hlost =>
    obtain ⟨rfl, ⟨e, rfl⟩ | ⟨hn, rfl⟩⟩ := atomic_readLocal hs
    · exact raceInv_of_restore hinv rfl (.returned _ (Or.inl ⟨l, h⟩))
    · exact raceInv_of_restore hinv rfl (restoreAt_headerRead hl h hlost (by omega))
  | checked hdr h hlost hn hacc =>
    obtain ⟨rfl, hx⟩ := atomic_objectSize hs
    rw [hcl] at hx
    subst hx
    exact raceInv_of_restore hinv rfl (.sized hdr h hlost hn hacc)
  | sized hdr h hlost hn hacc =>
    obtain ⟨rfl, hx⟩ := atomic_objectSize hs
    rw [hsl] at hx
    subst hx
    refine raceInv_of_restore hinv rfl ?_
    simp only [restoreSized]
    split
    · rename_i hsame
      obtain ⟨hfit, s, hc, hs', hread⟩ := hacc hsame
      rw [hsame.1, hsame.2, ofNat_toNat_of_lt _ hl.context_word, ofNat_toNat_of_lt _ hl.storage_word]
      exact .copyContext s h hlost hfit hc hs' hread
    · exact .erase enospc hn (Or.inl ⟨l, h⟩)
  | copyContext s h hlost hfit hc hs' hread =>
    rcases atomic_readInto (by omega) hs with ⟨rfl, rfl⟩ | ⟨hx, rfl⟩
    · exact raceInv_of_restore hinv rfl
        (restoreAt_copiedContext s h hlost hfit hc hs' hread (hguard rfl))
    · have hg : overlap (.call .restore (.readInto hdrSize .context l.context.length) x ::
          c.events) = overlap c.events := if_neg hx
      refine raceInv_of_restore hinv (by rw [hg]) ?_
      rw [hg]
      show RestoreAt l o n _ _ (if x = (0 : ℤ) then restoreCopyStorage l.context.length
        l.storage.length n else restoreErase n x)
      rw [if_neg hx]
      exact .erase x (by omega) (Or.inl ⟨l, h⟩)
  | copyStorage s hlost hfit hread h =>
    rcases atomic_readInto (by omega) hs with ⟨rfl, rfl⟩ | ⟨hx, rfl⟩
    · exact raceInv_of_restore hinv rfl
        (.erase 0 (by omega) (copied_storage s hlost hread h (hguard rfl)))
    · have hg : overlap (.call .restore (.readInto (hdrSize + l.context.length) .storage
          l.storage.length) x :: c.events) = overlap c.events := if_neg hx
      refine raceInv_of_restore hinv (by rw [hg]) ?_
      rw [hg]
      exact .erase x (by omega) (h.imp (fun h => ⟨l, h.2⟩) fun h => ⟨hx, s, h⟩)
  | erase r hn h =>
    rcases atomic_erase (by omega) hs with ⟨rfl, rfl⟩ | ⟨hx, rfl⟩
    · exact raceInv_of_restore hinv rfl (.returned r (copied_erase h hn))
    · have hg : overlap (.call .restore (.erase 0 n) x :: c.events) = overlap c.events :=
        if_neg hx
      refine raceInv_of_restore hinv (by rw [hg]) ?_
      rw [hg]
      exact .returned r h

/-- **One turn.** -/
theorem raceInv_step (hl : l.WellSized) (turn : LogTurn) (hinv : RaceInv l o n c)
    (hguard : Guarded Orderly (stepTurn atomicDevice nobodyElse c turn).events) :
    RaceInv l o n (stepTurn atomicDevice nobodyElse c turn) := by
  rcases stepTurn_cases atomicDevice nobodyElse c turn with
    hc | ⟨i, out, op, next, x, w, -, hp, hs, hc⟩ | ⟨e, -, -⟩
  · rw [hc]
    exact hinv
  · rw [hc] at hguard ⊢
    cases i with
    | persist => exact raceInv_persist hinv hp hs hguard.2
    | restore => exact raceInv_restore hl hinv hp hs hguard.2
  · exact nomatch e

theorem raceInv_start (flash : List UInt8) (hrep : Represents flash o) :
    RaceInv l o flash.length (raceStart flash l) where
  persist_at := by
    show PersistAt l flash.length memfaultLogStatePersistNow 0
    rw [memfaultLogStatePersistNow_eq]
    exact .begin
  restore_at := by
    show RestoreAt l o flash.length ⟨0, false, false, false⟩ (liveWorld flash l) restoreFromPartition
    rw [restoreFromPartition_eq]
    exact .begin ⟨rfl, rfl, .before false flash (Or.inl hrep), Or.inl rfl, rfl, rfl⟩ rfl

end Invariant

/-! ### Races -/

/-- What the two calls owe each other: a restore that returns zero leaves one whole snapshot in the
live ring buffer, and a persist that returns zero leaves one whole blob or no valid header. -/
structure RaceSound (live : LogSnapshot) (old : Option LogSnapshot) (c : RaceConfig) : Prop where
  restored : c.threads .restore = .ret 0 →
    ∃ t, (t = live ∨ old = some t) ∧ c.world.ram = liveRam t
  persisted : c.threads .persist = .ret 0 →
    (∃ t, (t = live ∨ old = some t) ∧ Holds c.world.flash t) ∨
      ¬ (LogStateHdr.ofBytes (readRange 0 hdrSize c.world.flash)).Valid

theorem erased_not_valid (n : ℕ) (hn : hdrSize ≤ n) :
    ¬ (LogStateHdr.ofBytes (readRange 0 hdrSize (erased n))).Valid := by
  have hread : readRange 0 hdrSize (erased n) = erased hdrSize := by
    rw [readRange, List.drop_zero, List.take_replicate, Nat.min_eq_left hn]
  rw [hread]
  decide

/-- The schedule in which the threads take these turns and every call succeeds. -/
def allOk (threads : List LogThread) : List LogTurn := threads.map fun i => .thread i .ok

def oldBlob : LogSnapshot := ⟨[1], [2, 3]⟩

def liveLog : LogSnapshot := ⟨[4], [5, 6]⟩

theorem liveLog_wellSized : liveLog.WellSized := ⟨by decide, by decide, by decide, by decide⟩

theorem oldBlob_represents : Represents (blobImage oldBlob ++ erased 5) (some oldBlob) :=
  ⟨⟨by decide, by decide, by decide, by decide⟩, _, rfl⟩

/-- The restore reads the header, the persist writes its payload, the restore copies it back, the
persist commits. -/
def orderlyTurns : List LogTurn :=
  allOk [.restore, .restore, .restore, .restore, .persist, .persist, .persist, .persist, .persist,
    .persist, .restore, .restore, .persist, .restore]

/-- The persist erases the partition after the restore has read the header, and writes only when the
restore is done. -/
def erasedUnderRestore : List LogTurn :=
  allOk [.restore, .restore, .restore, .restore, .persist, .persist, .persist, .persist, .restore,
    .restore, .restore, .persist, .persist, .persist]

end WifiMemfault.LogStateRace
