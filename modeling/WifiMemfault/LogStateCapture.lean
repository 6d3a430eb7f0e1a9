import WifiMemfault.LogStateProgress
import WifiMemfault.Lib.Interleave

/-!
# Log saves during a persist

Logging is deferred: while `memfaultLogStatePersistNow` runs on the system workqueue, the logging thread
may save lines, and a save changes the context and the storage together.  The persist writes the two in
two flash calls and takes no lock.

`quiet_persist_captures` is what remains true: if no save falls between the two payload writes, a persist
that returns zero has written the context and the storage the ring buffer had at one instant.
`saved_between_payload_writes` shows that a single save in between is enough to lose this.
-/

namespace WifiMemfault.LogStateCapture

open EffectProgram NorFlash Interleave LogStateRestore LogStateImage LogStateSteps LogStateSpec
  LogStateProgress

/-- The saves of the logging thread.  Each changes the bytes of the ring buffer in any way it likes,
but not their number. -/
structure LogSaves (E : Type) where
  save : E → LogSnapshot → LogSnapshot
  context_length : ∀ e s, (save e s).context.length = s.context.length
  storage_length : ∀ e s, (save e s).storage.length = s.storage.length

variable {E : Type} (M : LogSaves E)

/-- A save on the live objects. -/
def saveLive (e : E) (w : LogWorld) : LogWorld :=
  match w.ram .context, w.ram .storage with
  | some context, some storage => { w with ram := liveRam (M.save e ⟨context, storage⟩) }
  | _, _ => w

abbrev CaptureEvent (E : Type) := Event (flashSig LogObj Unit LogCall) Unit E

abbrev CaptureConfig (E : Type) := Config (flashSig LogObj Unit LogCall) Unit E LogWorld ℤ

abbrev CaptureTurn (E : Type) := Turn Unit Outcome E

def captureStart (flash : List UInt8) (live : LogSnapshot) : CaptureConfig E where
  threads _ := memfaultLogStatePersistNow
  world := liveWorld flash live
  events := []
  past := []

/-- One persist, with log saves between its flash calls. -/
def capture (flash : List UInt8) (live : LogSnapshot) (turns : List (CaptureTurn E)) :
    CaptureConfig E :=
  runTurns atomicDevice (saveLive M) (captureStart flash live) turns

/-- A line has been saved since the context was written. -/
def savedSinceContext : List (CaptureEvent E) → Bool
  | [] => false
  | .env _ :: _ => true
  | .call _ (.writeFrom _ .context _) err :: h =>
    if err = (0 : ℤ) then false else savedSinceContext h
  | .call _ _ _ :: h => savedSinceContext h

/-- The storage is written over a ring buffer that is still the one the context came from. -/
def Quiet (h : List (CaptureEvent E)) : CaptureEvent E → Prop
  | .call _ (.writeFrom _ .storage _) err => err = (0 : ℤ) → savedSinceContext h = false
  | _ => True

instance (h : List (CaptureEvent E)) (e : CaptureEvent E) : Decidable (Quiet h e) := by
  unfold Quiet
  split <;> infer_instance

/-- The ring buffer was `t` at some instant of the run. -/
def WasLive (c : CaptureConfig E) (t : LogSnapshot) : Prop :=
  ∃ w ∈ c.world :: c.past, w.ram = liveRam t

/-- What the persist has captured after `k` steps: the bytes of a snapshot `t`, which was live once and,
until the storage is written, still is unless a line has been saved. -/
structure Captured (l : LogSnapshot) (n k : ℕ) (c : CaptureConfig E) (t : LogSnapshot) : Prop where
  context_len : t.context.length = l.context.length
  storage_len : t.storage.length = l.storage.length
  flash_at : FlashAt none n t k false c.world.flash
  was_live : 2 ≤ k → WasLive c t
  still_live : k = 2 → savedSinceContext c.events = false → c.world.ram = liveRam t

/-- The invariant of quiet captures. -/
structure CaptureInv (l : LogSnapshot) (n : ℕ) (c : CaptureConfig E) : Prop where
  live : ∃ s, c.world.ram = liveRam s ∧ s.context.length = l.context.length ∧
    s.storage.length = l.storage.length
  length_eq : c.world.flash.length = n
  progress : ∃ k, PersistAt l n (c.threads ()) k ∧ (1 ≤ k → ∃ t, Captured l n k c t)

variable {M} {l : LogSnapshot} {n : ℕ} {c : CaptureConfig E}

theorem wasLive_mono {c' : CaptureConfig E} {t : LogSnapshot} (h : WasLive c t)
    (hpast : c'.past = c.world :: c.past) : WasLive c' t := by
  obtain ⟨w, hw, hram⟩ := h
  rw [← hpast] at hw
  exact ⟨w, List.mem_cons_of_mem _ hw, hram⟩

/-- **One save.** -/
theorem captureInv_save (hinv : CaptureInv l n c) (e : E) :
    CaptureInv l n ⟨c.threads, saveLive M e c.world, .env e :: c.events, c.world :: c.past⟩ := by
  obtain ⟨⟨s, hram, hc, hs⟩, hlen, k, hat, hcap⟩ := hinv
  have hsave : saveLive M e c.world = { c.world with ram := liveRam (M.save e s) } := by
    rw [saveLive, hram]
    rfl
  refine ⟨⟨M.save e s, ?_, ?_, ?_⟩, ?_, k, hat, fun hk => ?_⟩
  · show (saveLive M e c.world).ram = _
    rw [hsave]
  · rw [M.context_length, hc]
  · rw [M.storage_length, hs]
  · show (saveLive M e c.world).flash.length = n
    rw [hsave]
    exact hlen
  · obtain ⟨t, ht⟩ := hcap hk
    refine ⟨t, ht.context_len, ht.storage_len, ?_, fun h2 => wasLive_mono (ht.was_live h2) rfl, ?_⟩
    · show FlashAt none n t k false (saveLive M e c.world).flash
      rw [hsave]
      exact ht.flash_at
    · intro _ hquiet
      exact Bool.noConfusion hquiet

/-- A call that does not touch the flash, or fails, keeps the invariant with any remainder that goes
with the steps done so far. -/
theorem captureInv_idle (hinv : CaptureInv l n c) {op : (flashSig LogObj Unit LogCall).Op}
    {x : (flashSig LogObj Unit LogCall).Ans op} {p : LogProg ℤ} (hp : PersistAt l n p 0) :
    CaptureInv l n ⟨Function.update c.threads () p, c.world, .call () op x :: c.events,
      c.world :: c.past⟩ where
  live := hinv.live
  length_eq := hinv.length_eq
  progress := by
    refine ⟨0, ?_, fun h => absurd h (by decide)⟩
    show PersistAt l n (Function.update c.threads () p ()) 0
    rw [Function.update_self]
    exact hp

/-- The flash bytes change as a step of the persist changes them. -/
theorem captureInv_write (hinv : CaptureInv l n c) {e : CaptureEvent E} {p : LogProg ℤ}
    {flash : List UInt8} (k : ℕ) (t : LogSnapshot) (hp : PersistAt l n p k)
    (hlen : flash.length = n)
    (hcap : Captured l n k ⟨Function.update c.threads () p, { c.world with flash := flash },
      e :: c.events, c.world :: c.past⟩ t) :
    CaptureInv l n ⟨Function.update c.threads () p, { c.world with flash := flash }, e :: c.events,
      c.world :: c.past⟩ where
  live := hinv.live
  length_eq := hlen
  progress := by
    refine ⟨k, ?_, fun _ => ⟨t, hcap⟩⟩
    show PersistAt l n (Function.update c.threads () p ()) k
    rw [Function.update_self]
    exact hp

/-- **One call of the persist.** -/
theorem captureInv_persist (hinv : CaptureInv l n c) {op : (flashSig LogObj Unit LogCall).Op}
    {next : (flashSig LogObj Unit LogCall).Ans op → LogProg ℤ} {out : Outcome} {w' : LogWorld}
    {x : (flashSig LogObj Unit LogCall).Ans op} (hp : c.threads () = .call op next)
    (hs : atomicDevice.step op out c.world = (some x, w'))
    (hguard : Quiet c.events (.call () op x)) :
    CaptureInv l n ⟨Function.update c.threads () (next x), w', .call () op x :: c.events,
      c.world :: c.past⟩ := by
  obtain ⟨⟨s, hram, hc, hsl⟩, hlen, k, hat, hcap⟩ := id hinv
  rw [hp] at hat
  cases hat with
  | begin =>
    obtain ⟨rfl, hx⟩ := atomic_objectSize hs
    rw [hram, show (liveRam s .context).map List.length = some s.context.length from rfl, hc] at hx
    subst hx
    exact captureInv_idle hinv .sized
  | sized =>
    obtain ⟨rfl, hx⟩ := atomic_objectSize hs
    rw [hram, show (liveRam s .storage).map List.length = some s.storage.length from rfl, hsl] at hx
    subst hx
    exact captureInv_idle hinv .opening
  | opening =>
    obtain ⟨rfl, ⟨e, rfl⟩ | rfl⟩ := atomic_openArea hs
    · exact captureInv_idle hinv (.failed _ e e.property.ne)
    · refine captureInv_idle hinv ?_
      rw [hlen]
      exact persistAt_opened
  | erase hfit =>
    rcases atomic_erase (by omega) hs with ⟨rfl, rfl⟩ | ⟨hx, rfl⟩
    · refine captureInv_write hinv 1 l (.context hfit)
        ((eraseRange_length 0 n _ (by omega)).trans hlen)
        ⟨rfl, rfl, flashAt_erase false hlen, fun h => absurd h (by decide),
          fun h => absurd h (by decide)⟩
    · exact captureInv_idle hinv (persistAt_failed hx _ _)
  | context hfit =>
    rcases atomic_writeFrom (by omega) hs with ⟨rfl, rfl⟩ | ⟨hx, rfl⟩
    · obtain ⟨t, ht⟩ := hcap le_rfl
      have hblank : FlashAt none n s 1 false c.world.flash := by
        have hflash := ht.flash_at
        generalize c.world.flash = flash at hflash ⊢
        cases hflash with
        | blank _ => exact .blank false
      rw [bytes_context_take s hram hc]
      refine captureInv_write hinv 2 s (.storage hfit) ?_
        ⟨hc, hsl, flashAt_writeContext hblank (by omega), fun _ => ⟨_, List.mem_cons_self, hram⟩,
          fun _ _ => hram⟩
      rw [program_length _ _ _ (by omega), hlen]
    · exact captureInv_idle hinv (persistAt_failed hx _ _)
  | storage hfit =>
    rcases atomic_writeFrom (by omega) hs with ⟨rfl, rfl⟩ | ⟨hx, rfl⟩
    · obtain ⟨t, ht⟩ := hcap (by decide)
      have hct := ht.context_len
      have hst := ht.storage_len
      have hlive : c.world.ram = liveRam t := ht.still_live rfl (hguard rfl)
      rw [bytes_storage_take t hlive hst, ← hct]
      refine captureInv_write hinv 3 t (hct ▸ .header hfit) ?_
        ⟨hct, hst, flashAt_writeStorage ht.flash_at hlen (by omega),
          fun _ => wasLive_mono (ht.was_live le_rfl) rfl, fun h => absurd h (by decide)⟩
      rw [program_length _ _ _ (by omega), hlen]
    · exact captureInv_idle hinv (persistAt_failed hx _ _)
  | header hfit =>
    rcases atomic_writeLocal (by rw [toBytes_length]; omega) hs with ⟨rfl, rfl⟩ | ⟨hx, rfl⟩
    · obtain ⟨t, ht⟩ := hcap (by decide)
      have hnew := flashAt_writeHeader ht.flash_at
      rw [snapshotHdr, ht.context_len, ht.storage_len] at hnew
      refine captureInv_write hinv 4 t (.done hfit) ?_
        ⟨ht.context_len, ht.storage_len, hnew,
          fun _ => wasLive_mono (ht.was_live (by decide)) rfl, fun h => absurd h (by decide)⟩
      rw [program_length _ _ _ (by rw [toBytes_length]; omega), hlen]
    · exact captureInv_idle hinv (.failed _ _ hx)

theorem captureInv_step (turn : CaptureTurn E) (hinv : CaptureInv l n c)
    (hguard : Guarded Quiet (stepTurn atomicDevice (saveLive M) c turn).events) :
    CaptureInv l n (stepTurn atomicDevice (saveLive M) c turn) := by
  rcases stepTurn_cases atomicDevice (saveLive M) c turn with
    hc | ⟨i, out, op, next, x, w, -, hp, hs, hc⟩ | ⟨e, -, hc⟩
  · rw [hc]
    exact hinv
  · rw [hc] at hguard ⊢
    exact captureInv_persist hinv hp hs hguard.2
  · rw [hc]
    exact captureInv_save hinv e

theorem captureInv_start (flash : List UInt8) (live : LogSnapshot) :
    CaptureInv live flash.length (captureStart flash live : CaptureConfig E) where
  live := ⟨live, rfl, rfl, rfl⟩
  length_eq := rfl
  progress := by
    refine ⟨0, ?_, fun h => absurd h (by decide)⟩
    show PersistAt live flash.length memfaultLogStatePersistNow 0
    rw [memfaultLogStatePersistNow_eq]
    exact .begin

variable (M)

/-- **A quiet persist captures one instant.**  If no line is saved between the two payload writes, a
persist that returns zero leaves the blob of a snapshot the live ring buffer was at some instant of the
call. -/
theorem quiet_persist_captures (flash : List UInt8) (live : LogSnapshot)
    (turns : List (CaptureTurn E)) (hquiet : Guarded Quiet (capture M flash live turns).events)
    (hret : (capture M flash live turns).threads () = .ret 0) :
    ∃ t, WasLive (capture M flash live turns) t ∧ Holds (capture M flash live turns).world.flash t := by
  have hinv : CaptureInv live flash.length (capture M flash live turns) :=
    runTurns_invariant atomicDevice (saveLive M) Quiet (CaptureInv live flash.length)
      (fun c turn h hg => captureInv_step turn h hg) turns (captureStart flash live)
      (captureInv_start flash live) hquiet
  obtain ⟨-, -, k, hat, hcap⟩ := hinv
  rw [hret] at hat
  cases hat with
  | failed _ _ h => exact absurd rfl h
  | done _ =>
    obtain ⟨t, ht⟩ := hcap (by decide)
    refine ⟨t, ht.was_live (by decide), ?_⟩
    have hflash := ht.flash_at
    generalize (capture M flash live turns).world.flash = final at hflash ⊢
    cases hflash with
    | header rest => exact ⟨rest, rfl⟩

/-- A ring buffer of one write offset and its bytes; a save stores one byte and moves the offset. -/
def byteLog : LogSaves UInt8 where
  save b s := ⟨s.context.map (· + 1), s.storage.set (s.context.headD 0).toNat b⟩
  context_length _ _ := List.length_map _
  storage_length _ _ := List.length_set

def emptyLog : LogSnapshot := ⟨[0], [0, 0]⟩

/-- The persist reaches its context write. -/
def untilContext : List (CaptureTurn UInt8) := List.replicate 5 (.thread () .ok)

theorem quiet_persist_captures_save_before :
    ∃ t, WasLive (capture byteLog (erased 24) emptyLog (.env 7 :: untilContext ++
        [.thread () .ok, .thread () .ok])) t ∧
      Holds (capture byteLog (erased 24) emptyLog (.env 7 :: untilContext ++
        [.thread () .ok, .thread () .ok])).world.flash t :=
  quiet_persist_captures byteLog (erased 24) emptyLog _ (by decide +kernel) rfl

/-- One save between the two payload writes. -/
def saveBetweenWrites : List (CaptureTurn UInt8) :=
  untilContext ++ [.env 7, .thread () .ok, .thread () .ok]

/-- **A torn capture.**  The persist returns zero, and the blob it leaves was never the ring buffer: it
has the offset of the empty log and the byte saved afterwards. -/
theorem saved_between_payload_writes :
    (capture byteLog (erased 24) emptyLog saveBetweenWrites).threads () = .ret 0 ∧
      ¬ ∃ t, WasLive (capture byteLog (erased 24) emptyLog saveBetweenWrites) t ∧
        Holds (capture byteLog (erased 24) emptyLog saveBetweenWrites).world.flash t := by
  refine ⟨rfl, ?_⟩
  rintro ⟨t, ⟨w, hw, hram⟩, rest, hflash⟩
  have hlive : ∀ v ∈ (capture byteLog (erased 24) emptyLog saveBetweenWrites).world ::
      (capture byteLog (erased 24) emptyLog saveBetweenWrites).past,
      (v.ram .context = some [0] ∧ v.ram .storage = some [0, 0]) ∨
        (v.ram .context = some [1] ∧ v.ram .storage = some [7, 0]) := by
    decide +kernel
  have hpayload : (capture byteLog (erased 24) emptyLog saveBetweenWrites).world.flash.take 19
      = blobImage ⟨[0], [7, 0]⟩ := by
    decide +kernel
  have hcases := hlive w hw
  rw [hram] at hcases
  rw [hflash] at hpayload
  obtain ⟨context, storage⟩ := t
  rcases hcases with ⟨hc, hs⟩ | ⟨hc, hs⟩
  · cases hc
    cases hs
    rw [List.take_left' (by rfl)] at hpayload
    exact absurd hpayload (by decide)
  · cases hc
    cases hs
    rw [List.take_left' (by rfl)] at hpayload
    exact absurd hpayload (by decide)

end WifiMemfault.LogStateCapture
