import Mathlib.Data.List.Nodup
import WifiMemfault.Lib.NorFlash
import WifiMemfault.Lib.Runs

/-!
# A partition that hands out each blob once

One function persists a blob to a flash partition behind a header, another restores it and erases the
partition.  A partition whose first byte is erased has no header.  Persist calls are numbered, and
`OneShot` keeps beside the world which call's blob the partition has, which calls have succeeded, and
which blobs have been restored, in that order.

The erase of a restore that succeeds may fail, and may leave the header.  The partition is then *stale* until
something else removes or replaces the header.  `restored_once` says that no blob is restored twice in a run
that calls no restore on a stale partition.
-/

namespace NorFlash

open EffectProgram ByteList

/-- Any call may fail, also after part of its effect; the power stays on. -/
def tornFaults : FaultModel := ⟨fun _ => true, true, false⟩

/-- The partition has no header: its first byte is erased. -/
def NoHeader (flash : List UInt8) : Prop := flash[0]? = some erasedByte

instance (flash : List UInt8) : Decidable (NoHeader flash) := inferInstanceAs (Decidable (_ = _))

/-! ### The first byte -/

/-- An erase from the start removes the header, unless it had no effect. -/
theorem eraseRange_header (k : ℕ) (flash : List UInt8) :
    eraseRange 0 k flash = flash ∨ NoHeader (eraseRange 0 k flash) := by
  rcases Nat.eq_zero_or_pos k with rfl | hk
  · exact Or.inl (eraseRange_zero 0 flash)
  · exact Or.inr (eraseRange_head k flash hk)

theorem and_ne_erased (a b : UInt8) (h : b ≠ erasedByte) : a &&& b ≠ erasedByte := by
  intro hand
  apply h
  have hb : erasedByte &&& b = erasedByte := by
    rw [← hand, UInt8.and_assoc, UInt8.and_self]
  rw [← hb, and_erasedByte]

/-- Programming a header whose first byte is not `0xFF` leaves a header. -/
theorem program_header (b : UInt8) (xs flash : List UInt8) (hb : b ≠ erasedByte)
    (hfit : 0 + (b :: xs).length ≤ flash.length) : ¬ NoHeader (program 0 (b :: xs) flash) := by
  cases flash with
  | nil => simp at hfit
  | cons a flash =>
    intro h
    rw [NoHeader, program, List.drop_zero, List.zipWith_cons_cons, overwrite] at h
    simp only [List.take_zero, List.nil_append, List.cons_append, List.getElem?_cons_zero,
      Option.some.injEq] at h
    exact and_ne_erased a b hb h

variable {ρ σ κ π α : Type} [DecidableEq ρ]

/-- A header write that succeeds leaves a header. -/
theorem always_writeHeader {F : FaultModel} {outer : κ → World ρ σ → World ρ σ} (b : UInt8)
    (xs : List UInt8) (hb : b ≠ erasedByte) (w : World ρ σ) :
    Always (flashDevice F outer) (fun err w' => err = 0 → ¬ NoHeader w'.flash) (fun _ => True)
      (.call (.writeLocal 0 (b :: xs)) .ret) w := by
  by_cases hfit : 0 + (b :: xs).length ≤ w.flash.length
  · refine (always_writeLocal 0 _ _ hfit).mpr (transferOk_intro ?_ ?_ fun _ _ => trivial)
    · intro _
      rw [List.take_length]
      exact program_header b xs w.flash hb hfit
    · intro e he k _ hzero
      exact absurd hzero he
  · intro o
    simp only [flashDevice, stepFlash, if_neg hfit]
    have hne : errnoOutside ≠ 0 := by decide
    exact fun hzero => absurd hzero hne

/-- Copying from the partition leaves it as it is. -/
theorem always_readInto_keeps {F : FaultModel} {outer : κ → World ρ σ → World ρ σ}
    {Q : α → World ρ σ → Prop} {off len : ℕ} {dst : ρ} {next : ℤ → FlashProg ρ σ κ α} {w : World ρ σ}
    (h : ∀ err w', w'.flash = w.flash → Always (flashDevice F outer) Q (fun _ => True) (next err) w') :
    Always (flashDevice F outer) Q (fun _ => True) (.call (.readInto off dst len) next) w := by
  by_cases hfit : off + len ≤ w.flash.length
  · exact (always_readInto off dst len next hfit).mpr
      (transferOk_intro (h 0 _ rfl) (fun e _ k _ => h e _ rfl) fun _ _ => trivial)
  · exact (always_readInto_outside off dst len next hfit).mpr (h errnoOutside w rfl)

/-- The erase of the whole partition removes the header, or leaves the partition as it is. -/
theorem always_eraseAll {F : FaultModel} {outer : κ → World ρ σ → World ρ σ} {Q : α → World ρ σ → Prop}
    {next : ℤ → FlashProg ρ σ κ α} {w : World ρ σ} {n : ℕ} (hn : n = w.flash.length)
    (h : ∀ err flash, (flash = w.flash ∨ NoHeader flash) →
      Always (flashDevice F outer) Q (fun _ => True) (next err) { w with flash := flash }) :
    Always (flashDevice F outer) Q (fun _ => True) (.call (.erase 0 n) next) w := by
  subst hn
  exact (always_erase 0 _ next (by omega)).mpr
    (transferOk_intro (h 0 _ (eraseRange_header _ w.flash))
      (fun e _ k _ => h e _ (eraseRange_header k w.flash)) fun _ _ => trivial)

/-! ### The store -/

structure OneShotStore (ρ σ κ π : Type) where
  persist : π → FlashProg ρ σ κ ℤ
  restore : FlashProg ρ σ κ ℤ
  /-- What the calls into outside code do. -/
  outer : κ → World ρ σ → World ρ σ

namespace OneShotStore

variable (store : OneShotStore ρ σ κ π)

abbrev device : Device (flashSig ρ σ κ) Outcome (World ρ σ) := flashDevice tornFaults store.outer

/-- What a restore over the partition `flash` leaves. -/
structure Restored (flash : List UInt8) (err : ℤ) (w : World ρ σ) : Prop where
  had_header : err = 0 → ¬ NoHeader flash
  content : w.flash = flash ∨ NoHeader w.flash

/-- A persist that succeeds leaves a header, a restore needs one and removes it or leaves it all. -/
structure Lawful : Prop where
  persists : ∀ p w, Always store.device (fun err w' => err = 0 → ¬ NoHeader w'.flash) (fun _ => True)
    (store.persist p) w
  restores : ∀ w, Always store.device (Restored w.flash) (fun _ => True) store.restore w

end OneShotStore

structure OneShot (ρ σ : Type) where
  world : World ρ σ
  /-- The number of the next persist call.  What the partition had before the first one is number 0. -/
  calls : ℕ
  /-- The calls that have returned zero. -/
  succeeded : List ℕ
  /-- The call whose blob the partition has. -/
  owner : Option ℕ
  /-- The partition as the owner left it. -/
  written : List UInt8
  /-- The blobs that restores have returned zero for, in that order. -/
  restored : List ℕ
  /-- The erase of a restore that succeeded has left the header, and it is still there. -/
  stale : Bool

/-- A run from this world. -/
def OneShot.start (w : World ρ σ) : OneShot ρ σ where
  world := w
  calls := 1
  succeeded := []
  owner := if NoHeader w.flash then none else some 0
  written := w.flash
  restored := []
  stale := false

inductive OneShotEvent (ρ σ π : Type) where
  | persist (p : π) (os : ℕ → Outcome)
  | restore (os : ℕ → Outcome)
  /-- Other code changes RAM objects and static variables. -/
  | others (ram : ρ → Option (List UInt8)) (statics : σ)

namespace OneShotStore

variable (store : OneShotStore ρ σ κ π)

def stepPersist (s : OneShot ρ σ) (p : π) (os : ℕ → Outcome) : OneShot ρ σ :=
  let r := store.device.exec (store.persist p) os s.world
  -- a failed call that has left the partition as it was has not replaced the blob
  let kept := r.1 ≠ some 0 ∧ r.2.flash = s.world.flash
  { s with
    world := r.2
    calls := s.calls + 1
    succeeded := if r.1 = some 0 then s.succeeded ++ [s.calls] else s.succeeded
    owner := if NoHeader r.2.flash then none else if kept then s.owner else some s.calls
    written := r.2.flash
    stale := s.stale && decide kept }

def stepRestore (s : OneShot ρ σ) (os : ℕ → Outcome) : OneShot ρ σ :=
  let r := store.device.exec store.restore os s.world
  { s with
    world := r.2
    owner := if NoHeader r.2.flash then none else s.owner
    restored := if r.1 = some 0 then s.restored ++ s.owner.toList else s.restored
    stale := if NoHeader r.2.flash then false else s.stale || r.1 = some 0 }

def stepOneShot (s : OneShot ρ σ) : OneShotEvent ρ σ π → OneShot ρ σ
  | .persist p os => store.stepPersist s p os
  | .restore os => store.stepRestore s os
  | .others ram statics => { s with world := ⟨s.world.flash, ram, statics⟩ }

/-- No restore is called on a header that the erase of an earlier one has left. -/
def NoStaleRestore (s : OneShot ρ σ) : OneShotEvent ρ σ π → Prop
  | .restore _ => s.stale = false
  | _ => True

instance (s : OneShot ρ σ) (e : OneShotEvent ρ σ π) : Decidable (NoStaleRestore s e) :=
  match e with
  | .restore _ => inferInstanceAs (Decidable (_ = _))
  | .persist _ _ | .others _ _ => inferInstanceAs (Decidable True)

/-- The erase of a restore that has succeeded has removed the header. -/
def ErasesHeader (s : OneShot ρ σ) : OneShotEvent ρ σ π → Prop
  | .restore os => (store.device.exec store.restore os s.world).1 = some 0 →
      NoHeader (store.device.exec store.restore os s.world).2.flash
  | _ => True

/-! ### The invariant -/

/-- The records are true, and only the blob of a stale partition has been restored. -/
structure Inv (s : OneShot ρ σ) : Prop where
  owner_lt : ∀ n, s.owner = some n → n < s.calls
  restored_lt : ∀ n ∈ s.restored, n < s.calls
  has_owner : ¬ NoHeader s.world.flash → ∃ n, s.owner = some n
  unchanged : ∀ n, s.owner = some n → s.world.flash = s.written
  fresh : s.stale = false → ∀ n, s.owner = some n → n ∉ s.restored
  nodup : s.restored.Nodup

variable {store}

omit [DecidableEq ρ] in
theorem inv_start (w : World ρ σ) : Inv (OneShot.start w) := by
  refine ⟨?_, nofun, ?_, fun _ _ => rfl, fun _ _ _ => nofun, List.nodup_nil⟩
  · intro n hn
    simp only [OneShot.start] at hn
    split at hn
    · cases hn
    · cases hn
      exact Nat.one_pos
  · intro hheader
    exact ⟨0, if_neg hheader⟩

/-- A call that succeeds owns the partition. -/
theorem persist_owns (hstore : store.Lawful) (s : OneShot ρ σ) (p : π) (os : ℕ → Outcome)
    (hok : (store.device.exec (store.persist p) os s.world).1 = some 0) :
    (store.stepPersist s p os).owner = some s.calls := by
  obtain ⟨err, w, hexec, hheader⟩ := always_powered rfl (hstore.persists p s.world) os
  rw [stepPersist, hexec]
  rw [hexec] at hok
  have herr : err = 0 := Option.some.inj hok
  simp [hheader herr, herr]

theorem inv_persist (s : OneShot ρ σ) (p : π) (os : ℕ → Outcome) (hinv : Inv s) :
    Inv (store.stepPersist s p os) := by
  rw [stepPersist]
  generalize store.device.exec (store.persist p) os s.world = r
  have hnext : s.calls ∉ s.restored := fun hmem => Nat.lt_irrefl _ (hinv.restored_lt _ hmem)
  have hcalls : ∀ n ∈ s.restored, n < s.calls + 1 :=
    fun n hn => Nat.lt_succ_of_lt (hinv.restored_lt n hn)
  by_cases hheader : NoHeader r.2.flash
  · simp only [if_pos hheader]
    exact ⟨nofun, hcalls, fun h => absurd hheader h, nofun, fun _ => nofun, hinv.nodup⟩
  · simp only [if_neg hheader]
    by_cases hkept : r.1 ≠ some 0 ∧ r.2.flash = s.world.flash
    · simp only [if_pos hkept, decide_eq_true hkept, Bool.and_true]
      refine ⟨fun n hn => Nat.lt_succ_of_lt (hinv.owner_lt n hn), hcalls, fun _ => ?_,
        fun _ _ => rfl, hinv.fresh, hinv.nodup⟩
      exact hinv.has_owner (hkept.2 ▸ hheader)
    · simp only [if_neg hkept, decide_eq_false hkept, Bool.and_false]
      refine ⟨?_, hcalls, fun _ => ⟨s.calls, rfl⟩, fun _ _ => rfl, ?_, hinv.nodup⟩
      · intro n hn
        rw [← Option.some.inj hn]
        exact Nat.lt_succ_self s.calls
      · intro _ n hn
        rw [← Option.some.inj hn]
        exact hnext

/-- A restore that succeeds restores the owner's blob, as the owner left it. -/
theorem restore_owner (hstore : store.Lawful) {s : OneShot ρ σ} (hinv : Inv s) (os : ℕ → Outcome)
    (hok : (store.device.exec store.restore os s.world).1 = some 0) :
    ∃ n, s.owner = some n ∧ s.world.flash = s.written ∧
      (store.stepRestore s os).restored = s.restored ++ [n] := by
  obtain ⟨err, w, hexec, hleaves⟩ := always_powered rfl (hstore.restores s.world) os
  rw [hexec] at hok
  obtain ⟨n, hn⟩ := hinv.has_owner (hleaves.had_header (Option.some.inj hok))
  refine ⟨n, hn, hinv.unchanged n hn, ?_⟩
  rw [stepRestore, hexec]
  simp [Option.some.inj hok, hn]

theorem inv_restore (hstore : store.Lawful) (s : OneShot ρ σ) (os : ℕ → Outcome) (hinv : Inv s)
    (hfresh : s.stale = false) : Inv (store.stepRestore s os) := by
  obtain ⟨err, w, hexec, hleaves⟩ := always_powered rfl (hstore.restores s.world) os
  -- the blob that is restored has not been before
  have hnodup : (store.stepRestore s os).restored.Nodup ∧
      ∀ n ∈ (store.stepRestore s os).restored, n < s.calls := by
    by_cases hok : (store.device.exec store.restore os s.world).1 = some 0
    · obtain ⟨n, hn, -, hrestored⟩ := restore_owner hstore hinv os hok
      rw [hrestored]
      refine ⟨?_, ?_⟩
      · rw [List.nodup_append]
        refine ⟨hinv.nodup, List.nodup_singleton n, ?_⟩
        rintro m hm k hk rfl
        rw [List.mem_singleton.mp hk] at hm
        exact hinv.fresh hfresh n hn hm
      · intro m hm
        rcases List.mem_append.mp hm with hm | hm
        · exact hinv.restored_lt m hm
        · rw [List.mem_singleton.mp hm]
          exact hinv.owner_lt n hn
    · have hsame : (store.stepRestore s os).restored = s.restored := if_neg hok
      rw [hsame]
      exact ⟨hinv.nodup, hinv.restored_lt⟩
  refine ⟨?_, hnodup.2, ?_, ?_, ?_, hnodup.1⟩
  · intro n hn
    simp only [stepRestore] at hn
    split at hn
    · cases hn
    · exact hinv.owner_lt n hn
  · intro hheader
    have hsame : w.flash = s.world.flash := by
      rcases hleaves.content with h | h
      · exact h
      · rw [stepRestore, hexec] at hheader
        exact absurd h hheader
    rw [stepRestore, hexec] at hheader ⊢
    simp only [if_neg hheader]
    exact hinv.has_owner (hsame ▸ hheader)
  · intro n hn
    rw [stepRestore, hexec] at hn ⊢
    simp only at hn ⊢
    split at hn
    · cases hn
    · rename_i hheader
      rcases hleaves.content with h | h
      · rw [h]
        exact hinv.unchanged n hn
      · exact absurd h hheader
  · intro hstale n hn
    rw [stepRestore, hexec] at hstale hn ⊢
    simp only at hstale hn ⊢
    split at hn
    · cases hn
    · rename_i hheader
      rw [if_neg hheader, Bool.or_eq_false_iff, decide_eq_false_iff_not] at hstale
      rw [if_neg hstale.2]
      exact hinv.fresh hfresh n hn

theorem inv_step (hstore : store.Lawful) (s : OneShot ρ σ) (e : OneShotEvent ρ σ π) (hinv : Inv s)
    (hfresh : NoStaleRestore s e) : Inv (store.stepOneShot s e) := by
  cases e with
  | persist p os => exact inv_persist s p os hinv
  | restore os => exact inv_restore hstore s os hinv hfresh
  | others ram statics =>
    exact ⟨hinv.owner_lt, hinv.restored_lt, hinv.has_owner, hinv.unchanged, hinv.fresh, hinv.nodup⟩

/-! ### Every run -/

/-- **No blob is restored twice** in a run that calls no restore on a stale partition. -/
theorem restored_once (hstore : store.Lawful) (w : World ρ σ) (es : List (OneShotEvent ρ σ π))
    (hfresh : Runs.EachStep store.stepOneShot NoStaleRestore (OneShot.start w) es) (n : ℕ) :
    (Runs.run store.stepOneShot (OneShot.start w) es).restored.count n ≤ 1 := by
  have hinv := Runs.run_invariant (inv_step hstore) es _ (inv_start w) hfresh
  exact List.nodup_iff_count_le_one.mp hinv.nodup n

/-- If every restore that succeeds has its header erased, the partition does not get stale. -/
theorem noStaleRestore_of_erases (es : List (OneShotEvent ρ σ π)) (w : World ρ σ)
    (h : Runs.EachStep store.stepOneShot store.ErasesHeader (OneShot.start w) es) :
    Runs.EachStep store.stepOneShot NoStaleRestore (OneShot.start w) es := by
  have hstep : ∀ s e, s.stale = false → store.ErasesHeader s e →
      (store.stepOneShot s e).stale = false := by
    intro s e hstale herases
    cases e with
    | persist p os =>
      show (s.stale && _) = false
      rw [hstale, Bool.false_and]
    | restore os =>
      show (if _ then false else s.stale || _) = false
      rw [hstale, Bool.false_or]
      split
      · rfl
      · rename_i hheader
        exact decide_eq_false fun hok => hheader (herases hok)
    | others ram statics => exact hstale
  refine Runs.eachStep_of_invariant hstep ?_ es _ rfl h
  intro s e hstale _
  cases e with
  | persist p os => exact trivial
  | restore os => exact hstale
  | others ram statics => exact trivial

end OneShotStore

end NorFlash
