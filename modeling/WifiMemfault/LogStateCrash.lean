import WifiMemfault.LogStateSpec

/-!
# Crash safety of the log-state partition

A history of the partition is a list of calls: which function was called, with which live ring buffer,
and what the environment did to each of its flash calls.  Erases and writes may stop after any byte
prefix, with an error return or with the power; opens and reads succeed.  The live ring buffers of
different calls are unrelated, since anything may be logged between two calls and a reboot empties the
buffer; during a call nothing is logged.

`runCalls_represents` is the invariant: the partition represents nothing, or the bytes some persist of
the history was called with.  `restore_exact_or_untouched` reads the next restore off it.
-/

namespace WifiMemfault.LogStateCrash

open EffectProgram NorFlash LogStateRestore LogStateImage LogStateSpec

inductive LogFunction where
  | persistNow | restoreOnConnect
  deriving DecidableEq, Repr

def LogFunction.prog : LogFunction → LogProg ℤ
  | .persistNow => memfaultLogStatePersistNow
  | .restoreOnConnect => memfaultLogStateRestoreOnConnect

/-- One call of a history: the function, the live ring buffer it finds, and what becomes of each of
its flash calls. -/
structure LogStateCall where
  fn : LogFunction
  live : LogSnapshot
  outcomes : ℕ → Outcome

/-- Erases and writes may fail or lose power at any byte, opens and reads succeed. -/
def crashFaults : FaultModel where
  mayFail := fun kind => kind = .write ∨ kind = .erase
  torn := true
  powerLoss := true

variable (marker : (LogObj → Option (List UInt8)) → LogObj → Option (List UInt8))

/-- The call on its own: what it returned, if the power lasted, and the device afterwards. -/
def runCall (flash : List UInt8) (c : LogStateCall) : Option ℤ × LogWorld :=
  (flashDevice crashFaults (logOutside marker)).exec c.fn.prog c.outcomes (liveWorld flash c.live)

/-- The partition after a history of calls. -/
def runCalls (flash : List UInt8) (cs : List LogStateCall) : List UInt8 :=
  cs.foldl (fun fl c => (runCall marker fl c).2.flash) flash

/-- The ring buffers the persists of a history were called with. -/
def captured (cs : List LogStateCall) : List LogSnapshot :=
  (cs.filter fun c => c.fn = .persistNow).map LogStateCall.live

/-- A partition to start from: fully erased, or holding one completely persisted blob. -/
def StartsAs (flash : List UInt8) : Option LogSnapshot → Prop
  | none => flash = erased flash.length
  | some s => s.WellSized ∧ Holds flash s

theorem startsAs_represents (flash : List UInt8) (o : Option LogSnapshot) (h : StartsAs flash o) :
    Represents flash o := by
  cases o with
  | some s => exact h
  | none =>
    rcases Nat.eq_zero_or_pos flash.length with hlen | hpos
    · intro cl sl _ hacc
      have hsize : hdrSize = 16 := rfl
      have hle := hacc.1
      omega
    · have hff : flash[0]? = some erasedByte := by
        have h' : flash = erased flash.length := h
        rw [h']
        simp [hpos]
      exact rejected_of_first flash hff

/-! ### One call -/

/-- A persist leaves what was there, nothing, or the bytes it was called with. -/
theorem runCall_persist (flash : List UInt8) (o : Option LogSnapshot) (c : LogStateCall)
    (hfn : c.fn = .persistNow) (hlive : c.live.WellSized) (hrep : Represents flash o) :
    ∃ o', (o' = o ∨ o' = none ∨ o' = some c.live) ∧
      Represents (runCall marker flash c).2.flash o' := by
  have h : Ends (PersistPost o c.live flash.length) (PersistLeaves o c.live flash.length)
      ((flashDevice crashFaults (logOutside marker)).exec memfaultLogStatePersistNow c.outcomes
        (liveWorld flash c.live)) :=
    always_exec (memfaultLogStatePersistNow_always o c.live hlive flash hrep) c.outcomes
  have hrun : runCall marker flash c = (flashDevice crashFaults (logOutside marker)).exec
      memfaultLogStatePersistNow c.outcomes (liveWorld flash c.live) := by
    rw [runCall, hfn]
    rfl
  have hleaves : PersistLeaves o c.live flash.length (runCall marker flash c).2 := by
    rw [hrun]
    revert h
    generalize (flashDevice crashFaults (logOutside marker)).exec _ _ _ = r
    obtain ⟨r | r, w⟩ := r
    · exact fun h => h
    · exact fun h => h.1
  rcases hleaves.content with hc | hc | hc
  · exact ⟨o, Or.inl rfl, hc⟩
  · exact ⟨none, Or.inr (Or.inl rfl), hc⟩
  · exact ⟨some c.live, Or.inr (Or.inr rfl), hc⟩

/-- A restore copies what is there or leaves the live ring buffer alone. -/
theorem runCall_restore (flash : List UInt8) (o : Option LogSnapshot) (c : LogStateCall)
    (hfn : c.fn = .restoreOnConnect) (hlive : c.live.WellSized) (hrep : Represents flash o) :
    Ends (RestoreConnectPost marker o c.live flash.length) (RestoreLeaves o flash.length)
      (runCall marker flash c) := by
  rw [runCall, hfn]
  exact always_exec (memfaultLogStateRestoreOnConnect_always o c.live marker rfl hlive flash hrep)
    c.outcomes

theorem runCall_represents (flash : List UInt8) (o : Option LogSnapshot) (c : LogStateCall)
    (hlive : c.live.WellSized) (hrep : Represents flash o) :
    ∃ o', (o' = o ∨ o' = none ∨ (c.fn = .persistNow ∧ o' = some c.live)) ∧
      Represents (runCall marker flash c).2.flash o' := by
  cases hfn : c.fn with
  | persistNow =>
    obtain ⟨o', ho', hrep'⟩ := runCall_persist marker flash o c hfn hlive hrep
    rcases ho' with h | h | h
    · exact ⟨o', Or.inl h, hrep'⟩
    · exact ⟨o', Or.inr (Or.inl h), hrep'⟩
    · exact ⟨o', Or.inr (Or.inr ⟨rfl, h⟩), hrep'⟩
  | restoreOnConnect =>
    have h := runCall_restore marker flash o c hfn hlive hrep
    have hcontent : Represents (runCall marker flash c).2.flash o ∨
        Represents (runCall marker flash c).2.flash none := by
      revert h
      generalize runCall marker flash c = r
      obtain ⟨r | r, w⟩ := r
      · exact fun h => h.content
      · exact fun h => h.1.content
    rcases hcontent with hc | hc
    · exact ⟨o, Or.inl rfl, hc⟩
    · exact ⟨none, Or.inr (Or.inl rfl), hc⟩

/-! ### A history of calls -/

/-- **The invariant.**  After any history the partition represents nothing, what it represented at
the start, or the bytes one persist of the history was called with. -/
theorem runCalls_represents (cs : List LogStateCall) (hcs : ∀ c ∈ cs, c.live.WellSized)
    (flash : List UInt8) (o : Option LogSnapshot) (hrep : Represents flash o) :
    ∃ o', (∀ s, o' = some s → o = some s ∨ s ∈ captured cs) ∧
      Represents (runCalls marker flash cs) o' := by
  induction cs generalizing flash o with
  | nil => exact ⟨o, fun s h => Or.inl h, hrep⟩
  | cons c cs ih =>
    obtain ⟨o₁, ho₁, hrep₁⟩ :=
      runCall_represents marker flash o c (hcs c List.mem_cons_self) hrep
    obtain ⟨o', ho', hrep'⟩ := ih (fun d hd => hcs d (List.mem_cons_of_mem c hd)) _ o₁ hrep₁
    refine ⟨o', fun s hs => ?_, hrep'⟩
    have htail : ∀ t, t ∈ captured cs → t ∈ captured (c :: cs) := by
      intro t ht
      obtain ⟨d, hd, rfl⟩ := List.mem_map.mp ht
      have hmem := List.mem_filter.mp hd
      exact List.mem_map.mpr
        ⟨d, List.mem_filter.mpr ⟨List.mem_cons_of_mem c hmem.1, hmem.2⟩, rfl⟩
    rcases ho' s hs with h₁ | h₁
    · rcases ho₁ with h | h | ⟨hfn, h⟩
      · exact Or.inl (h ▸ h₁)
      · rw [h] at h₁
        cases h₁
      · rw [h] at h₁
        cases h₁
        refine Or.inr (List.mem_map.mpr ⟨c, List.mem_filter.mpr ⟨List.mem_cons_self, ?_⟩, rfl⟩)
        exact decide_eq_true hfn
    · exact Or.inr (htail s h₁)

/-- **Crash safety.**  After any history from an erased or a complete partition, a restore either
returns zero with exactly the context and storage of one persist in the live ring buffer (and then the
marker line saved), or returns an error with the live ring buffer untouched. -/
theorem restore_exact_or_untouched (flash : List UInt8) (o : Option LogSnapshot)
    (hstart : StartsAs flash o) (cs : List LogStateCall) (hcs : ∀ c ∈ cs, c.live.WellSized)
    (last : LogStateCall) (hfn : last.fn = .restoreOnConnect) (hlast : last.live.WellSized) (r : ℤ)
    (hret : (runCall marker (runCalls marker flash cs) last).1 = some r) :
    let w := (runCall marker (runCalls marker flash cs) last).2
    (r = 0 ∧ ∃ s, (o = some s ∨ s ∈ captured cs) ∧ w.ram = marker (liveRam s)) ∨
      (r ≠ 0 ∧ w.ram = liveRam last.live) := by
  obtain ⟨o', ho', hrep'⟩ :=
    runCalls_represents marker cs hcs flash o (startsAs_represents flash o hstart)
  have h := runCall_restore marker _ o' last hfn hlast hrep'
  generalize runCall marker (runCalls marker flash cs) last = run at h hret ⊢
  obtain ⟨r' | r', w⟩ := run
  · cases hret
  · cases hret
    obtain ⟨-, ⟨hr, s, hs, hram⟩ | ⟨hr, hram⟩⟩ := h
    · exact Or.inl ⟨hr, s, ho' s hs, hram⟩
    · exact Or.inr ⟨hr, hram⟩

/-- A complete persist, and one that loses power after 7 bytes of its header write.  The magic and the
version are then in place, and only the comparison of the lengths rejects the header. -/
def tornHeaderHistory : List LogStateCall :=
  [⟨.persistNow, ⟨[1], [2, 3]⟩, fun _ => .ok⟩,
    ⟨.persistNow, ⟨[4], [5, 6]⟩, fun i => if i = 6 then .powerLoss 7 else .ok⟩]

def restoreAfterTornHeader : LogStateCall := ⟨.restoreOnConnect, ⟨[7], [8, 9]⟩, fun _ => .ok⟩

theorem restore_exact_or_untouched_torn_header :
    let w := (runCall id (runCalls id (erased 24) tornHeaderHistory) restoreAfterTornHeader).2
    (enospc = 0 ∧ ∃ s, (none = some s ∨ s ∈ captured tornHeaderHistory) ∧ w.ram = id (liveRam s)) ∨
      (enospc ≠ 0 ∧ w.ram = liveRam restoreAfterTornHeader.live) := by
  refine restore_exact_or_untouched id (erased 24) none rfl tornHeaderHistory ?_
    restoreAfterTornHeader rfl ?_ enospc (by decide +kernel)
  · intro c hc
    rcases List.mem_cons.mp hc with rfl | hc
    · exact ⟨by decide, by decide, by decide, by decide⟩
    · rw [List.mem_singleton.mp hc]
      exact ⟨by decide, by decide, by decide, by decide⟩
  · exact ⟨by decide, by decide, by decide, by decide⟩

end WifiMemfault.LogStateCrash
