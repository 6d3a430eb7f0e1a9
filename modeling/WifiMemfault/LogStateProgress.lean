import WifiMemfault.LogStateSpec

/-!
# How far a persist has come

Other threads may run between the flash calls of a persist.  `FlashAt` says which bytes of the partition
are in place after each of its four steps, and `PersistAt` goes with it on the side of the program:
what is left to execute, and how many steps have succeeded.  Flash calls are atomic here, so that a
step has succeeded or has had no effect.
-/

namespace WifiMemfault.LogStateProgress

open EffectProgram ByteList NorFlash LogStateRestore LogStateImage LogStateSteps LogStateSpec

def atomicDevice : Device (flashSig LogObj Unit LogCall) Outcome LogWorld :=
  flashDevice atomicFaults fun _ w => w

/-! ### The bytes of the partition -/

/-- The partition when the persist has `written` steps behind it, taken from the ring buffer `t`, and
the restore has (`lost`) or has not erased what was written. -/
inductive FlashAt (o : Option LogSnapshot) (n : ℕ) (t : LogSnapshot) :
    ℕ → Bool → List UInt8 → Prop where
  | before (lost : Bool) (flash : List UInt8) (h : Represents flash o ∨ Represents flash none) :
      FlashAt o n t 0 lost flash
  | blank (lost : Bool) : FlashAt o n t 1 lost (erased n)
  | context (m : ℕ) (h : t.storage.length ≤ m) :
      FlashAt o n t 2 false (erased hdrSize ++ t.context ++ erased m ++ [])
  | storage (rest : List UInt8) :
      FlashAt o n t 3 false (erased hdrSize ++ (t.context ++ t.storage ++ rest))
  | header (rest : List UInt8) : FlashAt o n t 4 false (blobImage t ++ rest)
  | lost (k : ℕ) (hk : k = 2 ∨ k = 3) (flash : List UInt8) (h : flash[0]? = some erasedByte) :
      FlashAt o n t k true flash
  | discarded : FlashAt o n t 4 true (erased n)

section Bytes

variable {o : Option LogSnapshot} {n k : ℕ} {t : LogSnapshot} {lost : Bool} {flash : List UInt8}

/-- Before the persist's erase the partition does not depend on what is live. -/
theorem flashAt_zero (h : FlashAt o n t 0 lost flash) (t' : LogSnapshot) :
    FlashAt o n t' 0 lost flash := by
  cases h with
  | before _ _ hrep => exact .before lost flash hrep
  | lost _ hk _ _ => omega

theorem flashAt_erase (lost' : Bool) (hlen : flash.length = n) :
    FlashAt o n t 1 lost' (eraseRange 0 n flash) := by
  rw [← hlen, eraseRange_all, hlen]
  exact FlashAt.blank lost'

theorem flashAt_writeContext (h : FlashAt o n t 1 lost flash)
    (hfit : hdrSize + t.context.length + t.storage.length ≤ n) :
    FlashAt o n t 2 false (program hdrSize t.context flash) := by
  cases h with
  | lost _ hk _ _ => omega
  | blank _ =>
    have hsplit : erased n = erased hdrSize ++ erased (n - hdrSize) ++ [] := by
      rw [List.append_nil, List.replicate_append_replicate]
      congr 1
      omega
    have hprog := program_erased (erased hdrSize) t.context [] (n - hdrSize) (by omega)
    rw [List.length_replicate, ← List.append_assoc] at hprog
    rw [hsplit, hprog]
    exact FlashAt.context _ (by omega)

theorem flashAt_writeStorage (h : FlashAt o n t 2 lost flash) (hlen : flash.length = n)
    (hfit : hdrSize + t.context.length + t.storage.length ≤ n) :
    FlashAt o n t 3 lost (program (hdrSize + t.context.length) t.storage flash) := by
  cases h with
  | context m hm =>
    have hprog := program_erased (erased hdrSize ++ t.context) t.storage [] m hm
    rw [List.length_append, List.length_replicate] at hprog
    rw [hprog]
    have h3 : FlashAt o n t 3 false
        (erased hdrSize ++ (t.context ++ t.storage ++ (erased (m - t.storage.length) ++ []))) :=
      FlashAt.storage _
    simpa only [List.append_assoc] using h3
  | lost _ _ _ hff =>
    refine FlashAt.lost 3 (Or.inr rfl) _ ?_
    have hsize : hdrSize = 16 := rfl
    rw [program, overwrite, List.append_assoc, List.getElem?_append_left, List.getElem?_take_of_lt,
      hff]
    · omega
    · rw [List.length_take]
      omega

theorem flashAt_writeHeader (h : FlashAt o n t 3 false flash) :
    FlashAt o n t 4 false (program 0 (snapshotHdr t).toBytes flash) := by
  cases h with
  | storage rest =>
    rw [program_zero_erased _ _ _ (toBytes_length _).le, toBytes_length, Nat.sub_self,
      show erased 0 = [] from rfl, List.nil_append, ← List.append_assoc, ← List.append_assoc]
    exact FlashAt.header rest

/-- The restore's erase. -/
theorem flashAt_discard (h : FlashAt o n t k lost flash) (hlen : flash.length = n)
    (hn : hdrSize ≤ n) : FlashAt o n t k true (eraseRange 0 n flash) := by
  have hsize : hdrSize = 16 := rfl
  have hff : (erased n)[0]? = some erasedByte := by
    simp only [List.getElem?_replicate]
    rw [if_pos (by omega)]
  have herase : eraseRange 0 n flash = erased n := by
    rw [← hlen, eraseRange_all]
  rw [herase]
  cases h with
  | before _ _ _ => exact FlashAt.before true _ (Or.inr (rejected_of_first _ hff))
  | blank _ => exact FlashAt.blank true
  | context _ _ => exact FlashAt.lost 2 (Or.inl rfl) _ hff
  | storage _ => exact FlashAt.lost 3 (Or.inr rfl) _ hff
  | header _ => exact FlashAt.discarded
  | lost _ hk _ _ => exact FlashAt.lost _ hk _ hff
  | discarded => exact FlashAt.discarded

theorem flashAt_readContext (h : FlashAt o n t k false flash) (hk : 2 ≤ k) :
    readRange hdrSize t.context.length flash = t.context := by
  have hA : (erased hdrSize).length = hdrSize := List.length_replicate
  cases h with
  | before _ _ _ => omega
  | blank _ => omega
  | context m _ =>
    have hread := readRange_append (erased hdrSize) t.context (erased m ++ [])
    rw [hA] at hread
    rw [List.append_assoc]
    exact hread
  | storage rest =>
    have hread := readRange_append (erased hdrSize) t.context (t.storage ++ rest)
    rw [hA] at hread
    rw [List.append_assoc, ← List.append_assoc]
    exact hread
  | header rest => exact readRange_context t rest

theorem flashAt_readStorage (h : FlashAt o n t k false flash) (hk : 3 ≤ k) :
    readRange (hdrSize + t.context.length) t.storage.length flash = t.storage := by
  cases h with
  | before _ _ _ => omega
  | blank _ => omega
  | context m _ => omega
  | storage rest =>
    have hread := readRange_append (erased hdrSize ++ t.context) t.storage rest
    rw [List.length_append, List.length_replicate] at hread
    rw [← List.append_assoc, ← List.append_assoc]
    exact hread
  | header rest => exact readRange_storage t rest

/-- A header the restore accepts is the one of the old blob before the persist's erase, or the one
the persist has just committed. -/
theorem flashAt_accepted (h : FlashAt o n t k false flash) (ht : t.WellSized)
    (hacc : Accepts flash t.context.length t.storage.length) :
    ∃ s, Holds flash s ∧ ((k = 0 ∧ o = some s) ∨ (k = 4 ∧ s = t)) ∧
      t.context.length = s.context.length ∧ t.storage.length = s.storage.length := by
  cases h with
  | before _ _ hrep =>
    have hacc' : ∃ s, o = some s ∧ s.WellSized ∧ Holds flash s ∧
        t.context.length = s.context.length ∧ t.storage.length = s.storage.length := by
      rcases hrep with hrep | hrep
      · exact represents_accepted o t ht flash hrep hacc
      · exact absurd hacc (hrep _ _ ht.storage_lt)
    obtain ⟨s, ho, -, hholds, hc, hs⟩ := hacc'
    exact ⟨s, hholds, Or.inl ⟨rfl, ho⟩, hc, hs⟩
  | blank _ =>
    refine absurd hacc (rejected_of_first _ ?_ _ _ ht.storage_lt)
    have hlen := hacc.1
    have hsize : hdrSize = 16 := rfl
    rw [List.length_replicate] at hlen
    simp only [List.getElem?_replicate]
    rw [if_pos (by omega)]
  | context m _ =>
    refine absurd hacc (rejected_of_first _ ?_ _ _ ht.storage_lt)
    rw [List.append_assoc, List.append_assoc]
    exact erased_head _ _ (by decide)
  | storage rest =>
    exact absurd hacc (rejected_of_first _ (erased_head _ _ (by decide)) _ _ ht.storage_lt)
  | header rest => exact ⟨t, ⟨rest, rfl⟩, Or.inr ⟨rfl, rfl⟩, rfl, rfl⟩

end Bytes

/-! ### What is left of the persist -/

/-- What is left of the persist, and how many of its steps have succeeded. -/
inductive PersistAt (l : LogSnapshot) (n : ℕ) : LogProg ℤ → ℕ → Prop where
  | begin :
      PersistAt l n (.call (.objectSize .context) fun c => .call (.objectSize .storage) fun s =>
        persistSized c s) 0
  | sized :
      PersistAt l n (.call (.objectSize .storage) fun s => persistSized (some l.context.length) s) 0
  | opening : PersistAt l n (.call .openArea (persistOpened l.context.length l.storage.length)) 0
  | erase (h : hdrSize + l.context.length + l.storage.length ≤ n) :
      PersistAt l n (.call (.erase 0 n) fun err =>
        if err = 0 then persistWriteContext l.context.length l.storage.length else .ret err) 0
  | context (h : hdrSize + l.context.length + l.storage.length ≤ n) :
      PersistAt l n (.call (.writeFrom hdrSize .context l.context.length) fun err =>
        if err = 0 then persistWriteStorage l.context.length l.storage.length else .ret err) 1
  | storage (h : hdrSize + l.context.length + l.storage.length ≤ n) :
      PersistAt l n (.call (.writeFrom (hdrSize + l.context.length) .storage l.storage.length) fun err =>
        if err = 0 then persistWriteHeader l.context.length l.storage.length else .ret err) 2
  | header (h : hdrSize + l.context.length + l.storage.length ≤ n) :
      PersistAt l n (.call (.writeLocal 0 (blobHdr l.context.length l.storage.length).toBytes) .ret) 3
  | done (h : hdrSize + l.context.length + l.storage.length ≤ n) : PersistAt l n (.ret 0) 4
  | failed (k : ℕ) (err : ℤ) (h : err ≠ 0) : PersistAt l n (.ret err) k

section Left

variable {l : LogSnapshot} {n : ℕ} {w : LogWorld}

/-- Behind the open the persist erases, or has failed. -/
theorem persistAt_opened : PersistAt l n (persistOpened l.context.length l.storage.length (.ok n)) 0 := by
  show PersistAt l n (if n < hdrSize + l.context.length + l.storage.length then .ret enospc
    else persistErase l.context.length l.storage.length n) 0
  split
  · exact .failed _ _ (by decide)
  · exact .erase (by omega)

theorem persistAt_failed {err : ℤ} (h : err ≠ 0) (p : LogProg ℤ) (k : ℕ) :
    PersistAt l n (if err = 0 then p else .ret err) k := by
  rw [if_neg h]
  exact .failed k err h

theorem bytes_context_take (t : LogSnapshot) (hw : w.ram = liveRam t)
    (hc : t.context.length = l.context.length) :
    (w.bytes .context).take l.context.length = t.context := by
  rw [World.bytes, hw]
  show t.context.take l.context.length = t.context
  rw [← hc, List.take_length]

theorem bytes_storage_take (t : LogSnapshot) (hw : w.ram = liveRam t)
    (hs : t.storage.length = l.storage.length) :
    (w.bytes .storage).take l.storage.length = t.storage := by
  rw [World.bytes, hw]
  show t.storage.take l.storage.length = t.storage
  rw [← hs, List.take_length]

end Left

end WifiMemfault.LogStateProgress
