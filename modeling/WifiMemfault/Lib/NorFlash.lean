import WifiMemfault.Lib.EffectProgram
import WifiMemfault.Lib.ByteList

/-!
# Programs over one NOR flash partition

The signature of code that moves bytes between RAM objects and one flash area: open, read, write and
erase, the sizes of the RAM objects, the module's other static variables, and calls into outside
code.  RAM objects carry names from a type `ρ`; an object with no bytes behind it is a NULL pointer.
Reads and writes name their RAM object, so that each of them moves the bytes that object has at the
moment the call executes.

* Flash bytes erase to `0xFF`, in ascending order, and a write can only clear bits.
* The environment picks an `Outcome` for each call: success, an error code after the first `k` bytes
  took effect, or loss of power after the first `k` bytes.  A `FaultModel` says which of these a
  development allows; a call outside the area always fails with `-EINVAL` and no effect.
* `always_openArea`, `always_readLocal`, …, `always_erase` are the rules of the demonic precondition,
  one for each operation.
-/

namespace NorFlash

open EffectProgram ByteList

/-! ### The bytes of a partition -/

/-- The byte an erased cell reads as. -/
def erasedByte : UInt8 := 0xFF

/-- The partition after the bytes `xs` have been programmed at `off`: programming clears bits. -/
def program (off : ℕ) (xs flash : List UInt8) : List UInt8 :=
  overwrite off (List.zipWith (· &&& ·) (flash.drop off) xs) flash

/-- The partition after `len` bytes from `off` on have been erased. -/
def eraseRange (off len : ℕ) (flash : List UInt8) : List UInt8 :=
  overwrite off (List.replicate len erasedByte) flash

/-- The `len` bytes at offset `off`. -/
def readRange (off len : ℕ) (flash : List UInt8) : List UInt8 := (flash.drop off).take len

theorem and_erasedByte (b : UInt8) : erasedByte &&& b = b := by
  rw [UInt8.and_comm]
  exact UInt8.and_neg_one

theorem zipWith_and_erased (xs : List UInt8) (m : ℕ) (B : List UInt8) (h : xs.length ≤ m) :
    List.zipWith (· &&& ·) (List.replicate m erasedByte ++ B) xs = xs := by
  induction xs generalizing m with
  | nil => simp
  | cons x xs ih =>
    cases m with
    | zero => simp at h
    | succ m =>
      simp only [List.replicate_succ, List.cons_append, List.zipWith_cons_cons, and_erasedByte]
      rw [ih m (by simpa using h)]

/-- **Programming erased cells stores the bytes.** -/
theorem program_erased (A xs B : List UInt8) (m : ℕ) (h : xs.length ≤ m) :
    program A.length xs (A ++ List.replicate m erasedByte ++ B)
      = A ++ xs ++ (List.replicate (m - xs.length) erasedByte ++ B) := by
  have hdrop : (A ++ List.replicate m erasedByte ++ B).drop A.length
      = List.replicate m erasedByte ++ B := by
    rw [List.append_assoc, List.drop_left]
  have hsplit : A ++ List.replicate m erasedByte ++ B
      = A ++ List.replicate xs.length erasedByte
        ++ (List.replicate (m - xs.length) erasedByte ++ B) := by
    rw [List.append_assoc, List.append_assoc, ← List.append_assoc (List.replicate xs.length _),
      List.replicate_append_replicate]
    congr 4
    omega
  rw [program, hdrop, zipWith_and_erased xs m B h, hsplit]
  exact overwrite_append A xs _ _ (by simp)

theorem eraseRange_length (off len : ℕ) (flash : List UInt8) (h : off + len ≤ flash.length) :
    (eraseRange off len flash).length = flash.length :=
  overwrite_length _ _ _ (by simpa using h)

theorem program_length (off : ℕ) (xs flash : List UInt8) (h : off + xs.length ≤ flash.length) :
    (program off xs flash).length = flash.length := by
  refine overwrite_length _ _ _ ?_
  simp only [List.length_zipWith, List.length_drop]
  omega

/-- Erasing everything leaves only erased cells. -/
theorem eraseRange_all (flash : List UInt8) :
    eraseRange 0 flash.length flash = List.replicate flash.length erasedByte :=
  overwrite_zero_of_length_eq _ _ (by simp)

theorem eraseRange_zero (off : ℕ) (flash : List UInt8) : eraseRange off 0 flash = flash := by
  simp [eraseRange]

/-- An erase that got anywhere has erased the first byte. -/
theorem eraseRange_head (k : ℕ) (flash : List UInt8) (hk : 0 < k) :
    (eraseRange 0 k flash)[0]? = some erasedByte := by
  rw [eraseRange, getElem?_overwrite_zero _ _ _ (by simpa using hk)]
  simp [hk]

theorem readRange_length (off len : ℕ) (flash : List UInt8) (h : off + len ≤ flash.length) :
    (readRange off len flash).length = len := by
  simp only [readRange, List.length_take, List.length_drop]
  omega

theorem readRange_append (A xs B : List UInt8) :
    readRange A.length xs.length (A ++ xs ++ B) = xs := by
  rw [readRange, List.append_assoc, List.drop_left, List.take_left]

/-- `n` erased cells. -/
abbrev erased (n : ℕ) : List UInt8 := List.replicate n erasedByte

theorem erased_head (n : ℕ) (rest : List UInt8) (hn : 0 < n) :
    (erased n ++ rest)[0]? = some erasedByte := by
  rw [List.getElem?_append_left (by simpa using hn)]
  simp [hn]

theorem program_zero_erased (xs rest : List UInt8) (m : ℕ) (h : xs.length ≤ m) :
    program 0 xs (erased m ++ rest) = xs ++ (erased (m - xs.length) ++ rest) :=
  program_erased [] xs rest m h

/-! ### The operations -/

/-- Error codes are negative, zero is success. -/
abbrev Errno := {e : ℤ // e < 0}

/-- `-EIO` is one. -/
theorem eio_neg : (-5 : ℤ) < 0 := by decide

/-- `-EINVAL`, the answer to a call outside the flash area. -/
def errnoOutside : ℤ := -22

/-- What the environment decides for one call. -/
inductive Outcome where
  | ok
  | fail (err : Errno) (k : ℕ)
  | powerLoss (k : ℕ)
  deriving Inhabited

inductive CallKind where
  | openArea | read | write | erase
  deriving DecidableEq, Repr

/-- The calls of a program that works on one flash area and named RAM objects. -/
inductive FlashOp (ρ σ κ : Type) where
  | openArea
  | readLocal (off len : ℕ)
  | readInto (off : ℕ) (dst : ρ) (len : ℕ)
  | writeLocal (off : ℕ) (src : List UInt8)
  | writeFrom (off : ℕ) (src : ρ) (len : ℕ)
  | erase (off len : ℕ)
  | objectSize (obj : ρ)
  | getStatics
  | putStatics (s : σ)
  | load (src : ρ) (off len : ℕ)
  | store (dst : ρ) (bytes : List UInt8)
  | outside (f : κ)
  deriving DecidableEq

variable {ρ σ κ : Type}

@[reducible] def FlashOp.Ans : FlashOp ρ σ κ → Type
  | .openArea => Except ℤ ℕ
  | .readLocal _ _ => Except ℤ (List UInt8)
  | .readInto _ _ _ | .writeLocal _ _ | .writeFrom _ _ _ | .erase _ _ => ℤ
  | .objectSize _ => Option ℕ
  | .getStatics => σ
  | .load _ _ _ => List UInt8
  | .putStatics _ | .store _ _ | .outside _ => Unit

@[reducible] def flashSig (ρ σ κ : Type) : Signature := ⟨FlashOp ρ σ κ, FlashOp.Ans⟩

abbrev FlashProg (ρ σ κ α : Type) := Prog (flashSig ρ σ κ) α

/-! The calls as programs, under the names of the flash map API. -/

section Calls

variable {α : Type}

def flashAreaOpen : FlashProg ρ σ κ (Except ℤ ℕ) := @Prog.perform (flashSig ρ σ κ) .openArea

def flashAreaRead (off len : ℕ) : FlashProg ρ σ κ (Except ℤ (List UInt8)) :=
  @Prog.perform (flashSig ρ σ κ) (.readLocal off len)

def flashAreaReadInto (off : ℕ) (dst : ρ) (len : ℕ) : FlashProg ρ σ κ ℤ :=
  @Prog.perform (flashSig ρ σ κ) (.readInto off dst len)

def flashAreaWrite (off : ℕ) (src : List UInt8) : FlashProg ρ σ κ ℤ :=
  @Prog.perform (flashSig ρ σ κ) (.writeLocal off src)

def flashAreaWriteFrom (off : ℕ) (src : ρ) (len : ℕ) : FlashProg ρ σ κ ℤ :=
  @Prog.perform (flashSig ρ σ κ) (.writeFrom off src len)

def flashAreaErase (off len : ℕ) : FlashProg ρ σ κ ℤ :=
  @Prog.perform (flashSig ρ σ κ) (.erase off len)

def objectSize (obj : ρ) : FlashProg ρ σ κ (Option ℕ) :=
  @Prog.perform (flashSig ρ σ κ) (.objectSize obj)

def getStatics : FlashProg ρ σ κ σ := @Prog.perform (flashSig ρ σ κ) .getStatics

def putStatics (s : σ) : FlashProg ρ σ κ Unit := @Prog.perform (flashSig ρ σ κ) (.putStatics s)

def load (src : ρ) (off len : ℕ) : FlashProg ρ σ κ (List UInt8) :=
  @Prog.perform (flashSig ρ σ κ) (.load src off len)

def store (dst : ρ) (bytes : List UInt8) : FlashProg ρ σ κ Unit :=
  @Prog.perform (flashSig ρ σ κ) (.store dst bytes)

def outside (f : κ) : FlashProg ρ σ κ Unit := @Prog.perform (flashSig ρ σ κ) (.outside f)

@[simp] theorem flashAreaOpen_bind (next : Except ℤ ℕ → FlashProg ρ σ κ α) :
    (flashAreaOpen >>= next) = .call .openArea next := rfl

@[simp] theorem flashAreaRead_bind (off len : ℕ)
    (next : Except ℤ (List UInt8) → FlashProg ρ σ κ α) :
    (flashAreaRead off len >>= next) = .call (.readLocal off len) next := rfl

@[simp] theorem flashAreaReadInto_bind (off : ℕ) (dst : ρ) (len : ℕ)
    (next : ℤ → FlashProg ρ σ κ α) :
    (flashAreaReadInto off dst len >>= next) = .call (.readInto off dst len) next := rfl

@[simp] theorem flashAreaWrite_bind (off : ℕ) (src : List UInt8) (next : ℤ → FlashProg ρ σ κ α) :
    (flashAreaWrite off src >>= next) = .call (.writeLocal off src) next := rfl

@[simp] theorem flashAreaWriteFrom_bind (off : ℕ) (src : ρ) (len : ℕ)
    (next : ℤ → FlashProg ρ σ κ α) :
    (flashAreaWriteFrom off src len >>= next) = .call (.writeFrom off src len) next := rfl

@[simp] theorem flashAreaErase_bind (off len : ℕ) (next : ℤ → FlashProg ρ σ κ α) :
    (flashAreaErase off len >>= next) = .call (.erase off len) next := rfl

@[simp] theorem objectSize_bind (obj : ρ) (next : Option ℕ → FlashProg ρ σ κ α) :
    (objectSize obj >>= next) = .call (.objectSize obj) next := rfl

@[simp] theorem getStatics_bind (next : σ → FlashProg ρ σ κ α) :
    (getStatics >>= next) = .call .getStatics next := rfl

@[simp] theorem putStatics_bind (s : σ) (next : Unit → FlashProg ρ σ κ α) :
    (putStatics s >>= next) = .call (.putStatics s) next := rfl

@[simp] theorem load_bind (src : ρ) (off len : ℕ) (next : List UInt8 → FlashProg ρ σ κ α) :
    (load src off len >>= next) = .call (.load src off len) next := rfl

@[simp] theorem store_bind (dst : ρ) (bytes : List UInt8) (next : Unit → FlashProg ρ σ κ α) :
    (store dst bytes >>= next) = .call (.store dst bytes) next := rfl

@[simp] theorem outside_bind (f : κ) (next : Unit → FlashProg ρ σ κ α) :
    (outside f >>= next) = .call (.outside f) next := rfl

end Calls

/-- The flash area, the RAM objects and the module's other static variables. -/
structure World (ρ σ : Type) where
  flash : List UInt8
  ram : ρ → Option (List UInt8)
  statics : σ

/-- The bytes of a RAM object, none if the pointer is NULL. -/
def World.bytes (w : World ρ σ) (r : ρ) : List UInt8 := (w.ram r).getD []

variable [DecidableEq ρ]

/-- `memcpy` to the start of a RAM object. -/
def World.fill (w : World ρ σ) (dst : ρ) (xs : List UInt8) : World ρ σ :=
  { w with ram := Function.update w.ram dst ((w.ram dst).map (overwrite 0 xs)) }

theorem World.fill_of_some (w : World ρ σ) (dst : ρ) (xs bs : List UInt8) (h : w.ram dst = some bs) :
    (w.fill dst xs).ram dst = some (overwrite 0 xs bs) := by
  show Function.update w.ram dst ((w.ram dst).map (overwrite 0 xs)) dst = _
  rw [Function.update_self, h]
  rfl

theorem fill_nil (w : World ρ σ) (dst : ρ) : w.fill dst [] = w := by
  have hram : Function.update w.ram dst ((w.ram dst).map (overwrite 0 [])) = w.ram := by
    rw [Function.update_eq_self_iff]
    cases w.ram dst with
    | none => rfl
    | some l => simp
  rw [World.fill, hram]

/-! ### Fault models and the device -/

/-- Which failures the environment may pick.  With `torn` a failing call may have taken effect on a
prefix of its range, without it a failing call has no effect. -/
structure FaultModel where
  mayFail : CallKind → Bool
  torn : Bool
  powerLoss : Bool

namespace FaultModel

def reach (F : FaultModel) (k : ℕ) : ℕ := if F.torn then k else 0

/-- An outcome the fault model does not allow counts as success. -/
def allow (F : FaultModel) (kind : CallKind) : Outcome → Outcome
  | .ok => .ok
  | .fail e k => if F.mayFail kind then .fail e (F.reach k) else .ok
  | .powerLoss k => if F.powerLoss then .powerLoss (F.reach k) else .ok

/-- No call ever fails. -/
def none : FaultModel := ⟨fun _ => false, false, false⟩

theorem forall_allow (F : FaultModel) (kind : CallKind) (P : Outcome → Prop) :
    (∀ o, P (F.allow kind o)) ↔
      P .ok ∧ (F.mayFail kind = true → ∀ e k, P (.fail e (F.reach k))) ∧
        (F.powerLoss = true → ∀ k, P (.powerLoss (F.reach k))) := by
  constructor
  · intro h
    refine ⟨h .ok, fun hf e k => ?_, fun hp k => ?_⟩
    · simpa [allow, hf] using h (.fail e k)
    · simpa [allow, hp] using h (.powerLoss k)
  · rintro ⟨hok, hfail, hloss⟩ o
    cases o with
    | ok => exact hok
    | fail e k =>
      by_cases hf : F.mayFail kind = true
      · simpa [allow, hf] using hfail hf e k
      · simpa [allow, hf] using hok
    | powerLoss k =>
      by_cases hp : F.powerLoss = true
      · simpa [allow, hp] using hloss hp k
      · simpa [allow, hp] using hok

end FaultModel

/-- A flash call inside the area whose success has the effect `eff` on all of its `len` bytes. -/
def transfer (len : ℕ) (eff : ℕ → World ρ σ) : Outcome → Option ℤ × World ρ σ
  | .ok => (some 0, eff len)
  | .fail e k => (some e, eff (min k len))
  | .powerLoss k => (none, eff (min k len))

/-- The operations under a fault model; `outer` is what the outside calls do. -/
def stepFlash (F : FaultModel) (outer : κ → World ρ σ → World ρ σ) :
    (op : FlashOp ρ σ κ) → Outcome → World ρ σ → Option op.Ans × World ρ σ
  | .openArea, o, w =>
    match F.allow .openArea o with
    | .ok => (some (.ok w.flash.length), w)
    | .fail e _ => (some (.error e), w)
    | .powerLoss _ => (none, w)
  | .readLocal off len, o, w =>
    if off + len ≤ w.flash.length then
      match F.allow .read o with
      | .ok => (some (.ok (readRange off len w.flash)), w)
      | .fail e _ => (some (.error e), w)
      | .powerLoss _ => (none, w)
    else (some (.error errnoOutside), w)
  | .readInto off dst len, o, w =>
    if off + len ≤ w.flash.length then
      transfer len (fun k => w.fill dst (readRange off k w.flash)) (F.allow .read o)
    else (some errnoOutside, w)
  | .writeLocal off src, o, w =>
    if off + src.length ≤ w.flash.length then
      transfer src.length (fun k => { w with flash := program off (src.take k) w.flash })
        (F.allow .write o)
    else (some errnoOutside, w)
  | .writeFrom off src len, o, w =>
    if off + len ≤ w.flash.length then
      transfer len (fun k => { w with flash := program off ((w.bytes src).take k) w.flash })
        (F.allow .write o)
    else (some errnoOutside, w)
  | .erase off len, o, w =>
    if off + len ≤ w.flash.length then
      transfer len (fun k => { w with flash := eraseRange off k w.flash }) (F.allow .erase o)
    else (some errnoOutside, w)
  | .objectSize obj, _, w => (some ((w.ram obj).map List.length), w)
  | .getStatics, _, w => (some w.statics, w)
  | .putStatics s, _, w => (some (), { w with statics := s })
  | .load src off len, _, w => (some (((w.bytes src).drop off).take len), w)
  | .store dst xs, _, w => (some (), w.fill dst xs)
  | .outside f, _, w => (some (), outer f w)

def flashDevice (F : FaultModel) (outer : κ → World ρ σ → World ρ σ) :
    Device (flashSig ρ σ κ) Outcome (World ρ σ) := ⟨stepFlash F outer⟩

/-! ### One rule for each operation -/

section Rules

variable {α : Type} {F : FaultModel} {outer : κ → World ρ σ → World ρ σ}
variable {Q : α → World ρ σ → Prop} {C : World ρ σ → Prop} {w : World ρ σ}

/-- What a transfer owes its continuation: the whole effect and zero, or a prefix of the effect and
an error, or a prefix of the effect and no power. -/
def TransferOk (F : FaultModel) (kind : CallKind) (len : ℕ) (eff : ℕ → World ρ σ)
    (next : ℤ → World ρ σ → Prop) (C : World ρ σ → Prop) : Prop :=
  next 0 (eff len) ∧
    (F.mayFail kind = true → ∀ (e : Errno) k, next e (eff (min (F.reach k) len))) ∧
    (F.powerLoss = true → ∀ k, C (eff (min (F.reach k) len)))

omit [DecidableEq ρ] in
theorem forall_transfer (kind : CallKind) (len : ℕ) (eff : ℕ → World ρ σ)
    (next : ℤ → World ρ σ → Prop) :
    (∀ o, Ends next C (transfer len eff (F.allow kind o))) ↔ TransferOk F kind len eff next C :=
  F.forall_allow kind fun o => Ends next C (transfer len eff o)

omit [DecidableEq ρ] in
/-- Enough for a transfer: the complete effect with zero, every prefix with an error, and every
prefix without power. -/
theorem transferOk_intro {kind : CallKind} {len : ℕ} {eff : ℕ → World ρ σ}
    {next : ℤ → World ρ σ → Prop} (hok : next 0 (eff len))
    (hfail : ∀ e : ℤ, e ≠ 0 → ∀ k ≤ len, next e (eff k)) (hloss : ∀ k ≤ len, C (eff k)) :
    TransferOk F kind len eff next C :=
  ⟨hok, fun _ e _ => hfail e e.property.ne _ (Nat.min_le_right _ _),
    fun _ _ => hloss _ (Nat.min_le_right _ _)⟩

theorem always_openArea (next : Except ℤ ℕ → FlashProg ρ σ κ α) :
    Always (flashDevice F outer) Q C (.call .openArea next) w ↔
      Always (flashDevice F outer) Q C (next (.ok w.flash.length)) w ∧
        (F.mayFail .openArea = true →
          ∀ e : Errno, Always (flashDevice F outer) Q C (next (.error e)) w) ∧
        (F.powerLoss = true → C w) := by
  rw [always_call]
  refine (F.forall_allow .openArea fun o => Ends
    (fun x w' => Always (flashDevice F outer) Q C (next x) w') C
    (match o with
      | .ok => (some (.ok w.flash.length), w)
      | .fail e _ => (some (.error e), w)
      | .powerLoss _ => (none, w))).trans ?_
  simp only [Ends, forall_const]

theorem always_readLocal (off len : ℕ) (next : Except ℤ (List UInt8) → FlashProg ρ σ κ α)
    (h : off + len ≤ w.flash.length) :
    Always (flashDevice F outer) Q C (.call (.readLocal off len) next) w ↔
      Always (flashDevice F outer) Q C (next (.ok (readRange off len w.flash))) w ∧
        (F.mayFail .read = true →
          ∀ e : Errno, Always (flashDevice F outer) Q C (next (.error e)) w) ∧
        (F.powerLoss = true → C w) := by
  rw [always_call]
  simp only [flashDevice, stepFlash, if_pos h]
  refine (F.forall_allow .read fun o => Ends
    (fun x w' => Always (flashDevice F outer) Q C (next x) w') C
    (match o with
      | .ok => (some (.ok (readRange off len w.flash)), w)
      | .fail e _ => (some (.error e), w)
      | .powerLoss _ => (none, w))).trans ?_
  simp only [Ends, flashDevice, forall_const]

theorem always_readLocal_outside (off len : ℕ) (next : Except ℤ (List UInt8) → FlashProg ρ σ κ α)
    (h : ¬ off + len ≤ w.flash.length) :
    Always (flashDevice F outer) Q C (.call (.readLocal off len) next) w ↔
      Always (flashDevice F outer) Q C (next (.error errnoOutside)) w := by
  rw [always_call]
  simp only [flashDevice, stepFlash, if_neg h, Ends, forall_const]

theorem always_readInto (off : ℕ) (dst : ρ) (len : ℕ) (next : ℤ → FlashProg ρ σ κ α)
    (h : off + len ≤ w.flash.length) :
    Always (flashDevice F outer) Q C (.call (.readInto off dst len) next) w ↔
      TransferOk F .read len (fun k => w.fill dst (readRange off k w.flash))
        (fun err w' => Always (flashDevice F outer) Q C (next err) w') C := by
  rw [always_call, ← forall_transfer]
  simp only [flashDevice, stepFlash, if_pos h]

theorem always_readInto_outside (off : ℕ) (dst : ρ) (len : ℕ) (next : ℤ → FlashProg ρ σ κ α)
    (h : ¬ off + len ≤ w.flash.length) :
    Always (flashDevice F outer) Q C (.call (.readInto off dst len) next) w ↔
      Always (flashDevice F outer) Q C (next errnoOutside) w := by
  rw [always_call]
  simp only [flashDevice, stepFlash, if_neg h, Ends, forall_const]

theorem always_writeLocal (off : ℕ) (src : List UInt8) (next : ℤ → FlashProg ρ σ κ α)
    (h : off + src.length ≤ w.flash.length) :
    Always (flashDevice F outer) Q C (.call (.writeLocal off src) next) w ↔
      TransferOk F .write src.length
        (fun k => { w with flash := program off (src.take k) w.flash })
        (fun err w' => Always (flashDevice F outer) Q C (next err) w') C := by
  rw [always_call, ← forall_transfer]
  simp only [flashDevice, stepFlash, if_pos h]

theorem always_writeFrom (off : ℕ) (src : ρ) (len : ℕ) (next : ℤ → FlashProg ρ σ κ α)
    (h : off + len ≤ w.flash.length) :
    Always (flashDevice F outer) Q C (.call (.writeFrom off src len) next) w ↔
      TransferOk F .write len
        (fun k => { w with flash := program off ((w.bytes src).take k) w.flash })
        (fun err w' => Always (flashDevice F outer) Q C (next err) w') C := by
  rw [always_call, ← forall_transfer]
  simp only [flashDevice, stepFlash, if_pos h]

theorem always_erase (off len : ℕ) (next : ℤ → FlashProg ρ σ κ α)
    (h : off + len ≤ w.flash.length) :
    Always (flashDevice F outer) Q C (.call (.erase off len) next) w ↔
      TransferOk F .erase len (fun k => { w with flash := eraseRange off k w.flash })
        (fun err w' => Always (flashDevice F outer) Q C (next err) w') C := by
  rw [always_call, ← forall_transfer]
  simp only [flashDevice, stepFlash, if_pos h]

@[simp] theorem always_objectSize (obj : ρ) (next : Option ℕ → FlashProg ρ σ κ α) :
    Always (flashDevice F outer) Q C (.call (.objectSize obj) next) w ↔
      Always (flashDevice F outer) Q C (next ((w.ram obj).map List.length)) w :=
  ⟨fun h => h .ok, fun h _ => h⟩

@[simp] theorem always_getStatics (next : σ → FlashProg ρ σ κ α) :
    Always (flashDevice F outer) Q C (.call .getStatics next) w ↔
      Always (flashDevice F outer) Q C (next w.statics) w :=
  ⟨fun h => h .ok, fun h _ => h⟩

@[simp] theorem always_putStatics (s : σ) (next : Unit → FlashProg ρ σ κ α) :
    Always (flashDevice F outer) Q C (.call (.putStatics s) next) w ↔
      Always (flashDevice F outer) Q C (next ()) { w with statics := s } :=
  ⟨fun h => h .ok, fun h _ => h⟩

@[simp] theorem always_load (src : ρ) (off len : ℕ) (next : List UInt8 → FlashProg ρ σ κ α) :
    Always (flashDevice F outer) Q C (.call (.load src off len) next) w ↔
      Always (flashDevice F outer) Q C (next (((w.bytes src).drop off).take len)) w :=
  ⟨fun h => h .ok, fun h _ => h⟩

@[simp] theorem always_store (dst : ρ) (xs : List UInt8) (next : Unit → FlashProg ρ σ κ α) :
    Always (flashDevice F outer) Q C (.call (.store dst xs) next) w ↔
      Always (flashDevice F outer) Q C (next ()) (w.fill dst xs) :=
  ⟨fun h => h .ok, fun h _ => h⟩

@[simp] theorem always_outside (f : κ) (next : Unit → FlashProg ρ σ κ α) :
    Always (flashDevice F outer) Q C (.call (.outside f) next) w ↔
      Always (flashDevice F outer) Q C (next ()) (outer f w) :=
  ⟨fun h => h .ok, fun h _ => h⟩

end Rules

/-! ### Devices that keep their power -/

section Powered

variable {α : Type} {F : FaultModel} {outer : κ → World ρ σ → World ρ σ}
variable {Q : α → World ρ σ → Prop} {C : World ρ σ → Prop} {w : World ρ σ}

theorem allow_ne_powerLoss (hF : F.powerLoss = false) (kind : CallKind) (o : Outcome) (k : ℕ) :
    F.allow kind o ≠ .powerLoss k := by
  cases o with
  | ok => exact Outcome.noConfusion
  | fail e j =>
    simp only [FaultModel.allow]
    split
    · exact Outcome.noConfusion
    · exact Outcome.noConfusion
  | powerLoss j =>
    simp only [FaultModel.allow, hF]
    exact Outcome.noConfusion

omit [DecidableEq ρ] in
theorem transfer_powered (hF : F.powerLoss = false) (kind : CallKind) (len : ℕ)
    (eff : ℕ → World ρ σ) (o : Outcome) : (transfer len eff (F.allow kind o)).1 ≠ none := by
  have h := allow_ne_powerLoss hF kind o
  cases ho : F.allow kind o with
  | ok => exact Option.some_ne_none _
  | fail e k => exact Option.some_ne_none _
  | powerLoss k => exact absurd ho (h k)

theorem stepFlash_powered (hF : F.powerLoss = false) (op : FlashOp ρ σ κ) (o : Outcome) :
    (stepFlash F outer op o w).1 ≠ none := by
  cases op with
  | openArea =>
    have h := allow_ne_powerLoss hF .openArea o
    simp only [stepFlash]
    cases ho : F.allow .openArea o with
    | ok => exact Option.some_ne_none _
    | fail e k => exact Option.some_ne_none _
    | powerLoss k => exact absurd ho (h k)
  | readLocal off len =>
    have h := allow_ne_powerLoss hF .read o
    simp only [stepFlash]
    split
    · cases ho : F.allow .read o with
      | ok => exact Option.some_ne_none _
      | fail e k => exact Option.some_ne_none _
      | powerLoss k => exact absurd ho (h k)
    · exact Option.some_ne_none _
  | readInto off dst len =>
    simp only [stepFlash]
    split
    · exact transfer_powered hF _ _ _ _
    · exact Option.some_ne_none _
  | writeLocal off src =>
    simp only [stepFlash]
    split
    · exact transfer_powered hF _ _ _ _
    · exact Option.some_ne_none _
  | writeFrom off src len =>
    simp only [stepFlash]
    split
    · exact transfer_powered hF _ _ _ _
    · exact Option.some_ne_none _
  | erase off len =>
    simp only [stepFlash]
    split
    · exact transfer_powered hF _ _ _ _
    · exact Option.some_ne_none _
  | objectSize obj => exact Option.some_ne_none _
  | getStatics => exact Option.some_ne_none _
  | putStatics s => exact Option.some_ne_none _
  | load src off len => exact Option.some_ne_none _
  | store dst bytes => exact Option.some_ne_none _
  | outside f => exact Option.some_ne_none _

/-- How far a read of `len` bytes at `off` gets: the bytes it delivers, and whether it succeeds. -/
def FaultModel.readGot (F : FaultModel) (flash : List UInt8) (off len : ℕ) (o : Outcome) :
    List UInt8 × Bool :=
  if off + len ≤ flash.length then
    match F.allow .read o with
    | .ok => (readRange off len flash, true)
    | .fail _ k | .powerLoss k => (readRange off (min k len) flash, false)
  else ([], false)

/-- A read into a RAM object returns, and has put over it what it got. -/
theorem step_readInto_powered (hF : F.powerLoss = false) (off : ℕ) (dst : ρ) (len : ℕ) (o : Outcome) :
    ∃ err, (flashDevice F outer).step (.readInto off dst len) o w
        = (some err, w.fill dst (F.readGot w.flash off len o).1) ∧
      (err = 0 ↔ (F.readGot w.flash off len o).2 = true) := by
  by_cases hfit : off + len ≤ w.flash.length
  · simp only [flashDevice, stepFlash, if_pos hfit, FaultModel.readGot]
    have hpower := allow_ne_powerLoss hF .read o
    cases ho : F.allow .read o with
    | ok => exact ⟨0, rfl, by simp⟩
    | fail e k => exact ⟨e, rfl, by simp [e.property.ne]⟩
    | powerLoss k => exact absurd ho (hpower k)
  · simp only [flashDevice, stepFlash, if_neg hfit, FaultModel.readGot]
    exact ⟨errnoOutside, by rw [fill_nil], by simp [errnoOutside]⟩

/-- The program goes on with the error of the read, and with what it got in the object. -/
theorem exec_readInto_powered (hF : F.powerLoss = false) (w : World ρ σ) (off : ℕ) (dst : ρ) (len : ℕ)
    (next : ℤ → FlashProg ρ σ κ α) (os : ℕ → Outcome) :
    ∃ err, (flashDevice F outer).exec (.call (.readInto off dst len) next) os w
        = (flashDevice F outer).exec (next err) (fun i => os (i + 1))
          (w.fill dst (F.readGot w.flash off len (os 0)).1) ∧
      (err = 0 ↔ (F.readGot w.flash off len (os 0)).2 = true) := by
  obtain ⟨err, hstep, hzero⟩ : ∃ err, (flashDevice F outer).step (.readInto off dst len) (os 0) w
        = (some err, w.fill dst (F.readGot w.flash off len (os 0)).1) ∧
      (err = 0 ↔ (F.readGot w.flash off len (os 0)).2 = true) :=
    step_readInto_powered hF off dst len (os 0)
  refine ⟨err, ?_, hzero⟩
  simp only [Device.exec, hstep]

/-- The header of `len` bytes an opened area delivers, none if the open or the read fails. -/
def FaultModel.headerGot (F : FaultModel) (flash : List UInt8) (len : ℕ) (os : ℕ → Outcome) :
    Option (List UInt8) :=
  match F.allow .openArea (os 0), F.allow .read (os 1) with
  | .ok, .ok => if 0 + len ≤ flash.length then some (readRange 0 len flash) else Option.none
  | _, _ => Option.none

theorem exec_readLocal_powered (hF : F.powerLoss = false) (len : ℕ) (e : α)
    (next : Except ℤ (List UInt8) → FlashProg ρ σ κ α) (hnext : ∀ err, next (.error err) = .ret e)
    (os : ℕ → Outcome) :
    (flashDevice F outer).exec (.call (.readLocal 0 len) next) os w =
      match F.allow .read (os 0) with
      | .ok =>
        if 0 + len ≤ w.flash.length then
          (flashDevice F outer).exec (next (.ok (readRange 0 len w.flash))) (fun i => os (i + 1)) w
        else (some e, w)
      | _ => (some e, w) := by
  have hpower := allow_ne_powerLoss hF .read (os 0)
  have hfails : ∀ err, (flashDevice F outer).exec (next (.error err)) (fun i => os (i + 1)) w
      = (some e, w) := by
    intro err
    rw [hnext err]
    rfl
  by_cases hfit : 0 + len ≤ w.flash.length
  · have hstep : (flashDevice F outer).step (.readLocal 0 len) (os 0) w
        = (match F.allow .read (os 0) with
          | .ok => (some (.ok (readRange 0 len w.flash)), w)
          | .fail err _ => (some (.error err), w)
          | .powerLoss _ => (none, w)) := if_pos hfit
    simp only [Device.exec, hstep, if_pos hfit]
    cases ho : F.allow .read (os 0) with
    | ok => rfl
    | fail err k => exact hfails err
    | powerLoss k => exact absurd ho (hpower k)
  · have hstep : (flashDevice F outer).step (.readLocal 0 len) (os 0) w
        = (some (.error errnoOutside), w) := if_neg hfit
    simp only [Device.exec, hstep, if_neg hfit, hfails errnoOutside]
    cases F.allow .read (os 0) with
    | ok => rfl
    | fail err k => rfl
    | powerLoss k => rfl

/-- Code that opens the area and reads a header, and gives up with `e` where one of them fails. -/
theorem exec_header_powered (hF : F.powerLoss = false) (len : ℕ) (e : α)
    (opened : Except ℤ ℕ → FlashProg ρ σ κ α)
    (next : ℕ → Except ℤ (List UInt8) → FlashProg ρ σ κ α)
    (herror : ∀ err, opened (.error err) = .ret e)
    (hok : ∀ faSize, opened (.ok faSize) = .call (.readLocal 0 len) (next faSize))
    (hnext : ∀ faSize err, next faSize (.error err) = .ret e) (os : ℕ → Outcome) :
    (flashDevice F outer).exec (.call .openArea opened) os w =
      match F.headerGot w.flash len os with
      | some bytes =>
        (flashDevice F outer).exec (next w.flash.length (.ok bytes)) (fun i => os (i + 2)) w
      | none => (some e, w) := by
  have hpower := allow_ne_powerLoss hF .openArea (os 0)
  have hread : (flashDevice F outer).exec (.call (.readLocal 0 len) (next w.flash.length))
      (fun i => os (i + 1)) w = _ :=
    exec_readLocal_powered hF len e (next w.flash.length) (hnext w.flash.length) _
  have hstep : (flashDevice F outer).step .openArea (os 0) w
      = (match F.allow .openArea (os 0) with
        | .ok => (some (.ok w.flash.length), w)
        | .fail err _ => (some (.error err), w)
        | .powerLoss _ => (none, w)) := rfl
  rw [FaultModel.headerGot]
  simp only [Device.exec, hstep]
  cases ho : F.allow .openArea (os 0) with
  | ok =>
    simp only [hok, hread]
    cases F.allow .read (os 1) with
    | ok =>
      simp only
      split
      · rfl
      · rfl
    | fail err k => rfl
    | powerLoss k => rfl
  | fail err k =>
    simp only [herror]
    rfl
  | powerLoss k => exact absurd ho (hpower k)

/-- Without loss of power every run returns, and where it returns `Q` holds. -/
theorem always_powered (hF : F.powerLoss = false) {p : FlashProg ρ σ κ α}
    (h : Always (flashDevice F outer) Q C p w) (os : ℕ → Outcome) :
    ∃ a w', (flashDevice F outer).exec p os w = (some a, w') ∧ Q a w' := by
  induction p generalizing w os with
  | ret a => exact ⟨a, w, rfl, h⟩
  | call op next ih =>
    have hstep := h (os 0)
    have hpow : ((flashDevice F outer).step op (os 0) w).1 ≠ none := stepFlash_powered hF op (os 0)
    simp only [Device.exec]
    generalize (flashDevice F outer).step op (os 0) w = r at hstep hpow ⊢
    obtain ⟨_ | x, w'⟩ := r
    · exact absurd rfl hpow
    · exact ih x hstep _

end Powered

/-! ### Atomic calls -/

/-- Every call may fail, but a failing call has no effect and the power stays on. -/
def atomicFaults : FaultModel := ⟨fun _ => true, false, false⟩

section Atomic

variable {outer : κ → World ρ σ → World ρ σ} {o : Outcome} {w w' : World ρ σ}

theorem program_nil (off : ℕ) (flash : List UInt8) : program off [] flash = flash := by
  simp [program]

omit [DecidableEq ρ] in
/-- An atomic transfer takes effect or does not. -/
theorem transfer_atomic {kind : CallKind} {len : ℕ} {eff : ℕ → World ρ σ} {err : ℤ}
    (h0 : eff 0 = w) (h : transfer len eff (atomicFaults.allow kind o) = (some err, w')) :
    (err = 0 ∧ w' = eff len) ∨ (err ≠ 0 ∧ w' = w) := by
  cases o with
  | ok =>
    obtain ⟨rfl, rfl⟩ : (0 : ℤ) = err ∧ eff len = w' := by
      simpa [transfer, FaultModel.allow] using h
    exact Or.inl ⟨rfl, rfl⟩
  | fail e k =>
    obtain ⟨rfl, rfl⟩ : (e : ℤ) = err ∧ eff 0 = w' := by
      simpa [transfer, FaultModel.allow, atomicFaults, FaultModel.reach] using h
    exact Or.inr ⟨e.property.ne, h0⟩
  | powerLoss k =>
    obtain ⟨rfl, rfl⟩ : (0 : ℤ) = err ∧ eff len = w' := by
      simpa [transfer, FaultModel.allow, atomicFaults] using h
    exact Or.inl ⟨rfl, rfl⟩

theorem atomic_erase {off len : ℕ} {err : ℤ} (hfit : off + len ≤ w.flash.length)
    (h : (flashDevice atomicFaults outer).step (.erase off len) o w = (some err, w')) :
    (err = 0 ∧ w' = { w with flash := eraseRange off len w.flash }) ∨ (err ≠ 0 ∧ w' = w) := by
  simp only [flashDevice, stepFlash, if_pos hfit] at h
  refine transfer_atomic ?_ h
  show { w with flash := eraseRange off 0 w.flash } = w
  rw [eraseRange_zero]

theorem atomic_writeFrom {off len : ℕ} {src : ρ} {err : ℤ} (hfit : off + len ≤ w.flash.length)
    (h : (flashDevice atomicFaults outer).step (.writeFrom off src len) o w = (some err, w')) :
    (err = 0 ∧ w' = { w with flash := program off ((w.bytes src).take len) w.flash }) ∨
      (err ≠ 0 ∧ w' = w) := by
  simp only [flashDevice, stepFlash, if_pos hfit] at h
  refine transfer_atomic ?_ h
  show { w with flash := program off ((w.bytes src).take 0) w.flash } = w
  rw [List.take_zero, program_nil]

theorem atomic_writeLocal {off : ℕ} {src : List UInt8} {err : ℤ}
    (hfit : off + src.length ≤ w.flash.length)
    (h : (flashDevice atomicFaults outer).step (.writeLocal off src) o w = (some err, w')) :
    (err = 0 ∧ w' = { w with flash := program off src w.flash }) ∨ (err ≠ 0 ∧ w' = w) := by
  simp only [flashDevice, stepFlash, if_pos hfit] at h
  have h' := transfer_atomic (w := w) ?_ h
  · simpa only [List.take_length] using h'
  · show { w with flash := program off (src.take 0) w.flash } = w
    rw [List.take_zero, program_nil]

theorem atomic_readInto {off len : ℕ} {dst : ρ} {err : ℤ} (hfit : off + len ≤ w.flash.length)
    (h : (flashDevice atomicFaults outer).step (.readInto off dst len) o w = (some err, w')) :
    (err = 0 ∧ w' = w.fill dst (readRange off len w.flash)) ∨ (err ≠ 0 ∧ w' = w) := by
  simp only [flashDevice, stepFlash, if_pos hfit] at h
  refine transfer_atomic ?_ h
  show w.fill dst (readRange off 0 w.flash) = w
  rw [readRange, List.take_zero, fill_nil]

/-- A header read gives the bytes of the partition or an error, and changes nothing. -/
theorem atomic_readLocal {off len : ℕ} {ans : Except ℤ (List UInt8)}
    (h : (flashDevice atomicFaults outer).step (.readLocal off len) o w = (some ans, w')) :
    w' = w ∧ ((∃ e, ans = .error e) ∨
      (off + len ≤ w.flash.length ∧ ans = .ok (readRange off len w.flash))) := by
  simp only [flashDevice, stepFlash] at h
  by_cases hfit : off + len ≤ w.flash.length
  · rw [if_pos hfit] at h
    cases o with
    | ok =>
      cases h
      exact ⟨rfl, Or.inr ⟨hfit, rfl⟩⟩
    | fail e k =>
      cases h
      exact ⟨rfl, Or.inl ⟨e, rfl⟩⟩
    | powerLoss k =>
      cases h
      exact ⟨rfl, Or.inr ⟨hfit, rfl⟩⟩
  · rw [if_neg hfit] at h
    cases h
    exact ⟨rfl, Or.inl ⟨errnoOutside, rfl⟩⟩

theorem atomic_openArea {ans : Except ℤ ℕ}
    (h : (flashDevice atomicFaults outer).step .openArea o w = (some ans, w')) :
    w' = w ∧ ((∃ e : Errno, ans = .error e) ∨ ans = .ok w.flash.length) := by
  cases o with
  | ok =>
    cases h
    exact ⟨rfl, Or.inr rfl⟩
  | fail e k =>
    cases h
    exact ⟨rfl, Or.inl ⟨e, rfl⟩⟩
  | powerLoss k =>
    cases h
    exact ⟨rfl, Or.inr rfl⟩

theorem atomic_objectSize {obj : ρ} {ans : Option ℕ}
    (h : (flashDevice atomicFaults outer).step (.objectSize obj) o w = (some ans, w')) :
    w' = w ∧ ans = (w.ram obj).map List.length := by
  cases h
  exact ⟨rfl, rfl⟩

end Atomic

end NorFlash
