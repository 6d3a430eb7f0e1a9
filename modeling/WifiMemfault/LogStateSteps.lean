import WifiMemfault.LogStateImage

/-!
# The two functions, call by call

The programs of `LogStateRestore` unfolded into what is left to do before each flash call.  The crash
and the interleaving arguments walk through these remainders, and `memfaultLogStatePersistNow_eq`
and `restoreFromPartition_eq` are the only places that look at the functions' `do` blocks.
-/

namespace WifiMemfault.LogStateSteps

open EffectProgram NorFlash LogStateRestore LogStateImage

/-! ### The persist -/

def persistWriteHeader (cl sl : ℕ) : LogProg ℤ :=
  .call (.writeLocal 0 (blobHdr cl sl).toBytes) .ret

def persistWriteStorage (cl sl : ℕ) : LogProg ℤ :=
  .call (.writeFrom (hdrSize + cl) .storage sl) fun err =>
    if err = 0 then persistWriteHeader cl sl else .ret err

def persistWriteContext (cl sl : ℕ) : LogProg ℤ :=
  .call (.writeFrom hdrSize .context cl) fun err =>
    if err = 0 then persistWriteStorage cl sl else .ret err

def persistErase (cl sl faSize : ℕ) : LogProg ℤ :=
  .call (.erase 0 faSize) fun err => if err = 0 then persistWriteContext cl sl else .ret err

def persistOpened (cl sl : ℕ) : Except ℤ ℕ → LogProg ℤ
  | .error err => .ret err
  | .ok faSize =>
    if faSize < hdrSize + cl + sl then .ret enospc else persistErase cl sl faSize

def persistSized : Option ℕ → Option ℕ → LogProg ℤ
  | some cl, some sl => .call .openArea (persistOpened cl sl)
  | _, _ => .ret einval

theorem memfaultLogStatePersistNow_eq :
    memfaultLogStatePersistNow =
      .call (.objectSize .context) fun c => .call (.objectSize .storage) fun s =>
        persistSized c s := by
  refine Prog.call_congr fun c => Prog.call_congr fun s => ?_
  cases c with
  | none => rfl
  | some cl =>
    cases s with
    | none => rfl
    | some sl =>
      refine Prog.call_congr fun fa => ?_
      cases fa with
      | error err => rfl
      | ok faSize =>
        simp only [persistOpened]
        refine if_congr Iff.rfl rfl ?_
        refine Prog.call_congr fun err => ?_
        by_cases herr : err = 0
        · refine (if_neg (not_not.mpr herr)).trans (Eq.trans ?_ (if_pos herr).symm)
          refine Prog.call_congr fun werr => ?_
          by_cases hw : werr = 0
          · refine (if_pos hw).trans (Eq.trans ?_ (if_pos hw).symm)
            refine Prog.call_congr fun serr => ?_
            by_cases hs : serr = 0
            · exact (if_neg (not_not.mpr hs)).trans (if_pos hs).symm
            · exact (if_pos hs).trans (if_neg hs).symm
          · exact (if_neg hw).trans ((if_pos hw).trans (if_neg hw).symm)
        · exact (if_pos herr).trans (if_neg herr).symm

/-! ### The restore -/

def restoreErase (faSize : ℕ) (err : ℤ) : LogProg ℤ := .call (.erase 0 faSize) fun _ => .ret err

def restoreCopyStorage (cl sl faSize : ℕ) : LogProg ℤ :=
  .call (.readInto (hdrSize + cl) .storage sl) fun err => restoreErase faSize err

def restoreCopyContext (cl sl faSize : ℕ) : LogProg ℤ :=
  .call (.readInto hdrSize .context cl) fun err =>
    if err = 0 then restoreCopyStorage cl sl faSize else restoreErase faSize err

def restoreSized (hdr : LogStateHdr) (faSize : ℕ) : Option ℕ → Option ℕ → LogProg ℤ
  | some cl, some sl =>
    if hdr.contextLen = UInt32.ofNat cl ∧ hdr.storageLen = UInt32.ofNat sl then
      restoreCopyContext hdr.contextLen.toNat hdr.storageLen.toNat faSize
    else restoreErase faSize enospc
  | _, _ => restoreErase faSize einval

def restoreChecked (hdr : LogStateHdr) (faSize : ℕ) : LogProg ℤ :=
  if hdr.Valid then
    .call (.objectSize .context) fun c => .call (.objectSize .storage) fun s =>
      restoreSized hdr faSize c s
  else .ret enoent

def restoreHdrRead (faSize : ℕ) : Except ℤ (List UInt8) → LogProg ℤ
  | .error _ => .ret enoent
  | .ok bytes => restoreChecked (LogStateHdr.ofBytes bytes) faSize

def restoreOpened : Except ℤ ℕ → LogProg ℤ
  | .error _ => .ret enoent
  | .ok faSize => .call (.readLocal 0 hdrSize) (restoreHdrRead faSize)

theorem restoreFromPartition_eq : restoreFromPartition = .call .openArea restoreOpened := by
  refine Prog.call_congr fun fa => ?_
  cases fa with
  | error err => rfl
  | ok faSize =>
    refine Prog.call_congr fun bytes => ?_
    cases bytes with
    | error err => rfl
    | ok bytes =>
      by_cases hv : (LogStateHdr.ofBytes bytes).Valid
      · refine (if_neg (not_not.mpr hv)).trans (Eq.trans ?_ (if_pos hv).symm)
        refine Prog.call_congr fun c => Prog.call_congr fun s => ?_
        cases c with
        | none => rfl
        | some cl =>
          cases s with
          | none => rfl
          | some sl =>
            by_cases hsame : (LogStateHdr.ofBytes bytes).contextLen = UInt32.ofNat cl ∧
                (LogStateHdr.ofBytes bytes).storageLen = UInt32.ofNat sl
            · refine (if_neg ?_).trans (Eq.trans ?_ (if_pos hsame).symm)
              · rw [not_or, not_not, not_not]
                exact hsame
              refine Prog.call_congr fun err => ?_
              by_cases herr : err = 0
              · exact (if_pos herr).trans (if_pos herr).symm
              · exact (if_neg herr).trans (if_neg herr).symm
            · exact (if_pos (not_and_or.mp hsame)).trans (if_neg hsame).symm
      · exact (if_pos hv).trans (if_neg hv).symm

theorem memfaultLogStateRestoreOnConnect_eq :
    memfaultLogStateRestoreOnConnect = restoreFromPartition >>= fun err =>
      if err = 0 then
        .call (.outside .memfaultLogDataSourceReset) fun _ =>
          .call (.outside .restoreMarker) fun _ => .ret 0
      else .ret err := by
  refine congrArg (restoreFromPartition >>= ·) (funext fun err => ?_)
  by_cases herr : err = 0
  · exact (if_neg (not_not.mpr herr)).trans (if_pos herr).symm
  · exact (if_pos herr).trans (if_neg herr).symm

end WifiMemfault.LogStateSteps
