import VMate.CsrFile

namespace VMate.FpCtrl

open CsrFile

/-- The FP control state that decoding and rounding depend on: FS and `frm`. -/
def fpCtrl (c : CsrFile.State) : BitVec 2 × BitVec 3 := (c.mstatusFs, c.frmReg)

/-- The same after a write of `w` to the CSR `a`. -/
def fpCtrlWrite (a : BitVec 12) (w : BitVec 32) (v : BitVec 2 × BitVec 3) : BitVec 2 × BitVec 3 :=
  if a = csrMstatus then (w.extractLsb 14 13, v.2)
  else if a = csrFrm then (v.1, w.extractLsb 2 0)
  else if a = csrFcsr then (v.1, w.extractLsb 7 5)
  else v

theorem fpCtrlWrite_fs {a : BitVec 12} (h : a ≠ csrMstatus) (w : BitVec 32) (v : BitVec 2 × BitVec 3) :
    (fpCtrlWrite a w v).1 = v.1 := by
  rw [fpCtrlWrite, if_neg h]
  split_ifs <;> rfl

theorem fpCtrl_csrUpdate (c : State) (a : BitVec 12) (w : BitVec 32) :
    fpCtrl (csrUpdate c a w) = fpCtrlWrite a w (fpCtrl c) := by
  by_cases hs : a = csrMstatus
  · subst hs
    rfl
  by_cases hr : a = csrFrm
  · subst hr
    rfl
  by_cases hf : a = csrFcsr
  · subst hf
    rfl
  rw [fpCtrlWrite, if_neg hs, if_neg hr, if_neg hf]
  unfold csrUpdate
  repeat'
    refine iteInduction (motive := fun u : State => fpCtrl u = fpCtrl c) (fun _ => ?_) (fun _ => ?_)
  all_goals
    first
    | rfl
    | contradiction

theorem fpCtrl_csrTick (c : State) (i : CsrIn) : fpCtrl (csrTick c i) =
    if i.csrWrite && !i.exception && !i.mretExec then fpCtrlWrite i.csrAddr (nextCsrWdata c i) (fpCtrl c)
    else fpCtrl c := by
  unfold csrTick
  cases i.exception with
  | true => simp [fpCtrl]
  | false =>
      cases i.mretExec with
      | true => simp [fpCtrl]
      | false =>
          cases i.csrWrite with
          | false => cases i.fpFflagsWe <;> rfl
          | true => exact fpCtrl_csrUpdate _ _ _

end VMate.FpCtrl
