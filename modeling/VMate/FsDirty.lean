import VMate.RiscvTop
import VMate.FpCtrl

namespace VMate.FsDirty

open RiscvTop FpCtrl
open CsrFile hiding State

/-- The CSR instruction in MEM writes the CSR `a`: `csr_file` takes no write
in the cycle of a trap or a return. -/
def writesCsr (s : State) (a : BitVec 12) : Bool :=
  (csrIn s).csrWrite && (csrIn s).csrAddr == a && !(csrIn s).exception && !(csrIn s).mretExec

/-- An instruction writes an FP register in this cycle, or one of the FP CSRs. -/
def writesFpState (s : State) : Bool :=
  (fpPort s).we || writesCsr s csrFflags || writesCsr s csrFrm || writesCsr s csrFcsr

/-- FP state was written and `mstatus` was not since. The instruction that
writes `mstatus` in MEM is younger than the one that writes in WB. -/
def fpDirty (r : Nat → State) : Nat → Bool
  | 0 => false
  | t + 1 => !writesCsr (r t) csrMstatus && (writesFpState (r t) || fpDirty r t)

/-- Up to cycle `T` the FS field reads 11 whenever FP state is dirty. -/
def FsTracksDirty (r : Nat → State) (T : Nat) : Prop :=
  ∀ t ≤ T, fpDirty r t = true → (r t).csr.mstatusFs = 0b11#2

instance (r : Nat → State) (T : Nat) : Decidable (FsTracksDirty r T) :=
  inferInstanceAs (Decidable (∀ t ≤ T, fpDirty r t = true → (r t).csr.mstatusFs = 0b11#2))

section Step

variable {imem : Imem} {o : OpenNets} {s : State}

variable (imem o) in
/-- Nothing but a CSR write to `mstatus` changes FS. -/
theorem fs_tick (h : writesCsr s csrMstatus = false) : (tick imem o s).csr.mstatusFs = s.csr.mstatusFs := by
  have hfp : fpCtrl (tick imem o s).csr = _ := fpCtrl_csrTick s.csr (csrIn s)
  refine (congrArg Prod.fst hfp).trans ?_
  cases hw : (csrIn s).csrWrite && !(csrIn s).exception && !(csrIn s).mretExec with
  | false => rfl
  | true =>
      simp only [Bool.and_eq_true, Bool.not_eq_true'] at hw
      have hne : (csrIn s).csrAddr ≠ csrMstatus := by
        intro ha
        simp [writesCsr, hw, ha] at h
      exact fpCtrlWrite_fs hne _ _

end Step

/-- FS tracks the FP state exactly in the runs that write FP state only while
FS reads 11 already: the core itself never sets it. -/
theorem fsTracksDirty_iff (imem : Imem) (p : PowerUp) (o : Nat → OpenNets) (T : Nat) :
    FsTracksDirty (run imem p o) T ↔
      ∀ t < T, writesFpState (run imem p o t) = true → writesCsr (run imem p o t) csrMstatus = false →
        (run imem p o t).csr.mstatusFs = 0b11#2 := by
  constructor
  · intro h t ht hw hm
    have hdirty : fpDirty (run imem p o) (t + 1) = true := by simp [fpDirty, hw, hm]
    rw [← fs_tick imem (o t) hm]
    exact h (t + 1) ht hdirty
  · intro h t
    induction t with
    | zero =>
        intro _ hd
        cases hd
    | succ t ih =>
        intro ht hd
        simp only [fpDirty, Bool.and_eq_true, Bool.not_eq_true', Bool.or_eq_true] at hd
        obtain ⟨hm, hd⟩ := hd
        have hfs : (run imem p o (t + 1)).csr.mstatusFs = (run imem p o t).csr.mstatusFs := fs_tick imem (o t) hm
        rw [hfs]
        rcases hd with hw | hd
        · exact h t ht hw hm
        · exact ih (Nat.le_of_lt ht) hd

/-- `csrrw x0, mstatus, x1` sets FS to 01 and `fmv.w.x f0, x1` follows. -/
def fmvImage : Imem := imageOf [0x000020B7#32, 0x30009073#32, 0xF0008053#32]

theorem not_fsTracksDirty_fmv :
    (∀ t ≤ 9, oooEn (run fmvImage zeroPowerUp (fun _ => zeroNets) t) = false) ∧
      (fpPort (run fmvImage zeroPowerUp (fun _ => zeroNets) 8)).we = true ∧
      (run fmvImage zeroPowerUp (fun _ => zeroNets) 9).csr.mstatusFs = 0b01#2 ∧
      ¬ FsTracksDirty (run fmvImage zeroPowerUp (fun _ => zeroNets)) 9 := by
  decide +kernel

end VMate.FsDirty
