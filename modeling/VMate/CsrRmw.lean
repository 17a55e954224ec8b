import VMate.CsrFile
import Mathlib.Tactic.IntervalCases

namespace VMate.CsrRmw

open CsrFile

/-- A read-modify-write takes `new` where `mask` allows it and keeps `old`
elsewhere. -/
def masked (mask old new : BitVec 32) : BitVec 32 := (new &&& mask) ||| (old &&& ~~~mask)

inductive CsrOp
  | write
  | set
  | clear
  deriving DecidableEq, Repr

def CsrOp.code : CsrOp → BitVec 2
  | .write => 0b01#2
  | .set => 0b10#2
  | .clear => 0b11#2

def CsrOp.apply (op : CsrOp) (old operand : BitVec 32) : BitVec 32 :=
  match op with
  | .write => operand
  | .set => old ||| operand
  | .clear => old &&& ~~~operand

/-- MIE, MPIE and FS of `mstatus`, the fields of the FP registers, the enable
bit of the out-of-order mode; the identification registers have none. -/
def writable (csrAddr : BitVec 12) : BitVec 32 :=
  if csrAddr = csrMstatus then 0x6088#32
  else if csrAddr = csrFflags then 0x1F#32
  else if csrAddr = csrFrm then 0x07#32
  else if csrAddr = csrFcsr then 0xFF#32
  else if csrAddr = csrMoooctrl then 0x01#32
  else if csrAddr ∈ [csrMie, csrMtvec, csrMscratch, csrMepc, csrMcause, csrMtval, csrMip] then BitVec.allOnes 32
  else 0#32

/-- `fcsr` shows the bits of `fflags` and of `frm`; these two share none. -/
def Overlap (a b : BitVec 12) : Prop :=
  (a = csrFcsr ∧ (b = csrFflags ∨ b = csrFrm)) ∨ (b = csrFcsr ∧ (a = csrFflags ∨ a = csrFrm))

def fcsrVal (c : State) : BitVec 8 := c.frmReg ++ c.fflagsReg

/-- The three FP CSRs are slices of one register. -/
def FpSlices (c : State) : Prop :=
  csrRdata c csrFflags = ((fcsrVal c).extractLsb 4 0).setWidth 32 ∧
    csrRdata c csrFrm = ((fcsrVal c).extractLsb 7 5).setWidth 32 ∧
      csrRdata c csrFcsr = (fcsrVal c).setWidth 32

section Masked

variable (mask old new : BitVec 32)

theorem getLsbD_masked {k : Nat} (hk : k < 32) :
    (masked mask old new).getLsbD k = if mask.getLsbD k then new.getLsbD k else old.getLsbD k := by
  simp only [masked, BitVec.getLsbD_or, BitVec.getLsbD_and, BitVec.getLsbD_not, hk, decide_true, Bool.true_and]
  cases mask.getLsbD k <;> simp

theorem masked_zero : masked 0#32 old new = old := by
  rw [masked, BitVec.and_zero, BitVec.zero_or]
  exact BitVec.and_allOnes

theorem masked_allOnes : masked (BitVec.allOnes 32) old new = new := by
  rw [masked, BitVec.and_allOnes, BitVec.not_allOnes, BitVec.and_zero, BitVec.or_zero]

/-- A field of `n` bits at the bottom of a register. -/
theorem masked_low {n : Nat} (f : BitVec n) :
    masked (BitVec.ofNat 32 (2 ^ n - 1)) (f.setWidth 32) new = (new.setWidth n).setWidth 32 := by
  apply BitVec.eq_of_getLsbD_eq
  intro k hk
  rw [getLsbD_masked _ _ _ hk, BitVec.getLsbD_ofNat, Nat.testBit_two_pow_sub_one]
  by_cases hkn : k < n
  · simp [hk, hkn]
  · have hf : f.getLsbD k = false := BitVec.getLsbD_of_ge f k (by omega)
    simp only [hkn, BitVec.getLsbD_setWidth, hf]
    simp

end Masked

theorem zero_append {m n : Nat} (f : BitVec n) : (0#m ++ f) = f.setWidth (m + n) := by
  apply BitVec.eq_of_getLsbD_eq
  intro k hk
  rw [BitVec.getLsbD_append, BitVec.getLsbD_setWidth]
  by_cases hkn : k < n
  · simp [hkn, hk]
  · simp [hkn, BitVec.getLsbD_of_ge f k (by omega)]

theorem masked_mstatus (c : State) (w : BitVec 32) :
    mstatusVal { c with mstatusMie := w.getLsbD 3, mstatusMpie := w.getLsbD 7, mstatusFs := w.extractLsb 14 13 } =
      masked 0x6088#32 (mstatusVal c) w := by
  apply BitVec.eq_of_getLsbD_eq
  intro k hk
  rw [getLsbD_masked _ _ _ hk]
  simp only [mstatusVal, BitVec.getLsbD_append, BitVec.getLsbD_extractLsb, BitVec.getLsbD_ofBool]
  interval_cases k <;> rfl

theorem fpSlices (c : State) : FpSlices c := by
  have hlow : (fcsrVal c).extractLsb 4 0 = c.fflagsReg := BitVec.extractLsb'_append_eq_right
  have hhigh : (fcsrVal c).extractLsb 7 5 = c.frmReg := BitVec.extractLsb'_append_eq_left
  refine ⟨?_, ?_, ?_⟩
  · rw [hlow]
    exact zero_append c.fflagsReg
  · rw [hhigh]
    exact zero_append c.frmReg
  · rw [← zero_append (fcsrVal c)]
    exact BitVec.append_assoc

/-- The addresses by what a write to them changes. -/
theorem csr_cases {P : BitVec 12 → Prop} (hmstatus : P csrMstatus) (hfflags : P csrFflags) (hfrm : P csrFrm)
    (hfcsr : P csrFcsr) (hctrl : P csrMoooctrl)
    (hword : ∀ a ∈ [csrMie, csrMtvec, csrMscratch, csrMepc, csrMcause, csrMtval, csrMip], P a)
    (hother : ∀ a, writable a = 0#32 → (∀ c w, csrUpdate c a w = c) → P a) (a : BitVec 12) : P a := by
  by_cases h1 : a = csrMstatus
  · exact h1 ▸ hmstatus
  by_cases h2 : a = csrFflags
  · exact h2 ▸ hfflags
  by_cases h3 : a = csrFrm
  · exact h3 ▸ hfrm
  by_cases h4 : a = csrFcsr
  · exact h4 ▸ hfcsr
  by_cases h5 : a = csrMoooctrl
  · exact h5 ▸ hctrl
  by_cases h6 : a ∈ [csrMie, csrMtvec, csrMscratch, csrMepc, csrMcause, csrMtval, csrMip]
  · exact hword a h6
  · refine hother a ?_ fun c w => ?_
    · rw [writable, if_neg h1, if_neg h2, if_neg h3, if_neg h4, if_neg h5, if_neg h6]
    · simp only [List.mem_cons, not_or] at h6
      simp [csrUpdate, h1, h2, h3, h4, h5, h6]

section Update

variable (c : State) (a : BitVec 12) (w : BitVec 32)

/-- What is written reads back through the mask of its register. -/
theorem csrRdata_update_self : csrRdata (csrUpdate c a w) a = masked (writable a) (csrRdata c a) w := by
  induction a using csr_cases with
  | hmstatus => exact masked_mstatus c w
  | hfflags =>
      have hold : csrRdata c csrFflags = c.fflagsReg.setWidth 32 := zero_append c.fflagsReg
      rw [hold]
      exact (zero_append (w.setWidth 5)).trans (masked_low w c.fflagsReg).symm
  | hfrm =>
      have hold : csrRdata c csrFrm = c.frmReg.setWidth 32 := zero_append c.frmReg
      rw [hold]
      exact (zero_append (w.setWidth 3)).trans (masked_low w c.frmReg).symm
  | hfcsr =>
      obtain ⟨-, -, hold⟩ := fpSlices c
      obtain ⟨-, -, hnew⟩ := fpSlices (csrUpdate c csrFcsr w)
      rw [hold, hnew]
      refine Eq.trans (congrArg (BitVec.setWidth 32) ?_) (masked_low w (fcsrVal c)).symm
      show w.extractLsb 7 5 ++ w.extractLsb 4 0 = w.setWidth 8
      exact BitVec.extractLsb'_append_extractLsb'_eq_extractLsb' rfl
  | hctrl =>
      have hold : csrRdata c csrMoooctrl = (BitVec.ofBool c.moooctrlOooEn).setWidth 32 := zero_append _
      rw [hold]
      refine Eq.trans (zero_append _) (Eq.trans (congrArg (BitVec.setWidth 32) ?_) (masked_low w _).symm)
      exact BitVec.setWidth_one.symm
  | hword a ha =>
      simp only [List.mem_cons, List.not_mem_nil, or_false] at ha
      obtain rfl | rfl | rfl | rfl | rfl | rfl | rfl := ha
      all_goals exact (masked_allOnes _ _).symm
  | hother a hm hu => rw [hm, hu, masked_zero]

theorem csrRdata_update_other {b : BitVec 12} (hb : b ≠ a) (ho : ¬ Overlap a b) :
    csrRdata (csrUpdate c a w) b = csrRdata c b := by
  induction a using csr_cases with
  | hmstatus =>
      simp only [csrRdata, hb, if_false]
      rfl
  | hfflags =>
      have hne : b ≠ csrFcsr := fun h => ho (.inr ⟨h, .inl rfl⟩)
      simp only [csrRdata, hb, hne, mstatusVal, if_false]
      rfl
  | hfrm =>
      have hne : b ≠ csrFcsr := fun h => ho (.inr ⟨h, .inr rfl⟩)
      simp only [csrRdata, hb, hne, mstatusVal, if_false]
      rfl
  | hfcsr =>
      have hf : b ≠ csrFflags := fun h => ho (.inl ⟨rfl, .inl h⟩)
      have hr : b ≠ csrFrm := fun h => ho (.inl ⟨rfl, .inr h⟩)
      simp only [csrRdata, hb, hf, hr, mstatusVal, if_false]
      rfl
  | hctrl =>
      simp only [csrRdata, hb, mstatusVal, if_false]
      rfl
  | hword a ha =>
      simp only [List.mem_cons, List.not_mem_nil, or_false] at ha
      obtain rfl | rfl | rfl | rfl | rfl | rfl | rfl := ha
      all_goals
        simp only [csrRdata, hb, mstatusVal, if_false]
        rfl
  | hother a hm hu => rw [hu]

theorem frm_update (hr : a ≠ csrFrm) (hf : a ≠ csrFcsr) : (csrUpdate c a w).frmReg = c.frmReg := by
  induction a using csr_cases with
  | hmstatus | hfflags | hctrl => rfl
  | hfrm => exact absurd rfl hr
  | hfcsr => exact absurd rfl hf
  | hword a ha =>
      simp only [List.mem_cons, List.not_mem_nil, or_false] at ha
      obtain rfl | rfl | rfl | rfl | rfl | rfl | rfl := ha
      all_goals rfl
  | hother a hm hu => rw [hu]

end Update

theorem mpp_eq (c : State) : (csrRdata c csrMstatus).extractLsb 12 11 = 0b11#2 := by
  apply BitVec.eq_of_getLsbD_eq
  intro k hk
  show ((mstatusVal c).extractLsb 12 11).getLsbD k = _
  simp only [mstatusVal, BitVec.getLsbD_append, BitVec.getLsbD_extractLsb, BitVec.getLsbD_ofBool]
  interval_cases k <;> rfl

section Tick

variable {c : State} {i : CsrIn} (hx : i.exception = false) (hm : i.mretExec = false)

theorem nextCsrWdata_eq {op : CsrOp} (hop : i.csrOp = op.code) :
    nextCsrWdata c i = op.apply (csrRdata c i.csrAddr) i.csrWdata := by
  cases op <;> simp [nextCsrWdata, hop, CsrOp.code, CsrOp.apply]

include hx hm

theorem csrTick_write (hw : i.csrWrite = true) : csrTick c i = csrUpdate c i.csrAddr (nextCsrWdata c i) := by
  simp [csrTick, hx, hm, hw]

/-- The bypass agrees with the register it runs ahead of. -/
theorem fcsrRm_eq : fcsrRm c i = (csrTick c i).frmReg := by
  cases hw : i.csrWrite with
  | false =>
      have hr : fcsrRm c i = c.frmReg := by simp [fcsrRm, hw]
      rw [hr, csrTick, hx, hm, hw]
      cases i.fpFflagsWe <;> rfl
  | true =>
      rw [csrTick_write hx hm hw]
      by_cases hr : i.csrAddr = csrFrm
      · simp only [fcsrRm, hw, hr, beq_self_eq_true, Bool.and_self, if_true]
        rfl
      by_cases hf : i.csrAddr = csrFcsr
      · simp only [fcsrRm, hw, hf]
        rfl
      · rw [frm_update c _ _ hr hf]
        simp [fcsrRm, hr, hf]

/-- A CSR instruction replaces the writable bits of its register by what the
operation makes of the value read, and no other register changes but through
the bits that `fcsr` shares with `fflags` and `frm`. -/
theorem csr_read_modify_write :
    (∀ op : CsrOp, i.csrWrite = true → i.csrOp = op.code →
      csrRdata (csrTick c i) i.csrAddr = masked (writable i.csrAddr) (csrRdata c i.csrAddr)
          (op.apply (csrRdata c i.csrAddr) i.csrWdata) ∧
        ∀ b, b ≠ i.csrAddr → ¬ Overlap i.csrAddr b → csrRdata (csrTick c i) b = csrRdata c b) ∧
    FpSlices c ∧ FpSlices (csrTick c i) ∧
    (csrRdata (csrTick c i) csrMstatus).extractLsb 12 11 = 0b11#2 ∧
    fcsrRm c i = (csrRdata (csrTick c i) csrFrm).extractLsb 2 0 := by
  refine ⟨fun op hw hop => ⟨?_, fun b hb ho => ?_⟩, fpSlices _, fpSlices _, mpp_eq _, ?_⟩
  · rw [csrTick_write hx hm hw, nextCsrWdata_eq hop]
    exact csrRdata_update_self _ _ _
  · rw [csrTick_write hx hm hw]
    exact csrRdata_update_other _ _ _ hb ho
  · rw [fcsrRm_eq hx hm]
    exact BitVec.extractLsb'_append_eq_right.symm

end Tick

/-- `csrrs` of the mode RUP and the flag NX into `fcsr`. -/
def setFcsr : CsrIn :=
  { csrAddr := csrFcsr, csrWdata := 0x61#32, csrOp := 0b10#2, csrWrite := true, exception := false
    exceptionCause := 0, exceptionPc := 0, exceptionAddr := 0, mretExec := false, fpFflagsUpdate := 0
    fpFflagsWe := true }

theorem csr_read_modify_write_setFcsr :
    csrRdata (csrTick { fflagsReg := 0b10000#5 } setFcsr) csrFcsr = 0x71#32 ∧
      csrRdata (csrTick { fflagsReg := 0b10000#5 } setFcsr) csrMstatus = 0x1800#32 := by
  obtain ⟨h, -⟩ := csr_read_modify_write (c := { fflagsReg := 0b10000#5 }) (i := setFcsr) rfl rfl
  obtain ⟨hself, hother⟩ := h .set rfl rfl
  exact ⟨hself, (hother csrMstatus (by decide) (by unfold Overlap; decide)).trans (by decide)⟩

end VMate.CsrRmw
