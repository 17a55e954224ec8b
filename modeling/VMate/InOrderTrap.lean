import VMate.InOrder
import VMate.StageCtrl

namespace VMate.InOrderTrap

open Decode Pipe RegFile RiscvTop SeqExec DecodeFacts StageCtrl InOrder Dmem

variable {imem : Imem} {o : OpenNets} {s : RiscvTop.State}

/-- What remains of a trap besides the trap registers: nothing. -/
structure TrapAtomic (imem : Imem) (o : OpenNets) (s : RiscvTop.State) : Prop where
  pc : (tick imem o s).pc = s.csr.mtvecReg
  noWriteBack : (tick imem o s).memWb = {} ∧ (intPort (tick imem o s)).we = false ∧ (fpPort (tick imem o s)).we = false
  noRobEntry : s.track.validMem = false
  discarded : (tick imem o s).ifId = {} ∧ (tick imem o s).idEx = {} ∧ (tick imem o s).exMem = {} ∧
    s.track.validEx = false
  regs : (tick imem o s).regs = intWrite s.regs (intWb s.memWb)
  fpr : (tick imem o s).fpr = fpWrite s.fpr (fpWb s.memWb)
  dmem : (tick imem o s).dmem = s.dmem
  csr : (tick imem o s).csr =
    { s.csr with
      mepcReg := s.exMem.pc, mcauseReg := 0#28 ++ s.exMem.ctrl.exceptionCause, mtvalReg := s.exMem.instruction
      mstatusMpie := s.csr.mstatusMie, mstatusMie := false }

/-- The bytes that an FP store in MEM would write are there already. -/
def StoreIdle (s : RiscvTop.State) : Prop :=
  s.exMem.ctrl.fpMemWrite = true → ∀ k < storeBytes s.exMem.ctrl.memSize,
    maskedAddr s.exMem.aluResult + k < memBytes →
      s.dmem.mem (maskedAddr s.exMem.aluResult + k) = s.exMem.fpRs2Data.extractLsb' (8 * k) 8

theorem exMem_trap (hdec : CtrlDecoded s) (he : s.exMem.ctrl.exception = true) :
    s.exMem.ctrl.amoEn = false ∧ s.exMem.ctrl.csrWrite = false ∧ s.exMem.ctrl.memWrite = s.exMem.ctrl.fpMemWrite := by
  obtain ⟨fs, rm, hctrl⟩ := hdec.exMem
  rw [hctrl] at he ⊢
  obtain ⟨hamo, hcsr, -, hw⟩ := decode_trap he
  exact ⟨hamo, hcsr, hw⟩

variable (imem o) in
theorem dmem_trap_iff (hdec : CtrlDecoded s) (he : s.exMem.ctrl.exception = true) :
    (tick imem o s).dmem = s.dmem ↔ StoreIdle s := by
  obtain ⟨hamo, -, hw⟩ := exMem_trap hdec he
  have htick : (tick imem o s).dmem =
      { s.dmem with mem := if s.exMem.ctrl.fpMemWrite then
          writeBytes s.dmem.mem (maskedAddr s.exMem.aluResult) s.exMem.fpRs2Data (storeBytes s.exMem.ctrl.memSize)
          else s.dmem.mem } := by
    change dmemTick s.dmem (dmemInOf s.exMem) = _
    cases hst : s.exMem.ctrl.fpMemWrite <;>
      simp [dmemTick, executeWrite, actualWriteData, dmemInOf, hamo, hw, hst]
  rw [htick, StoreIdle]
  cases hst : s.exMem.ctrl.fpMemWrite with
  | false => simp
  | true =>
      rw [if_pos rfl, ← writeBytes_eq_self_iff]
      constructor
      · intro h _
        exact congrArg Dmem.State.mem h
      · intro h
        rw [h rfl]

/-- Only an FP store breaks the atomicity of a trap: its write enable is
decoded before the trap is and nothing takes it back. -/
theorem trapAtomic_iff (imem : Imem) (p : PowerUp) (o : Nat → OpenNets) (n : Nat)
    (hooo : oooEn (run imem p o n) = false) (he : (run imem p o n).exMem.ctrl.exception = true) :
    TrapAtomic imem (o n) (run imem p o n) ↔ StoreIdle (run imem p o n) := by
  have hdec := ctrlDecoded_run imem p o n
  have hmode := (modeInv_run imem p o n).inOrder hooo
  generalize run imem p o n = s at hooo he hdec hmode ⊢
  rw [← dmem_trap_iff imem (o n) hdec he]
  refine ⟨fun h => h.dmem, fun hdmem => ?_⟩
  have hadv : Advances imem false s (tick imem (o n) s) := tick_advances hooo
  have hleaves : leavesMem s.exMem = true := by rw [leavesMem, he]; rfl
  have hfront := hadv.front
  rw [front, hleaves, if_pos rfl, Prod.mk.injEq, trapPc, he, if_pos rfl] at hfront
  have hmemWb := hadv.memWb
  have hidEx := hadv.idEx
  have hexMem := hadv.exMem
  rw [hleaves] at hmemWb hidEx hexMem
  have hooo' : oooEn (tick imem (o n) s) = false := (oooEn_tick (exMem_trap hdec he).2.1).trans hooo
  refine ⟨hfront.1, ⟨hmemWb, ?_, ?_⟩, hmode.2, ⟨hfront.2, hidEx, hexMem, hmode.1⟩, hadv.regs, hadv.fpr, hdmem, ?_⟩
  · rw [intPort_inOrder hooo', hmemWb]; rfl
  · rw [fpPort_inOrder hooo', hmemWb]; rfl
  · rw [hadv.csr]
    simp [CsrFile.csrTick, csrInOf, he]

/-- `ecall` as the first instruction. -/
theorem trapAtomic_ecall :
    TrapAtomic (imageOf [0x00000073#32]) zeroNets (run (imageOf [0x00000073#32]) zeroPowerUp (fun _ => zeroNets) 3) :=
  (trapAtomic_iff (imageOf [0x00000073#32]) zeroPowerUp (fun _ => zeroNets) 3 (by decide +kernel)
    (by decide +kernel)).mpr fun h => absurd h (by decide +kernel)

/-- `fsw f0, 0(x0)` as the first instruction, while `mstatus.FS` is still off,
over a memory that does not hold zeros. -/
theorem not_trapAtomic_fsw :
    oooEn (run (imageOf [0x00002027#32]) { zeroPowerUp with mem := fun _ => 1#8 } (fun _ => zeroNets) 3) = false ∧
      (run (imageOf [0x00002027#32]) { zeroPowerUp with mem := fun _ => 1#8 }
        (fun _ => zeroNets) 3).exMem.ctrl.exception = true ∧
      ¬ TrapAtomic (imageOf [0x00002027#32]) zeroNets
        (run (imageOf [0x00002027#32]) { zeroPowerUp with mem := fun _ => 1#8 } (fun _ => zeroNets) 3) := by
  refine ⟨by decide +kernel, by decide +kernel, fun h => ?_⟩
  have hbyte := congrArg (fun d => d.mem 0) h.dmem
  exact absurd hbyte (by decide +kernel)

end VMate.InOrderTrap
