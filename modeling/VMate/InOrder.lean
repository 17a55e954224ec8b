import VMate.StageCtrl

namespace VMate.InOrder

open Decode Pipe Hazard RegFile RiscvTop SeqExec StageCtrl

variable {imem : Imem} {o : OpenNets} {s s' : State}

section Wires

theorem finalException_inOrder (h : oooEn s = false) : finalException s = s.exMem.ctrl.exception := by
  simp [finalException, h]

theorem finalMretExec_inOrder (h : oooEn s = false) : finalMretExec s = s.exMem.ctrl.mretExec := by
  simp [finalMretExec, h]

theorem finalFlush_inOrder (h : oooEn s = false) : finalFlush s = leavesMem s.exMem := by
  simp [finalFlush, leavesMem, finalException_inOrder h, finalMretExec_inOrder h, h]

theorem csrIn_inOrder (h : oooEn s = false) : csrIn s = csrInOf s.exMem := by
  simp [csrIn, csrInOf, finalException, finalExceptionCause, finalExceptionPc, finalExceptionAddr, finalMretExec, h]

theorem finalPcSel_inOrder (h : oooEn s = false) : finalPcSel s = pcSelEx s := by
  simp [finalPcSel, h]

theorem finalPcTarget_inOrder (h : oooEn s = false) : finalPcTarget o s = pcTargetEx s := by
  simp [finalPcTarget, h, resolve]

theorem stallDispatch_inOrder (h : oooEn s = false) : stallDispatch s = false := by
  simp [stallDispatch, h]

theorem fpWbDataWb_inOrder (h : oooEn s = false) :
    fpWbDataWb s = fpWbDataOf s.memWb s.memWb.instruction s.memWb.ctrl.fmt := by
  simp [fpWbDataWb, finalInstructionWb, finalFmtWb, h]

theorem intPort_inOrder (h : oooEn s = false) : intPort s = intWb s.memWb := by
  simp [intPort, intWb, wbDataWb, h]

theorem fpPort_inOrder (h : oooEn s = false) : fpPort s = fpWb s.memWb := by
  simp [fpPort, fpWb, fpWbDataWb_inOrder h, h]

end Wires

section Step

/-- The hazard unit holds the instruction in ID back. -/
def stalls (s : State) : Bool :=
  intLoadUse (hazardIn s) || fpLoadUse (hazardIn s) || csrHazard (hazardIn s) || fflagsHazard (hazardIn s)

def trapPc (s : State) : BitVec 32 := if s.exMem.ctrl.exception then s.csr.mtvecReg else s.csr.mepcReg

/-- The tick with fetch blocked: the PC moves only when an instruction in
flight redirects it, and nothing new enters IF/ID. -/
def drainTick (imem : Imem) (o : OpenNets) (s : State) : State :=
  { tick imem o s with
    pc := if s.exMem.ctrl.exception || finalMretExec s || stallPc s || finalPcSel s then pcTick o s else s.pc
    ifId := pipeTick ((hazard s).flushIfId || finalFlush s) (stallIfId s) {} s.ifId {} }

/-- What fetch delivers in a cycle that neither stalls nor redirects. -/
def frontNext (imem : Imem) (blocked : Bool) (s : State) : BitVec 32 × IfId :=
  if blocked then (s.pc, {}) else (s.pc + 4#32, fetch imem s.pc)

def front (imem : Imem) (blocked : Bool) (s : State) : BitVec 32 × IfId :=
  if leavesMem s.exMem then (trapPc s, {})
  else if pcSelEx s then (pcTargetEx s, {})
  else if stalls s then (s.pc, s.ifId)
  else frontNext imem blocked s

/-- An in-order cycle, stage by stage. -/
structure Advances (imem : Imem) (blocked : Bool) (s s' : State) : Prop where
  regs : s'.regs = intWrite s.regs (intWb s.memWb)
  fpr : s'.fpr = fpWrite s.fpr (fpWb s.memWb)
  dmem : s'.dmem = Dmem.dmemTick s.dmem (dmemInOf s.exMem)
  csr : s'.csr = CsrFile.csrTick s.csr (csrInOf s.exMem)
  memWb : s'.memWb = if leavesMem s.exMem then {} else memWbIn s.exMem (dmemRdataMem s) (csrRdataMem s)
  exMem : s'.exMem = if leavesMem s.exMem then {} else exMemIn s.idEx (operandsEx s) (fcsrRmMem s)
  idEx : s'.idEx = if leavesMem s.exMem || pcSelEx s || stalls s then {} else idExIn s
  front : (s'.pc, s'.ifId) = front imem blocked s

theorem hazard_inOrder (h : oooEn s = false) :
    hazard s = if leavesMem s.exMem then
        { flushIfId := true, flushIdEx := true, flushExMem := true, flushMemWb := true }
      else if pcSelEx s then { flushIfId := true, flushIdEx := true }
      else if stalls s then { stallPc := true, stallIfId := true, flushIdEx := true }
      else {} := by
  rw [hazard, hazardUnit]
  simp only [hazardIn, stalls, finalException_inOrder h, finalMretExec_inOrder h, finalPcSel_inOrder h, leavesMem]

theorem pcTick_inOrder (h : oooEn s = false) :
    pcTick o s = if leavesMem s.exMem then trapPc s else if pcSelEx s then pcTargetEx s
      else if stalls s then s.pc else s.pc + 4#32 := by
  rw [pcTick, stallPc, stallDispatch_inOrder h, finalMretExec_inOrder h, finalPcSel_inOrder h,
    finalPcTarget_inOrder h, hazard_inOrder h]
  unfold leavesMem trapPc
  cases s.exMem.ctrl.exception <;> cases s.exMem.ctrl.mretExec <;> cases pcSelEx s <;> cases stalls s <;> rfl

theorem tick_advances (h : oooEn s = false) : Advances imem false s (tick imem o s) := by
  have hflush := finalFlush_inOrder h
  have hdisp := stallDispatch_inOrder h
  have hhaz := hazard_inOrder h
  refine ⟨?_, ?_, rfl, ?_, ?_, ?_, ?_, ?_⟩
  · rw [← intPort_inOrder h]; rfl
  · rw [← fpPort_inOrder h]; rfl
  · rw [← csrIn_inOrder h]; rfl
  · simp only [tick, hhaz, hflush, pipeTick]
    cases leavesMem s.exMem <;> cases pcSelEx s <;> cases stalls s <;> rfl
  · simp only [tick, hhaz, hflush, pipeTick]
    cases leavesMem s.exMem <;> cases pcSelEx s <;> cases stalls s <;> rfl
  · simp only [tick, hhaz, hflush, hdisp, pipeTick]
    cases leavesMem s.exMem <;> cases pcSelEx s <;> cases stalls s <;> rfl
  · simp only [tick, stallIfId, hhaz, hflush, hdisp, pipeTick, pcTick_inOrder h, front, frontNext]
    cases leavesMem s.exMem <;> cases pcSelEx s <;> cases stalls s <;> rfl

theorem drainTick_advances (h : oooEn s = false) : Advances imem true s (drainTick imem o s) := by
  have hadv : Advances imem false s (tick imem o s) := tick_advances h
  refine ⟨hadv.regs, hadv.fpr, hadv.dmem, hadv.csr, hadv.memWb, hadv.exMem, hadv.idEx, ?_⟩
  simp only [drainTick, stallIfId, stallPc, hazard_inOrder h, finalFlush_inOrder h, stallDispatch_inOrder h, pipeTick,
    pcTick_inOrder h, finalMretExec_inOrder h, finalPcSel_inOrder h, front, frontNext]
  unfold leavesMem
  cases s.exMem.ctrl.exception <;> cases s.exMem.ctrl.mretExec <;> cases pcSelEx s <;> cases stalls s <;> rfl

end Step

end VMate.InOrder
