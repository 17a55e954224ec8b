import VMate.RiscvTop

namespace VMate.SeqExec

open Decode Pipe RegFile RiscvTop

/-- The architectural state: what a program can observe. -/
structure Arch where
  pc : BitVec 32
  regs : IntRegs
  fpr : FpRegs
  dmem : Dmem.State
  csr : CsrFile.State

def archReset (p : PowerUp) : Arch :=
  { pc := resetVector, regs := fun _ => 0, fpr := fun _ => 0
    dmem := { mem := p.mem, reservationAddr := 0, reservationValid := false }, csr := {} }

section Stages

variable (imem : Imem) (a : Arch)

/-- Fetch, decode and register read with nothing else in flight. -/
def idExOf : IdEx :=
  let f := fetch imem a.pc
  let c := decode f.instruction a.csr.mstatusFs a.csr.frmReg
  { pc := f.pc, pcPlus4 := f.pcPlus4, instruction := f.instruction
    rs1Data := regRead a.regs (rs1Of f.instruction), rs2Data := regRead a.regs (rs2Of f.instruction)
    fpRs1Data := a.fpr (rs1Of f.instruction), fpRs2Data := a.fpr (rs2Of f.instruction)
    fpRs3Data := a.fpr (rs3Of f.instruction)
    immOut := immGen f.instruction c.immSel, ctrl := c.toExCtrl }

def operandsOf (r : IdEx) : Operands := ⟨r.rs1Data, r.rs2Data, r.fpRs1Data, r.fpRs2Data, r.fpRs3Data⟩

def exMemOf : ExMem := exMemIn (idExOf imem a) (operandsOf (idExOf imem a)) a.csr.frmReg

def csrInOf (r : ExMem) : CsrFile.CsrIn :=
  { csrAddr := csrAddrOf r, csrWdata := r.csrWdata, csrOp := r.ctrl.csrOp, csrWrite := r.ctrl.csrWrite
    exception := r.ctrl.exception, exceptionCause := r.ctrl.exceptionCause, exceptionPc := r.pc
    exceptionAddr := r.instruction, mretExec := r.ctrl.mretExec, fpFflagsUpdate := r.fpFflags
    fpFflagsWe := r.ctrl.fpFflagsWe }

def memWbOf (r : ExMem) : MemWb :=
  memWbIn r (Dmem.readData a.dmem (dmemInOf r)) (CsrFile.csrRdata a.csr (csrAddrOf r))

def intWb (r : MemWb) : WritePort 32 := ⟨r.ctrl.regWrite, rdOf r.instruction, wbDataOf r⟩

def fpWb (r : MemWb) : WritePort 64 := ⟨r.ctrl.fpWe, rdOf r.instruction, fpWbDataOf r r.instruction r.ctrl.fmt⟩

/-- Trap entry and trap return leave the instruction without write-back. -/
def leavesMem (r : ExMem) : Bool := r.ctrl.exception || r.ctrl.mretExec

def nextPc : BitVec 32 :=
  let r := idExOf imem a
  if r.ctrl.exception then a.csr.mtvecReg
  else if r.ctrl.mretExec then a.csr.mepcReg
  else if pcSelOf r (operandsOf r) then pcTargetOf r (operandsOf r)
  else a.pc + 4#32

/-- The MEM and WB effects of the instruction `r` on the state it finds. -/
def retire (r : ExMem) (pc : BitVec 32) : Arch :=
  { pc
    regs := if leavesMem r then a.regs else intWrite a.regs (intWb (memWbOf a r))
    fpr := if leavesMem r then a.fpr else fpWrite a.fpr (fpWb (memWbOf a r))
    dmem := Dmem.dmemTick a.dmem (dmemInOf r)
    csr := CsrFile.csrTick a.csr (csrInOf r) }

/-- One instruction from fetch to write-back with an otherwise empty pipeline. -/
def execOne : Arch := retire a (exMemOf imem a) (nextPc imem a)

end Stages

end VMate.SeqExec
