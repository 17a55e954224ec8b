import VMate.Alu
import VMate.FpAlu
import VMate.RegFile

namespace VMate.Pipe

open Decode Alu FpAlu RegFile

def opcodeOf (instruction : BitVec 32) : BitVec 7 := instruction.extractLsb 6 0
def rdOf (instruction : BitVec 32) : BitVec 5 := instruction.extractLsb 11 7
def rs1Of (instruction : BitVec 32) : BitVec 5 := instruction.extractLsb 19 15
def rs2Of (instruction : BitVec 32) : BitVec 5 := instruction.extractLsb 24 20
def rs3Of (instruction : BitVec 32) : BitVec 5 := instruction.extractLsb 31 27

/-- `u_control_unit` as `riscv_top` wires it. -/
def decode (instruction : BitVec 32) (mstatusFs : BitVec 2) (fcsrRm : BitVec 3) : Ctrl :=
  controlUnit (opcodeOf instruction) (instruction.extractLsb 14 12) (instruction.extractLsb 31 25)
    (rs1Of instruction) (rs2Of instruction) mstatusFs fcsrRm

structure IfId where
  pc : BitVec 32 := 0
  instruction : BitVec 32 := 0
  pcPlus4 : BitVec 32 := 0
  deriving DecidableEq, Repr

structure IdEx where
  pc : BitVec 32 := 0
  pcPlus4 : BitVec 32 := 0
  instruction : BitVec 32 := 0
  rs1Data : BitVec 32 := 0
  rs2Data : BitVec 32 := 0
  fpRs1Data : BitVec 64 := 0
  fpRs2Data : BitVec 64 := 0
  fpRs3Data : BitVec 64 := 0
  immOut : BitVec 32 := 0
  ctrl : ExCtrl := {}
  deriving DecidableEq, Repr

structure ExMem where
  pc : BitVec 32 := 0
  pcPlus4 : BitVec 32 := 0
  instruction : BitVec 32 := 0
  aluResult : BitVec 32 := 0
  rs2Data : BitVec 32 := 0
  fpRs2Data : BitVec 64 := 0
  fpAluResult : BitVec 64 := 0
  fpFflags : BitVec 5 := 0
  csrWdata : BitVec 32 := 0
  ctrl : MemCtrl := {}
  deriving DecidableEq, Repr

structure MemWb where
  pcPlus4 : BitVec 32 := 0
  instruction : BitVec 32 := 0
  aluResult : BitVec 32 := 0
  dmemRdata : BitVec 64 := 0
  csrRdata : BitVec 32 := 0
  fpAluResult : BitVec 64 := 0
  ctrl : WbCtrl := {}
  deriving DecidableEq, Repr

/-- A pipeline register clears on a flush, holds on a stall and loads otherwise. -/
def pipeTick {α : Type} (flush stall : Bool) (empty held loaded : α) : α :=
  if flush then empty else if stall then held else loaded

/-- The operands the EX stage computes with, after forwarding. -/
structure Operands where
  rs1 : BitVec 32
  rs2 : BitVec 32
  fpRs1 : BitVec 64
  fpRs2 : BitVec 64
  fpRs3 : BitVec 64

def aluOf (r : IdEx) (o : Operands) : BitVec 32 :=
  alu (if r.ctrl.pcSrcAuipc then r.pc else o.rs1) (if r.ctrl.aluSrc then r.immOut else o.rs2) r.ctrl.aluOp

def fpAluOf (r : IdEx) (o : Operands) (fcsrRm : BitVec 3) : BitVec 64 × BitVec 5 :=
  fpAlu { fpAluOp := r.ctrl.fpAluOp, fmt := r.ctrl.fmt, rm := r.ctrl.rm, fcsrRm
          rs1Data := o.fpRs1, rs2Data := o.fpRs2, rs3Data := o.fpRs3, intRs1Data := o.rs1
          intToFp := r.ctrl.intToFp, fpToInt := r.ctrl.fpToInt, rs2Addr := rs2Of r.instruction }

def branchTaken (funct3 : BitVec 3) (aluResult : BitVec 32) : Bool :=
  if funct3 = 0b000#3 then zeroFlag aluResult
  else if funct3 = 0b001#3 then !zeroFlag aluResult
  else if funct3 = 0b100#3 then aluResult.getLsbD 0
  else if funct3 = 0b101#3 then !aluResult.getLsbD 0
  else if funct3 = 0b110#3 then aluResult.getLsbD 0
  else if funct3 = 0b111#3 then !aluResult.getLsbD 0
  else false

def pcSelOf (r : IdEx) (o : Operands) : Bool :=
  (r.ctrl.branch && branchTaken (r.instruction.extractLsb 14 12) (aluOf r o)) || r.ctrl.jump

def pcTargetOf (r : IdEx) (o : Operands) : BitVec 32 :=
  if opcodeOf r.instruction = 0b1100111#7 then aluOf r o &&& ~~~1#32 else r.pc + r.immOut

/-- What `pipe_ex_mem` loads. -/
def exMemIn (r : IdEx) (o : Operands) (fcsrRm : BitVec 3) : ExMem :=
  { pc := r.pc, pcPlus4 := r.pcPlus4, instruction := r.instruction, aluResult := aluOf r o
    rs2Data := o.rs2, fpRs2Data := o.fpRs2, fpAluResult := (fpAluOf r o fcsrRm).1
    fpFflags := (fpAluOf r o fcsrRm).2, csrWdata := if r.ctrl.csrImmSel then r.immOut else o.rs1
    ctrl := r.ctrl.toMemCtrl }

/-- What `pipe_mem_wb` loads. -/
def memWbIn (r : ExMem) (dmemRdata : BitVec 64) (csrRdata : BitVec 32) : MemWb :=
  { pcPlus4 := r.pcPlus4, instruction := r.instruction, aluResult := r.aluResult, dmemRdata, csrRdata
    fpAluResult := r.fpAluResult, ctrl := r.ctrl.toWbCtrl }

/-- The integer result multiplexer. It is written out three times in
`riscv_top`: for write-back, for forwarding from MEM and for the CDB in MEM. -/
def intResult (c : WbCtrl) (fpAluResult : BitVec 64) (aluResult : BitVec 32) (dmemRdata : BitVec 64)
    (pcPlus4 csrRdata : BitVec 32) : BitVec 32 :=
  if c.fpToInt then fpAluResult.extractLsb 31 0
  else if c.resultSel = 0b00#2 then aluResult
  else if c.resultSel = 0b01#2 then dmemRdata.extractLsb 31 0
  else if c.resultSel = 0b10#2 then pcPlus4
  else csrRdata

/-- `is_single_precision_wb` and `is_single_precision_mem` as a function of
the instruction and format they look at. -/
def isSinglePrecision (instruction : BitVec 32) (fmt : BitVec 2) : Bool :=
  if opcodeOf instruction = 0b1010011#7 ∧ instruction.extractLsb 31 25 = 0b0100000#7 then
    rs2Of instruction == 0#5
  else fmt == 0b00#2

def nanBoxed (single : Bool) (x : BitVec 64) : BitVec 64 := if single then x ||| 0xFFFFFFFF00000000#64 else x

def loadFpData (memSize : BitVec 3) (dmemRdata : BitVec 64) : BitVec 64 :=
  if memSize = 0b010#3 then 0xFFFFFFFF#32 ++ dmemRdata.extractLsb 31 0 else dmemRdata

/-- The FP result multiplexer of the MEM and WB stages. -/
def fpResult (c : WbCtrl) (single : Bool) (fpAluResult dmemRdata : BitVec 64) : BitVec 64 :=
  if c.fpMemRead then loadFpData c.memSize dmemRdata else nanBoxed single fpAluResult

def wbDataOf (r : MemWb) : BitVec 32 :=
  intResult r.ctrl r.fpAluResult r.aluResult r.dmemRdata r.pcPlus4 r.csrRdata

def fpWbDataOf (r : MemWb) (instruction : BitVec 32) (fmt : BitVec 2) : BitVec 64 :=
  fpResult r.ctrl (isSinglePrecision instruction fmt) r.fpAluResult r.dmemRdata

end VMate.Pipe
