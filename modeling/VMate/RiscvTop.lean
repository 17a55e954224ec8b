import VMate.Pipe
import VMate.Hazard
import VMate.Dmem
import VMate.CsrFile
import VMate.Rob
import VMate.Rat
import VMate.Iq

namespace VMate.RiscvTop

open Decode Pipe Hazard RegFile

/-- The registers that carry validity, ROB index and CDB bookkeeping along
with the instructions in EX, MEM and WB. -/
structure Track where
  validEx : Bool := false
  validMem : Bool := false
  validWb : Bool := false
  exceptionWb : Bool := false
  exceptionCauseWb : BitVec 4 := 0
  pcSelMem : Bool := false
  pcSelWb : Bool := false
  pcTargetMem : BitVec 32 := 0
  pcTargetWb : BitVec 32 := 0
  robIdxEx : BitVec 4 := 0
  robIdxMem : BitVec 4 := 0
  robIdxWb : BitVec 4 := 0
  cdbDoneMem : Bool := false
  cdbDoneWb : Bool := false
  deriving DecidableEq, Repr

/-- The registers of `riscv_top` with its default parameters. -/
structure State where
  pc : BitVec 32
  ifId : IfId
  idEx : IdEx
  exMem : ExMem
  memWb : MemWb
  regs : IntRegs
  fpr : FpRegs
  dmem : Dmem.State
  csr : CsrFile.State
  rob : Rob.State 4
  rat : Rat.State
  iq : Iq.State 8
  robRegWriteArray : BitVec 4 → Bool
  track : Track

/-- Values the design leaves open in a cycle: what the undriven net
`complete_instruction` reads as, and what the bits of `final_pc_target` on
which its two drivers disagree settle to. -/
structure OpenNets where
  completeInstruction : BitVec 32
  contended : BitVec 32

/-- Both drivers where they agree, the open value elsewhere. -/
def resolve (a b u : BitVec 32) : BitVec 32 := (a &&& b) ||| ((a ^^^ b) &&& u)

/-- The request the MEM stage makes of `dmem`. -/
def dmemInOf (r : ExMem) : Dmem.DmemIn :=
  { memWrite := r.ctrl.memWrite || r.ctrl.fpMemWrite, memRead := r.ctrl.memRead || r.ctrl.fpMemRead
    amoEn := r.ctrl.amoEn, amoOp := r.ctrl.amoOp, addr := r.aluResult
    writeData := if r.ctrl.fpMemWrite then r.fpRs2Data else 0#32 ++ r.rs2Data
    memSize := r.ctrl.memSize }

def csrAddrOf (r : ExMem) : BitVec 12 := r.instruction.extractLsb 31 20

section Wires

variable (o : OpenNets) (s : State)

def oooEn : Bool := s.csr.moooctrlOooEn

def robFull : Bool := Rob.robFull s.rob
def robHead : BitVec 4 := s.rob.headPtr
def robIdxDisp : BitVec 4 := s.rob.tailPtr
def robEmpty : Bool := robHead s == robIdxDisp s && !robFull s

def commitEn : Bool := Rob.commitEn s.rob
def commitEntry : Rob.RobEntry := Rob.headEntry s.rob
def commitRegWrite : Bool := s.robRegWriteArray (robHead s)
def commitIsMret : Bool := (commitEntry s).instruction == 0x30200073#32

def finalException : Bool := if oooEn s then (commitEntry s).exception else s.exMem.ctrl.exception
def finalExceptionCause : BitVec 4 :=
  if oooEn s then (commitEntry s).exceptionCause else s.exMem.ctrl.exceptionCause
def finalExceptionPc : BitVec 32 := if oooEn s then (commitEntry s).pc else s.exMem.pc
def finalExceptionAddr : BitVec 32 := if oooEn s then (commitEntry s).instruction else s.exMem.instruction
def finalMretExec : Bool := if oooEn s then commitEn s && commitIsMret s else s.exMem.ctrl.mretExec
def finalFlush : Bool :=
  finalException s || (oooEn s && commitEn s && (commitEntry s).branchMispredicted) || finalMretExec s

def dmemIn : Dmem.DmemIn := dmemInOf s.exMem

def dmemRdataMem : BitVec 64 := Dmem.readData s.dmem (dmemIn s)

def csrIn : CsrFile.CsrIn :=
  { csrAddr := csrAddrOf s.exMem, csrWdata := s.exMem.csrWdata, csrOp := s.exMem.ctrl.csrOp
    csrWrite := s.exMem.ctrl.csrWrite, exception := finalException s, exceptionCause := finalExceptionCause s
    exceptionPc := finalExceptionPc s, exceptionAddr := finalExceptionAddr s, mretExec := finalMretExec s
    fpFflagsUpdate := s.exMem.fpFflags, fpFflagsWe := s.exMem.ctrl.fpFflagsWe }

def csrRdataMem : BitVec 32 := CsrFile.csrRdata s.csr (csrAddrOf s.exMem)
def fcsrRmMem : BitVec 3 := CsrFile.fcsrRm s.csr (csrIn s)

def exReady : Bool :=
  !(s.idEx.ctrl.memRead || s.idEx.ctrl.memWrite || s.idEx.ctrl.fpMemRead || s.idEx.ctrl.fpMemWrite ||
    s.idEx.ctrl.csrWrite || s.idEx.ctrl.resultSel == 0b11#2 || s.idEx.ctrl.amoEn)
def memReady : Bool :=
  !(s.exMem.ctrl.memRead || s.exMem.ctrl.fpMemRead || s.exMem.ctrl.csrWrite ||
    s.exMem.ctrl.resultSel == 0b11#2 || s.exMem.ctrl.amoEn)
def exWantsCdb : Bool := s.track.validEx && (exReady s || s.idEx.ctrl.exception)
def memWantsCdb : Bool :=
  s.track.validMem && ((!s.track.cdbDoneMem && memReady s) || s.exMem.ctrl.exception)
def wbWantsCdb : Bool := s.track.validWb && (!s.track.cdbDoneWb || s.track.exceptionWb)
def grantWb : Bool := wbWantsCdb s
def grantMem : Bool := memWantsCdb s && !grantWb s
def grantEx : Bool := exWantsCdb s && !grantWb s && !grantMem s

def cdbEn : Bool := oooEn s && (grantWb s || grantMem s || grantEx s)
def cdbRobIdx : BitVec 4 :=
  if grantWb s then s.track.robIdxWb else if grantMem s then s.track.robIdxMem else s.track.robIdxEx
def cdbInstruction : BitVec 32 := (s.rob.robData (cdbRobIdx s)).instruction

def finalInstructionWb : BitVec 32 := if oooEn s then cdbInstruction s else s.memWb.instruction
def finalFmtWb : BitVec 2 := if oooEn s then (cdbInstruction s).extractLsb 26 25 else s.memWb.ctrl.fmt
def wbDataWb : BitVec 32 := wbDataOf s.memWb
def fpWbDataWb : BitVec 64 := fpWbDataOf s.memWb (finalInstructionWb s) (finalFmtWb s)

def forwardDataMem : BitVec 32 :=
  intResult s.exMem.ctrl.toWbCtrl s.exMem.fpAluResult s.exMem.aluResult (dmemRdataMem s) s.exMem.pcPlus4
    (csrRdataMem s)

def forwardA : BitVec 2 :=
  forwardInt (rs1Of s.idEx.instruction) (rdOf s.exMem.instruction) s.exMem.ctrl.regWrite
    (rdOf s.memWb.instruction) s.memWb.ctrl.regWrite
def forwardB : BitVec 2 :=
  forwardInt (rs2Of s.idEx.instruction) (rdOf s.exMem.instruction) s.exMem.ctrl.regWrite
    (rdOf s.memWb.instruction) s.memWb.ctrl.regWrite
def forwardFpA : BitVec 2 :=
  forwardFp (rs1Of s.idEx.instruction) (rdOf s.exMem.instruction) s.exMem.ctrl.fpWe
    (rdOf s.memWb.instruction) s.memWb.ctrl.fpWe
def forwardFpB : BitVec 2 :=
  forwardFp (rs2Of s.idEx.instruction) (rdOf s.exMem.instruction) s.exMem.ctrl.fpWe
    (rdOf s.memWb.instruction) s.memWb.ctrl.fpWe
def forwardFpC : BitVec 2 :=
  forwardFp (rs3Of s.idEx.instruction) (rdOf s.exMem.instruction) s.exMem.ctrl.fpWe
    (rdOf s.memWb.instruction) s.memWb.ctrl.fpWe

/-- `commit_fwd_match_rs1` and `commit_fwd_match_rs2`. -/
def commitFwdMatch (rs : BitVec 5) : Bool :=
  oooEn s && commitEn s && commitRegWrite s && !(commitEntry s).destType && (commitEntry s).destReg == rs &&
    (commitEntry s).destReg != 0#5

/-- `commit_fwd_match_fp_rs1`, `commit_fwd_match_fp_rs2` and `commit_fwd_match_fp_rs3`. -/
def commitFwdMatchFp (rs : BitVec 5) : Bool :=
  oooEn s && commitEn s && commitRegWrite s && (commitEntry s).destType && (commitEntry s).destReg == rs

def forwardedInt (sel : BitVec 2) (rs : BitVec 5) (rsDataEx : BitVec 32) : BitVec 32 :=
  if sel = 0b10#2 then forwardDataMem s
  else if sel = 0b01#2 then wbDataWb s
  else if commitFwdMatch s rs then (commitEntry s).result.extractLsb 31 0
  else rsDataEx

def forwardedFp (sel : BitVec 2) (rs : BitVec 5) (fpRsDataEx : BitVec 64) : BitVec 64 :=
  if sel = 0b10#2 then s.exMem.fpAluResult
  else if sel = 0b01#2 then fpWbDataWb s
  else if commitFwdMatchFp s rs then (commitEntry s).result
  else fpRsDataEx

def operandsEx : Operands :=
  { rs1 := forwardedInt s (forwardA s) (rs1Of s.idEx.instruction) s.idEx.rs1Data
    rs2 := forwardedInt s (forwardB s) (rs2Of s.idEx.instruction) s.idEx.rs2Data
    fpRs1 := forwardedFp s (forwardFpA s) (rs1Of s.idEx.instruction) s.idEx.fpRs1Data
    fpRs2 := forwardedFp s (forwardFpB s) (rs2Of s.idEx.instruction) s.idEx.fpRs2Data
    fpRs3 := forwardedFp s (forwardFpC s) (rs3Of s.idEx.instruction) s.idEx.fpRs3Data }

def aluResultEx : BitVec 32 := aluOf s.idEx (operandsEx s)
def fpAluResultEx : BitVec 64 := (fpAluOf s.idEx (operandsEx s) (fcsrRmMem s)).1
def pcSelEx : Bool := pcSelOf s.idEx (operandsEx s)
def pcTargetEx : BitVec 32 := pcTargetOf s.idEx (operandsEx s)

def finalPcSel : Bool :=
  if oooEn s then commitEn s && (commitEntry s).branchMispredicted else pcSelEx s

/-- The net is driven at its second declaration and again by an assign. -/
def finalPcTarget : BitVec 32 :=
  resolve (pcTargetEx s) (if oooEn s then (commitEntry s).branchTarget else pcTargetEx s) o.contended

def ctrlId : Ctrl := decode s.ifId.instruction s.csr.mstatusFs (fcsrRmMem s)
def immOutId : BitVec 32 := immGen s.ifId.instruction (ctrlId s).immSel

def hazardIn : HazardIn :=
  { rs1AddrId := rs1Of s.ifId.instruction, rs2AddrId := rs2Of s.ifId.instruction
    rs3AddrId := rs3Of s.ifId.instruction, rdAddrEx := rdOf s.idEx.instruction
    memReadEx := s.idEx.ctrl.memRead, fpMemReadEx := s.idEx.ctrl.fpMemRead, pcSelEx := finalPcSel s
    exceptionMem := finalException s, mretExecMem := finalMretExec s, csrWriteEx := s.idEx.ctrl.csrWrite
    csrWriteMem := s.exMem.ctrl.csrWrite, csrOpId := (ctrlId s).csrOp
    fpFflagsWeEx := s.idEx.ctrl.fpFflagsWe, fpFflagsWeMem := s.exMem.ctrl.fpFflagsWe }

def hazard : HazardOut := hazardUnit (hazardIn s)

def isSerializationReq : Bool :=
  let op := opcodeOf s.ifId.instruction
  op == 0b0000011#7 || op == 0b0100011#7 || op == 0b0000111#7 || op == 0b0100111#7 || op == 0b0101111#7 ||
    op == 0b1110011#7 || op == 0b0001111#7 || (ctrlId s).exception

def validInstIdNoStall : Bool := s.ifId.instruction != 0#32 && !(hazard s).flushIdEx
def stallDispatch : Bool :=
  oooEn s && ((isSerializationReq s && !robEmpty s) || robFull s || Iq.iqFull s.iq) && validInstIdNoStall s
def stallPc : Bool := (hazard s).stallPc || stallDispatch s
def stallIfId : Bool := (hazard s).stallIfId || stallDispatch s
def dispatchEn : Bool := oooEn s && (validInstIdNoStall s && !stallIfId s)

def exCdbData : BitVec 64 :=
  if s.idEx.ctrl.fpWe then fpAluResultEx s
  else 0#32 ++ (if s.idEx.ctrl.resultSel = 0b10#2 then s.idEx.pcPlus4 else aluResultEx s)

def isSinglePrecisionMem : Bool :=
  if oooEn s then isSinglePrecision o.completeInstruction (o.completeInstruction.extractLsb 26 25)
  else isSinglePrecision s.exMem.instruction s.exMem.ctrl.fmt

def memIntData : BitVec 32 :=
  intResult s.exMem.ctrl.toWbCtrl s.exMem.fpAluResult s.exMem.aluResult (dmemRdataMem s) s.exMem.pcPlus4
    (csrRdataMem s)

def memFpData : BitVec 64 :=
  fpResult s.exMem.ctrl.toWbCtrl (isSinglePrecisionMem o s) s.exMem.fpAluResult (dmemRdataMem s)

def memCdbData : BitVec 64 := if s.exMem.ctrl.fpWe then memFpData o s else 0#32 ++ memIntData s
def wbCdbData : BitVec 64 := if s.memWb.ctrl.fpWe then fpWbDataWb s else 0#32 ++ wbDataWb s
def cdbData : BitVec 64 :=
  if grantWb s then wbCdbData s else if grantMem s then memCdbData o s else exCdbData s

def cdbException : Bool :=
  if grantWb s then s.track.exceptionWb else if grantMem s then s.exMem.ctrl.exception
  else if grantEx s then s.idEx.ctrl.exception else false
def cdbExceptionCause : BitVec 4 :=
  if grantWb s then s.track.exceptionCauseWb else if grantMem s then s.exMem.ctrl.exceptionCause
  else if grantEx s then s.idEx.ctrl.exceptionCause else 0#4
def cdbPcSel : Bool :=
  if grantWb s then s.track.pcSelWb else if grantMem s then s.track.pcSelMem
  else if grantEx s then pcSelEx s else false
def cdbPcTarget : BitVec 32 :=
  if grantWb s then s.track.pcTargetWb else if grantMem s then s.track.pcTargetMem
  else if grantEx s then pcTargetEx s else 0#32

def intPort : WritePort 32 :=
  { we := if oooEn s then
      commitEn s && commitRegWrite s && !(commitEntry s).destType && !(commitEntry s).exception
      else s.memWb.ctrl.regWrite
    rdAddr := if oooEn s then (commitEntry s).destReg else rdOf s.memWb.instruction
    rdData := if oooEn s then (commitEntry s).result.extractLsb 31 0 else wbDataWb s }

def fpPort : WritePort 64 :=
  { we := if oooEn s then
      commitEn s && commitRegWrite s && (commitEntry s).destType && !(commitEntry s).exception
      else s.memWb.ctrl.fpWe
    rdAddr := if oooEn s then (commitEntry s).destReg else rdOf s.memWb.instruction
    rdData := if oooEn s then (commitEntry s).result else fpWbDataWb s }

def rs1DataId : BitVec 32 := intRead s.regs (intPort s) (rs1Of s.ifId.instruction)
def rs2DataId : BitVec 32 := intRead s.regs (intPort s) (rs2Of s.ifId.instruction)
def fpRs1DataId : BitVec 64 := fpRead s.fpr (fpPort s) (rs1Of s.ifId.instruction)
def fpRs2DataId : BitVec 64 := fpRead s.fpr (fpPort s) (rs2Of s.ifId.instruction)
def fpRs3DataId : BitVec 64 := fpRead s.fpr (fpPort s) (rs3Of s.ifId.instruction)

def idExIn : IdEx :=
  { pc := s.ifId.pc, pcPlus4 := s.ifId.pcPlus4, instruction := s.ifId.instruction
    rs1Data := rs1DataId s, rs2Data := rs2DataId s
    fpRs1Data := fpRs1DataId s, fpRs2Data := fpRs2DataId s, fpRs3Data := fpRs3DataId s
    immOut := immOutId s, ctrl := (ctrlId s).toExCtrl }

def iqIsFpRs1 : Bool :=
  let op := opcodeOf s.ifId.instruction
  op == 0b1000011#7 || op == 0b1000111#7 || op == 0b1001011#7 || op == 0b1001111#7 ||
    (op == 0b1010011#7 && rs3Of s.ifId.instruction != 0b11110#5 && rs3Of s.ifId.instruction != 0b11010#5)

def iqIsFpRs2 : Bool :=
  let op := opcodeOf s.ifId.instruction
  op == 0b1000011#7 || op == 0b1000111#7 || op == 0b1001011#7 || op == 0b1001111#7 || op == 0b1010011#7 ||
    op == 0b0100111#7

def robIn : Rob.RobIn 4 :=
  { oooEn := oooEn s, dispatchEn := dispatchEn s, destReg := rdOf s.ifId.instruction
    destType := (ctrlId s).fpWe, pc := s.ifId.pc
    isStore := (ctrlId s).memWrite || opcodeOf s.ifId.instruction == 0b0100111#7
    isBranch := (ctrlId s).branch || (ctrlId s).jump, instruction := s.ifId.instruction
    dispatchException := (ctrlId s).exception, dispatchExceptionCause := (ctrlId s).exceptionCause
    completeEn := cdbEn s, completeIdx := cdbRobIdx s, result := cdbData o s, exception := cdbException s
    exceptionCause := cdbExceptionCause s, branchMispredicted := cdbPcSel s, branchTarget := cdbPcTarget s
    commitAck := commitEn s, flush := finalFlush s }

def ratIn : Rat.RatIn :=
  { oooEn := oooEn s, dispatchEn := dispatchEn s, destReg := rdOf s.ifId.instruction
    destType := (ctrlId s).fpWe, robIdx := robIdxDisp s, commitEn := commitEn s
    commitDestReg := (commitEntry s).destReg, commitDestType := (commitEntry s).destType
    commitRobIdx := robHead s, flush := finalFlush s }

/-- The issue queue is only ever told to wait for nothing. -/
def iqDispatch : Iq.IqEntry :=
  { robIdx := robIdxDisp s, opType := s.ifId.instruction, aluOp := (ctrlId s).aluOp, pc := s.ifId.pc
    imm := immOutId s
    rs1 := { robIdx := Rat.robIdxOf s.rat (rs1Of s.ifId.instruction) false
             data := if iqIsFpRs1 s then fpRs1DataId s else 0#32 ++ rs1DataId s }
    rs2 := { robIdx := Rat.robIdxOf s.rat (rs2Of s.ifId.instruction) false
             data := if iqIsFpRs2 s then fpRs2DataId s else 0#32 ++ rs2DataId s }
    rs3 := { robIdx := Rat.robIdxOf s.rat (rs3Of s.ifId.instruction) true, data := fpRs3DataId s } }

def iqIn : Iq.IqIn :=
  let i : Iq.IqIn :=
    { oooEn := oooEn s, flush := finalFlush s, dispatchEn := dispatchEn s, entry := iqDispatch s
      robHead := robHead s, cdbEn := cdbEn s, cdbRobIdx := cdbRobIdx s, cdbData := cdbData o s
      issueAck := false }
  { i with issueAck := Iq.issueEn s.iq i }

def trackTick : Track :=
  let t := s.track
  let flushEx := (hazard s).flushIdEx || finalFlush s
  let flushMem := (hazard s).flushExMem || finalFlush s
  let flushWb := (hazard s).flushMemWb || finalFlush s
  { validEx := if flushEx then false else dispatchEn s
    robIdxEx := if flushEx then t.robIdxEx else robIdxDisp s
    validMem := if flushMem then false else t.validEx
    robIdxMem := if flushMem then t.robIdxMem else t.robIdxEx
    cdbDoneMem := if flushMem then false else grantEx s
    pcSelMem := if flushMem then false else pcSelEx s
    pcTargetMem := if flushMem then 0#32 else pcTargetEx s
    validWb := if flushWb then false else t.validMem
    robIdxWb := if flushWb then t.robIdxWb else t.robIdxMem
    cdbDoneWb := if flushWb then false else t.cdbDoneMem || grantMem s
    exceptionWb := if flushWb then false else s.exMem.ctrl.exception
    exceptionCauseWb := if flushWb then 0#4 else s.exMem.ctrl.exceptionCause
    pcSelWb := if flushWb then false else t.pcSelMem
    pcTargetWb := if flushWb then 0#32 else t.pcTargetMem }

end Wires

/-- The program counter register. Its trap input is `exception_mem`, not
`final_exception`. -/
def pcTick (o : OpenNets) (s : State) : BitVec 32 :=
  if s.exMem.ctrl.exception then s.csr.mtvecReg
  else if finalMretExec s then s.csr.mepcReg
  else if stallPc s then s.pc
  else if finalPcSel s then finalPcTarget o s
  else s.pc + 4#32

abbrev Imem := BitVec 17 → BitVec 32

def fetch (imem : Imem) (pc : BitVec 32) : IfId :=
  { pc, instruction := imem (pc.extractLsb 18 2), pcPlus4 := pc + 4#32 }

/-- One cycle of `global_gated_clk`. -/
def tick (imem : Imem) (o : OpenNets) (s : State) : State :=
  { pc := pcTick o s
    ifId := pipeTick ((hazard s).flushIfId || finalFlush s) (stallIfId s) {} s.ifId (fetch imem s.pc)
    idEx := pipeTick ((hazard s).flushIdEx || finalFlush s || stallDispatch s) false {} s.idEx (idExIn s)
    exMem := pipeTick ((hazard s).flushExMem || finalFlush s) false {} s.exMem
      (exMemIn s.idEx (operandsEx s) (fcsrRmMem s))
    memWb := pipeTick ((hazard s).flushMemWb || finalFlush s) false {} s.memWb
      (memWbIn s.exMem (dmemRdataMem s) (csrRdataMem s))
    regs := intWrite s.regs (intPort s)
    fpr := fpWrite s.fpr (fpPort s)
    dmem := Dmem.dmemTick s.dmem (dmemIn s)
    csr := CsrFile.csrTick s.csr (csrIn s)
    rob := Rob.robTick s.rob (robIn o s)
    rat := Rat.ratTick s.rat (ratIn s)
    iq := Iq.iqTick s.iq (iqIn o s)
    robRegWriteArray := if dispatchEn s then
      Function.update s.robRegWriteArray (robIdxDisp s) ((ctrlId s).regWrite || (ctrlId s).fpWe)
      else s.robRegWriteArray
    track := trackTick s }

/-- What reset does not touch: the data memory array, the register write
array of the ROB and the payload of the issue queue. -/
structure PowerUp where
  mem : Nat → BitVec 8
  robRegWriteArray : BitVec 4 → Bool
  iqPayload : Iq.State 8

def resetVector : BitVec 32 := 0x80000000#32

def reset (p : PowerUp) : State :=
  { pc := resetVector, ifId := {}, idEx := {}, exMem := {}, memWb := {}
    regs := fun _ => 0, fpr := fun _ => 0
    dmem := { mem := p.mem, reservationAddr := 0, reservationValid := false }
    csr := {}, rob := {}, rat := {}, iq := fun k => { p.iqPayload k with valid := false }
    robRegWriteArray := p.robRegWriteArray, track := {} }

/-- The state after `n` cycles from reset. -/
def run (imem : Imem) (p : PowerUp) (o : Nat → OpenNets) : Nat → State
  | 0 => reset p
  | n + 1 => tick imem (o n) (run imem p o n)

/-- An instruction memory with the program `l` at the reset vector. -/
def imageOf (l : List (BitVec 32)) : Imem := fun a => l.getD a.toNat 0#32

/-- `csrrwi x0, 0x7C0, 1` switches OoO mode on. -/
def csrOooOn : BitVec 32 := 0x7C00D073#32

def zeroPowerUp : PowerUp := { mem := fun _ => 0, robRegWriteArray := fun _ => false, iqPayload := fun _ => {} }

def zeroNets : OpenNets := { completeInstruction := 0, contended := 0 }

end VMate.RiscvTop
