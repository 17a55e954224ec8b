import Mathlib.Data.BitVec

namespace VMate.CsrFile

structure State where
  mstatusMie : Bool := false
  mstatusMpie : Bool := false
  mstatusFs : BitVec 2 := 0
  mieReg : BitVec 32 := 0
  mtvecReg : BitVec 32 := 0
  mscratchReg : BitVec 32 := 0
  mepcReg : BitVec 32 := 0
  mcauseReg : BitVec 32 := 0
  mtvalReg : BitVec 32 := 0
  mipReg : BitVec 32 := 0
  frmReg : BitVec 3 := 0
  fflagsReg : BitVec 5 := 0
  moooctrlOooEn : Bool := false
  deriving DecidableEq, Repr

structure CsrIn where
  csrAddr : BitVec 12
  csrWdata : BitVec 32
  csrOp : BitVec 2
  csrWrite : Bool
  exception : Bool
  exceptionCause : BitVec 4
  exceptionPc : BitVec 32
  exceptionAddr : BitVec 32
  mretExec : Bool
  fpFflagsUpdate : BitVec 5
  fpFflagsWe : Bool

def csrMstatus : BitVec 12 := 0x300#12
def csrMisa : BitVec 12 := 0x301#12
def csrMie : BitVec 12 := 0x304#12
def csrMtvec : BitVec 12 := 0x305#12
def csrMscratch : BitVec 12 := 0x340#12
def csrMepc : BitVec 12 := 0x341#12
def csrMcause : BitVec 12 := 0x342#12
def csrMtval : BitVec 12 := 0x343#12
def csrMip : BitVec 12 := 0x344#12
def csrMhartid : BitVec 12 := 0xF14#12
def csrMoooctrl : BitVec 12 := 0x7C0#12
def csrFflags : BitVec 12 := 0x001#12
def csrFrm : BitVec 12 := 0x002#12
def csrFcsr : BitVec 12 := 0x003#12

def mstatusVal (c : State) : BitVec 32 :=
  0#17 ++ c.mstatusFs ++ 0b11#2 ++ 0#3 ++ BitVec.ofBool c.mstatusMpie ++ 0#3 ++ BitVec.ofBool c.mstatusMie ++ 0#3

def csrRdata (c : State) (csrAddr : BitVec 12) : BitVec 32 :=
  if csrAddr = csrMstatus then mstatusVal c
  else if csrAddr = csrMisa then 0x40000100#32
  else if csrAddr = csrMie then c.mieReg
  else if csrAddr = csrMtvec then c.mtvecReg
  else if csrAddr = csrMscratch then c.mscratchReg
  else if csrAddr = csrMepc then c.mepcReg
  else if csrAddr = csrMcause then c.mcauseReg
  else if csrAddr = csrMtval then c.mtvalReg
  else if csrAddr = csrMip then c.mipReg
  else if csrAddr = csrMhartid then 0#32
  else if csrAddr = csrMoooctrl then 0#31 ++ BitVec.ofBool c.moooctrlOooEn
  else if csrAddr = csrFflags then 0#27 ++ c.fflagsReg
  else if csrAddr = csrFrm then 0#29 ++ c.frmReg
  else if csrAddr = csrFcsr then 0#24 ++ c.frmReg ++ c.fflagsReg
  else 0#32

def nextCsrWdata (c : State) (i : CsrIn) : BitVec 32 :=
  if i.csrOp = 0b01#2 then i.csrWdata
  else if i.csrOp = 0b10#2 then csrRdata c i.csrAddr ||| i.csrWdata
  else if i.csrOp = 0b11#2 then csrRdata c i.csrAddr &&& ~~~i.csrWdata
  else csrRdata c i.csrAddr

/-- The rounding mode output, with a bypass of the write in progress. -/
def fcsrRm (c : State) (i : CsrIn) : BitVec 3 :=
  if i.csrWrite && i.csrAddr == csrFrm then (nextCsrWdata c i).extractLsb 2 0
  else if i.csrWrite && i.csrAddr == csrFcsr then (nextCsrWdata c i).extractLsb 7 5
  else c.frmReg

def csrUpdate (c : State) (csrAddr : BitVec 12) (w : BitVec 32) : State :=
  if csrAddr = csrMstatus then
    { c with mstatusMie := w.getLsbD 3, mstatusMpie := w.getLsbD 7, mstatusFs := w.extractLsb 14 13 }
  else if csrAddr = csrMie then { c with mieReg := w }
  else if csrAddr = csrMtvec then { c with mtvecReg := w }
  else if csrAddr = csrMscratch then { c with mscratchReg := w }
  else if csrAddr = csrMepc then { c with mepcReg := w }
  else if csrAddr = csrMcause then { c with mcauseReg := w }
  else if csrAddr = csrMtval then { c with mtvalReg := w }
  else if csrAddr = csrMip then { c with mipReg := w }
  else if csrAddr = csrFflags then { c with fflagsReg := w.extractLsb 4 0 }
  else if csrAddr = csrFrm then { c with frmReg := w.extractLsb 2 0 }
  else if csrAddr = csrFcsr then { c with frmReg := w.extractLsb 7 5, fflagsReg := w.extractLsb 4 0 }
  else if csrAddr = csrMoooctrl then { c with moooctrlOooEn := w.getLsbD 0 }
  else c

/-- One clock edge of `csr_file` outside reset. -/
def csrTick (c : State) (i : CsrIn) : State :=
  if i.exception then
    { c with mepcReg := i.exceptionPc, mcauseReg := 0#28 ++ i.exceptionCause, mtvalReg := i.exceptionAddr,
             mstatusMpie := c.mstatusMie, mstatusMie := false }
  else if i.mretExec then { c with mstatusMie := c.mstatusMpie }
  else if i.csrWrite then csrUpdate c i.csrAddr (nextCsrWdata c i)
  else if i.fpFflagsWe then { c with fflagsReg := c.fflagsReg ||| i.fpFflagsUpdate }
  else c

end VMate.CsrFile
