import Mathlib.Data.BitVec

namespace VMate.Hazard

structure HazardIn where
  rs1AddrId : BitVec 5
  rs2AddrId : BitVec 5
  rs3AddrId : BitVec 5
  rdAddrEx : BitVec 5
  memReadEx : Bool
  fpMemReadEx : Bool
  pcSelEx : Bool
  exceptionMem : Bool
  mretExecMem : Bool
  csrWriteEx : Bool
  csrWriteMem : Bool
  csrOpId : BitVec 2
  fpFflagsWeEx : Bool
  fpFflagsWeMem : Bool

structure HazardOut where
  stallPc : Bool := false
  stallIfId : Bool := false
  flushIfId : Bool := false
  flushIdEx : Bool := false
  flushExMem : Bool := false
  flushMemWb : Bool := false
  deriving DecidableEq, Repr

def intLoadUse (h : HazardIn) : Bool :=
  h.memReadEx && h.rdAddrEx != 0#5 && (h.rdAddrEx == h.rs1AddrId || h.rdAddrEx == h.rs2AddrId)

def fpLoadUse (h : HazardIn) : Bool :=
  h.fpMemReadEx &&
    (h.rdAddrEx == h.rs1AddrId || h.rdAddrEx == h.rs2AddrId || h.rdAddrEx == h.rs3AddrId)

def csrHazard (h : HazardIn) : Bool := h.csrWriteEx || h.csrWriteMem

def fflagsHazard (h : HazardIn) : Bool := h.csrOpId != 0b00#2 && (h.fpFflagsWeEx || h.fpFflagsWeMem)

def hazardUnit (h : HazardIn) : HazardOut :=
  if h.exceptionMem || h.mretExecMem then
    { flushIfId := true, flushIdEx := true, flushExMem := true, flushMemWb := true }
  else if h.pcSelEx then { flushIfId := true, flushIdEx := true }
  else if intLoadUse h || fpLoadUse h || csrHazard h || fflagsHazard h then
    { stallPc := true, stallIfId := true, flushIdEx := true }
  else {}

/-- The selector of an integer operand in `forwarding_unit`. -/
def forwardInt (rsAddrEx rdAddrMem : BitVec 5) (regWriteMem : Bool) (rdAddrWb : BitVec 5) (regWriteWb : Bool) :
    BitVec 2 :=
  if regWriteMem && rdAddrMem != 0#5 && rdAddrMem == rsAddrEx then 0b10#2
  else if regWriteWb && rdAddrWb != 0#5 && rdAddrWb == rsAddrEx then 0b01#2
  else 0b00#2

/-- The selector of an FP operand in `forwarding_unit`; `f0` is an ordinary register. -/
def forwardFp (rsAddrEx rdAddrMem : BitVec 5) (fpWeMem : Bool) (rdAddrWb : BitVec 5) (fpWeWb : Bool) : BitVec 2 :=
  if fpWeMem && rdAddrMem == rsAddrEx then 0b10#2
  else if fpWeWb && rdAddrWb == rsAddrEx then 0b01#2
  else 0b00#2

end VMate.Hazard
