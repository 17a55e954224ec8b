import Mathlib.Data.BitVec
import Mathlib.Data.List.FinRange

namespace VMate.Iq

structure Operand where
  wait : Bool := false
  robIdx : BitVec 4 := 0
  data : BitVec 64 := 0
  deriving DecidableEq, Repr

structure IqEntry where
  valid : Bool := false
  robIdx : BitVec 4 := 0
  opType : BitVec 32 := 0
  aluOp : BitVec 5 := 0
  pc : BitVec 32 := 0
  imm : BitVec 32 := 0
  rs1 : Operand := {}
  rs2 : Operand := {}
  rs3 : Operand := {}
  deriving DecidableEq, Repr

abbrev State (depth : Nat) := Fin depth → IqEntry

structure IqIn where
  oooEn : Bool
  flush : Bool
  dispatchEn : Bool
  entry : IqEntry
  robHead : BitVec 4
  cdbEn : Bool
  cdbRobIdx : BitVec 4
  cdbData : BitVec 64
  issueAck : Bool

variable {depth : Nat}

/-- The priority loops of the source stop at the first index that qualifies. -/
def firstIdx (p : Fin depth → Bool) : Option (Fin depth) := (List.finRange depth).find? p

def allocIdx (q : State depth) : Option (Fin depth) := firstIdx (fun k => !(q k).valid)

def iqFull (q : State depth) : Bool := (allocIdx q).isNone

def hit (i : IqIn) (o : Operand) : Bool := o.wait && i.cdbEn && o.robIdx == i.cdbRobIdx

def isMemOp (opType : BitVec 32) : Bool :=
  opType.extractLsb 6 0 == 0b0000011#7 || opType.extractLsb 6 0 == 0b0100011#7 ||
    opType.extractLsb 6 0 == 0b0101011#7 || opType.extractLsb 6 0 == 0b0000111#7 ||
    opType.extractLsb 6 0 == 0b0100111#7

def ready (i : IqIn) (e : IqEntry) : Bool :=
  e.valid && (!e.rs1.wait || hit i e.rs1) && (!e.rs2.wait || hit i e.rs2) && (!e.rs3.wait || hit i e.rs3) &&
    (!isMemOp e.opType || e.robIdx == i.robHead)

def selIdx (q : State depth) (i : IqIn) : Option (Fin depth) := firstIdx (fun k => ready i (q k))

def issueEn (q : State depth) (i : IqIn) : Bool := (selIdx q i).isSome

def captured (i : IqIn) (o : Operand) : Operand :=
  if hit i o then { o with wait := false, data := i.cdbData } else o

def woken (i : IqIn) (e : IqEntry) : IqEntry :=
  { e with rs1 := captured i e.rs1, rs2 := captured i e.rs2, rs3 := captured i e.rs3 }

/-- The entry offered on the issue port. -/
def issued (q : State depth) (i : IqIn) : Option IqEntry := (selIdx q i).map (fun k => woken i (q k))

/-- One clock edge of `iq` outside reset. -/
def iqTick (q : State depth) (i : IqIn) : State depth :=
  if !i.oooEn then q
  else if i.flush then fun k => { q k with valid := false }
  else fun k =>
    let e := if i.issueAck ∧ selIdx q i = some k then { q k with valid := false } else q k
    if i.dispatchEn ∧ allocIdx q = some k then { woken i i.entry with valid := true }
    else if (q k).valid then woken i e else e

end VMate.Iq
