import Mathlib.Data.BitVec
import Mathlib.Logic.Function.Basic

namespace VMate.Rob

structure RobEntry where
  valid : Bool := false
  completed : Bool := false
  destReg : BitVec 5 := 0
  destType : Bool := false
  pc : BitVec 32 := 0
  isStore : Bool := false
  isBranch : Bool := false
  instruction : BitVec 32 := 0
  result : BitVec 64 := 0
  exception : Bool := false
  exceptionCause : BitVec 4 := 0
  branchMispredicted : Bool := false
  branchTarget : BitVec 32 := 0
  deriving DecidableEq, Repr

/-- The reorder buffer with `ROB_IDX_W = w` and `ROB_DEPTH = 2 ^ w`. -/
structure State (w : Nat) where
  robData : BitVec w → RobEntry := fun _ => {}
  headPtr : BitVec w := 0
  tailPtr : BitVec w := 0
  count : BitVec (w + 1) := 0

structure RobIn (w : Nat) where
  oooEn : Bool
  dispatchEn : Bool
  destReg : BitVec 5
  destType : Bool
  pc : BitVec 32
  isStore : Bool
  isBranch : Bool
  instruction : BitVec 32
  dispatchException : Bool
  dispatchExceptionCause : BitVec 4
  completeEn : Bool
  completeIdx : BitVec w
  result : BitVec 64
  exception : Bool
  exceptionCause : BitVec 4
  branchMispredicted : Bool
  branchTarget : BitVec 32
  commitAck : Bool
  flush : Bool

variable {w : Nat}

def robFull (r : State w) : Bool := r.count == BitVec.ofNat (w + 1) (2 ^ w)

def headEntry (r : State w) : RobEntry := r.robData r.headPtr

def commitEn (r : State w) : Bool :=
  (0#(w + 1)).ult r.count && (headEntry r).valid && (headEntry r).completed

def accepts (r : State w) (i : RobIn w) : Bool := i.dispatchEn && !robFull r

def retires (r : State w) (i : RobIn w) : Bool := commitEn r && i.commitAck

def completes (r : State w) (i : RobIn w) : Bool := i.completeEn && (r.robData i.completeIdx).valid

def dispatched (i : RobIn w) (e : RobEntry) : RobEntry :=
  { e with valid := true, completed := i.dispatchException, destReg := i.destReg, destType := i.destType,
           pc := i.pc, isStore := i.isStore, isBranch := i.isBranch, instruction := i.instruction,
           exception := i.dispatchException, exceptionCause := i.dispatchExceptionCause }

def completed (i : RobIn w) (e : RobEntry) : RobEntry :=
  { e with completed := true, result := i.result, exception := i.exception, exceptionCause := i.exceptionCause,
           branchMispredicted := i.branchMispredicted, branchTarget := i.branchTarget }

def released (e : RobEntry) : RobEntry := { e with valid := false, completed := false }

/-- The entry at `j` after an edge without flush. The assignments of the
source are made in this order and the last one to a field wins. -/
def nextEntry (r : State w) (i : RobIn w) (j : BitVec w) : RobEntry :=
  let e := r.robData j
  let e := if accepts r i && j == r.tailPtr then dispatched i e else e
  let e := if completes r i && j == i.completeIdx then completed i e else e
  if retires r i && j == r.headPtr then released e else e

/-- One clock edge of `rob` outside reset; the clock is gated by `ooo_en`. -/
def robTick (r : State w) (i : RobIn w) : State w :=
  if !i.oooEn then r
  else if i.flush then { robData := fun j => released (r.robData j), headPtr := 0, tailPtr := 0, count := 0 }
  else
    { robData := nextEntry r i
      headPtr := if retires r i then r.headPtr + 1 else r.headPtr
      tailPtr := if accepts r i then r.tailPtr + 1 else r.tailPtr
      count := if accepts r i && !retires r i then r.count + 1
        else if !accepts r i && retires r i then r.count - 1 else r.count }

end VMate.Rob
