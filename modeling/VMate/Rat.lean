import Mathlib.Data.BitVec
import Mathlib.Logic.Function.Basic

namespace VMate.Rat

structure State where
  intRatIdx : BitVec 5 → BitVec 4 := fun _ => 0
  intRatValid : BitVec 5 → Bool := fun _ => false
  fpRatIdx : BitVec 5 → BitVec 4 := fun _ => 0
  fpRatValid : BitVec 5 → Bool := fun _ => false

structure RatIn where
  oooEn : Bool
  dispatchEn : Bool
  destReg : BitVec 5
  destType : Bool
  robIdx : BitVec 4
  commitEn : Bool
  commitDestReg : BitVec 5
  commitDestType : Bool
  commitRobIdx : BitVec 4
  flush : Bool

def robIdxOf (r : State) (rs : BitVec 5) (rsType : Bool) : BitVec 4 :=
  if rsType then r.fpRatIdx rs else r.intRatIdx rs

def inRob (r : State) (rs : BitVec 5) (rsType : Bool) : Bool :=
  if rsType = false ∧ rs = 0#5 then false else if rsType then r.fpRatValid rs else r.intRatValid rs

def clearsInt (r : State) (i : RatIn) : Bool :=
  i.commitEn && !i.commitDestType && i.commitDestReg != 0#5 && r.intRatIdx i.commitDestReg == i.commitRobIdx

def clearsFp (r : State) (i : RatIn) : Bool :=
  i.commitEn && i.commitDestType && r.fpRatIdx i.commitDestReg == i.commitRobIdx

def mapsInt (i : RatIn) : Bool := i.dispatchEn && !i.destType && i.destReg != 0#5

def mapsFp (i : RatIn) : Bool := i.dispatchEn && i.destType

/-- One clock edge of `rat` outside reset. A dispatch overrides a commit of
the same register in the same cycle. -/
def ratTick (r : State) (i : RatIn) : State :=
  if !i.oooEn then r
  else if i.flush then { r with intRatValid := fun _ => false, fpRatValid := fun _ => false }
  else
    { intRatIdx := fun a => if mapsInt i && a == i.destReg then i.robIdx else r.intRatIdx a
      intRatValid := fun a => if mapsInt i && a == i.destReg then true
        else if clearsInt r i && a == i.commitDestReg then false else r.intRatValid a
      fpRatIdx := fun a => if mapsFp i && a == i.destReg then i.robIdx else r.fpRatIdx a
      fpRatValid := fun a => if mapsFp i && a == i.destReg then true
        else if clearsFp r i && a == i.commitDestReg then false else r.fpRatValid a }

end VMate.Rat
