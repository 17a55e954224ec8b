import VMate.FpRoundPack

namespace VMate.FpCmp

open FpUnpack FpRoundPack

def fpSgnj (rs1Raw rs2Raw : BitVec 64) (fmt : BitVec 2) (rm : BitVec 3) : BitVec 64 :=
  let eff1 := effIn rs1Raw fmt
  let eff2 := effIn rs2Raw fmt
  let sign1 := if fmt = 0b00#2 then eff1.getLsbD 31 else eff1.getLsbD 63
  let sign2 := if fmt = 0b00#2 then eff2.getLsbD 31 else eff2.getLsbD 63
  let outSign := if rm = 0b000#3 then sign2
    else if rm = 0b001#3 then !sign2
    else if rm = 0b010#3 then sign1 ^^ sign2
    else sign1
  if fmt = 0b00#2 then box (BitVec.ofBool outSign ++ eff1.extractLsb 30 0)
  else BitVec.ofBool outSign ++ eff1.extractLsb 62 0

def mag (raw : BitVec 64) (fmt : BitVec 2) : BitVec 63 :=
  if fmt = 0b00#2 then (raw.extractLsb 30 0).setWidth 63 else raw.extractLsb 62 0

/-- The pair of outcomes `(eq, lt)`. -/
def order (rs1Raw rs2Raw : BitVec 64) (fmt : BitVec 2) (rs1 rs2 : FpUnpacked) : Bool × Bool :=
  let magLt := (mag rs1Raw fmt).ult (mag rs2Raw fmt)
  let magEq := mag rs1Raw fmt == mag rs2Raw fmt
  if rs1.isNan || rs2.isNan then (false, false)
  else if rs1.isZero && rs2.isZero then (true, false)
  else if rs1.sign ≠ rs2.sign then (false, rs1.sign)
  else (magEq, if rs1.sign then !magLt && !magEq else magLt)

def reboxed (raw : BitVec 64) (fmt : BitVec 2) : BitVec 64 :=
  if fmt = 0b00#2 then box (raw.extractLsb 31 0) else raw

def takeRs1 (rm : BitVec 3) (rs1 rs2 : FpUnpacked) (ord : Bool × Bool) : Bool :=
  let oppositeZeros := rs1.isZero && rs2.isZero && (rs1.sign != rs2.sign)
  if rm = 0b000#3 then if oppositeZeros then rs1.sign else ord.2
  else if oppositeZeros then !rs1.sign else !ord.2 && !ord.1

def minMax (rs1Raw rs2Raw : BitVec 64) (fmt : BitVec 2) (rm : BitVec 3) (rs1 rs2 : FpUnpacked) : BitVec 64 :=
  if rs1.isNan && rs2.isNan then canonicalNan fmt
  else if rs1.isNan then reboxed rs2Raw fmt
  else if rs2.isNan then reboxed rs1Raw fmt
  else if takeRs1 rm rs1 rs2 (order rs1Raw rs2Raw fmt rs1 rs2) then reboxed rs1Raw fmt
  else reboxed rs2Raw fmt

def compare (rs1Raw rs2Raw : BitVec 64) (fmt : BitVec 2) (rm : BitVec 3) (rs1 rs2 : FpUnpacked) : Bool × Bool :=
  let ord := order rs1Raw rs2Raw fmt rs1 rs2
  if rm = 0b010#3 then (ord.1, rs1.isSnan || rs2.isSnan)
  else if rm = 0b001#3 then (ord.2, rs1.isNan || rs2.isNan)
  else if rm = 0b000#3 then (ord.2 || ord.1, rs1.isNan || rs2.isNan)
  else (false, false)

def fpCmp (isMinMax : Bool) (fmt : BitVec 2) (rm : BitVec 3) (rs1Raw rs2Raw : BitVec 64)
    (rs1 rs2 : FpUnpacked) : BitVec 64 × BitVec 5 :=
  if isMinMax then
    (minMax rs1Raw rs2Raw fmt rm rs1 rs2, flags (rs1.isSnan || rs2.isSnan) false false false false)
  else
    let c := compare rs1Raw rs2Raw fmt rm rs1 rs2
    ((BitVec.ofBool c.1).setWidth 64, flags c.2 false false false false)

end VMate.FpCmp
