import VMate.FpRoundPack

namespace VMate.FpFma

open FpUnpack FpRoundPack

/-- The constant one that FADD and FSUB multiply their first operand by. -/
def one : FpUnpacked := { sig := 1#1 ++ 0#55 }

def effRs2 (op : BitVec 3) (rs2 : FpUnpacked) : FpUnpacked :=
  if op = 0b000#3 ∨ op = 0b001#3 then one else rs2

def effRs3 (op : BitVec 3) (rs1 rs2 rs3 : FpUnpacked) : FpUnpacked :=
  if op = 0b000#3 ∨ op = 0b001#3 then rs2
  else if op = 0b010#3 then { isZero := true, sign := rs1.sign ^^ rs2.sign }
  else rs3

def prodSign (op : BitVec 3) (rs1 rs2 : FpUnpacked) : Bool :=
  if op = 0b110#3 ∨ op = 0b111#3 then !(rs1.sign ^^ rs2.sign) else rs1.sign ^^ rs2.sign

def addSign (op : BitVec 3) (rs3 : FpUnpacked) : Bool :=
  if op = 0b001#3 ∨ op = 0b101#3 ∨ op = 0b111#3 then !rs3.sign else rs3.sign

structure Aligned where
  finalExp : BitVec 14
  pSig : BitVec 112
  pSticky : Bool
  aSig : BitVec 112
  aSticky : Bool

def shiftSticky (x : BitVec 112) (shamt : BitVec 7) : Bool := (x &&& ((1#112 <<< shamt) - 1#112)) != 0#112

def align (pExp aExp : BitVec 14) (pSig aSig : BitVec 112) : Aligned :=
  let expDiff := pExp - aExp
  let shamtA := expDiff.extractLsb 6 0
  let shamtP := (-expDiff).extractLsb 6 0
  if pSig = 0#112 ∧ aSig = 0#112 then ⟨0#14, 0#112, false, 0#112, false⟩
  else if pSig = 0#112 then ⟨aExp, 0#112, false, aSig, false⟩
  else if aSig = 0#112 then ⟨pExp, pSig, false, 0#112, false⟩
  else if (0#14).slt expDiff then
    if (112#14).sle expDiff then ⟨pExp, pSig, false, 0#112, aSig != 0#112⟩
    else ⟨pExp, pSig, false, aSig >>> shamtA, shiftSticky aSig shamtA⟩
  else if expDiff.slt 0#14 then
    if (112#14).sle (-expDiff) then ⟨aExp, 0#112, pSig != 0#112, aSig, false⟩
    else ⟨aExp, pSig >>> shamtP, shiftSticky pSig shamtP, aSig, false⟩
  else ⟨pExp, pSig, false, aSig, false⟩

def addAligned (pSign aSign : Bool) (rm : BitVec 3) (pExt aExt : BitVec 114) : Bool × BitVec 114 :=
  if pSign = aSign then (pSign, pExt + aExt)
  else if aExt.ult pExt then (pSign, pExt - aExt)
  else if pExt.ult aExt then (aSign, aExt - pExt)
  else (rm == rdn, 0#114)

def lzc (absSum : BitVec 114) : BitVec 7 :=
  match leadIndex (absSum.extractLsb 113 1) 113 with
  | some i => 113#7 - BitVec.ofNat 7 (i + 1)
  | none => 113#7

def outSig (normSum : BitVec 114) : BitVec 56 :=
  normSum.extractLsb 113 59 ++ BitVec.ofBool (normSum.getLsbD 58 || normSum.extractLsb 57 0 != 0#58)

structure Special where
  nv : Bool
  isNanRes : Bool
  isInfRes : Bool
  prodIsInf : Bool

def special (rs1 rs2 rs3 : FpUnpacked) (pSign aSign : Bool) : Special :=
  let anySnan := rs1.isSnan || rs2.isSnan || rs3.isSnan
  let anyQnan := rs1.isQnan || rs2.isQnan || rs3.isQnan
  let infMulZero := (rs1.isInf && rs2.isZero) || (rs1.isZero && rs2.isInf)
  let rs1Nan := rs1.isSnan || rs1.isQnan
  let rs2Nan := rs2.isSnan || rs2.isQnan
  let prodIsInf := (rs1.isInf && !rs2.isZero && !rs2Nan) || (rs2.isInf && !rs1.isZero && !rs1Nan)
  let infAddOpp := prodIsInf && rs3.isInf && (pSign != aSign)
  { nv := anySnan || (infMulZero && !rs3.isInf) || infAddOpp
    isNanRes := anySnan || anyQnan || infMulZero || infAddOpp
    isInfRes := prodIsInf || rs3.isInf
    prodIsInf }

def finalSign (sp : Special) (rs3 : FpUnpacked) (pSign aSign resSign : Bool) : Bool :=
  if sp.isNanRes then false
  else if sp.prodIsInf && rs3.isInf then pSign
  else if sp.prodIsInf then pSign
  else if rs3.isInf then aSign
  else resSign

def infinity (fmt : BitVec 2) (sign : Bool) : BitVec 64 :=
  if fmt = 0b00#2 then box (BitVec.ofBool sign ++ 0xFF#8 ++ 0#23) else BitVec.ofBool sign ++ 0x7FF#11 ++ 0#52

def fpFma (op : BitVec 3) (fmt : BitVec 2) (rm : BitVec 3) (rs1 rs2 rs3 : FpUnpacked) : BitVec 64 × BitVec 5 :=
  let eff2 := effRs2 op rs2
  let eff3 := effRs3 op rs1 rs2 rs3
  let pSign := prodSign op rs1 eff2
  let aSign := addSign op eff3
  let pSig := if rs1.isZero || eff2.isZero then 0#112 else (0#56 ++ rs1.sig) * (0#56 ++ eff2.sig)
  let aSig := if eff3.isZero then 0#112 else eff3.sig.setWidth 112 <<< 55
  let al := align (rs1.exp.signExtend 14 + eff2.exp.signExtend 14) (eff3.exp.signExtend 14) pSig aSig
  let sum := addAligned pSign aSign rm (0#1 ++ al.pSig ++ BitVec.ofBool al.pSticky)
    (0#1 ++ al.aSig ++ BitVec.ofBool al.aSticky)
  let z := lzc sum.2
  let outExp := (al.finalExp - (0#7 ++ z) + 2#14).extractLsb 12 0
  let sp := special rs1 eff2 eff3 pSign aSign
  let sign := finalSign sp eff3 pSign aSign sum.1
  if sp.isNanRes then (canonicalNan fmt, flags sp.nv false false false false)
  else if sp.isInfRes then (infinity fmt sign, 0#5)
  else fpRoundPack sign outExp (outSig (sum.2 <<< z)) fmt rm sp.nv false

end VMate.FpFma
