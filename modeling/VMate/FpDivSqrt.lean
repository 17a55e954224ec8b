import VMate.FpFma

namespace VMate.FpDivSqrt

open FpUnpack FpRoundPack FpFma

def lzc56 (sig : BitVec 56) : BitVec 6 :=
  match leadIndex sig 56 with
  | some i => 55#6 - BitVec.ofNat 6 i
  | none => 56#6

def sigNorm (x : FpUnpacked) : BitVec 56 := x.sig <<< lzc56 x.sig

def expNorm (x : FpUnpacked) : BitVec 13 := x.exp - (0#7 ++ lzc56 x.sig)

def divNumerator (rs1 : FpUnpacked) : BitVec 113 := 0#1 ++ sigNorm rs1 ++ 0#56

def divSigFull (rs1 rs2 : FpUnpacked) : BitVec 113 :=
  if sigNorm rs2 ≠ 0#56 then divNumerator rs1 / (sigNorm rs2).setWidth 113 else 0#113

def divRem (rs1 rs2 : FpUnpacked) : BitVec 56 :=
  if sigNorm rs2 ≠ 0#56 then (divNumerator rs1 % (sigNorm rs2).setWidth 113).setWidth 56 else 0#56

def divLzc (q : BitVec 113) : BitVec 7 :=
  match leadIndex q 113 with
  | some i => 112#7 - BitVec.ofNat 7 i
  | none => 113#7

def msbPos (q : BitVec 113) : BitVec 7 := 112#7 - divLzc q

def divSig (q : BitVec 113) (rem : BitVec 56) : BitVec 56 :=
  if q = 0#113 then 0#56
  else if (55#7).ule (msbPos q) then
    let amt := msbPos q - 55#7
    let sticky := (q &&& ((1#113 <<< amt) - 1#113)) != 0#113 || rem != 0#56
    (q >>> amt).setWidth 56 ||| (BitVec.ofBool sticky).setWidth 56
  else (q <<< (55#7 - msbPos q)).setWidth 56 ||| (BitVec.ofBool (rem != 0#56)).setWidth 56

def divExpNorm (divExp : BitVec 13) (q : BitVec 113) : BitVec 13 :=
  if q = 0#113 then divExp else divExp - 56#13 + (0#6 ++ msbPos q)

structure Class where
  nv : Bool := false
  dz : Bool := false
  isNan : Bool := false
  isInf : Bool := false
  isZero : Bool := false

def divClass (rs1 rs2 : FpUnpacked) : Class :=
  if rs1.isSnan || rs2.isSnan then { nv := true, isNan := true }
  else if rs1.isNan || rs2.isNan then { isNan := true }
  else if rs1.isInf && rs2.isInf then { nv := true, isNan := true }
  else if rs1.isZero && rs2.isZero then { nv := true, isNan := true }
  else if rs1.isInf then { isInf := true }
  else if rs2.isInf then { isZero := true }
  else if rs2.isZero then { dz := true, isInf := true }
  else if rs1.isZero then { isZero := true }
  else {}

def sqrtRadix (x : FpUnpacked) : BitVec 57 :=
  if (expNorm x).getLsbD 0 then sigNorm x ++ 0#1 else 0#1 ++ sigNorm x

def sqrtExpEven (x : FpUnpacked) : BitVec 13 :=
  if (expNorm x).getLsbD 0 then expNorm x - 1#13 else expNorm x

structure SqrtState where
  q : BitVec 57
  rem : BitVec 59

def sqrtRemNext (radixPadded : BitVec 114) (i : Nat) (s : SqrtState) : BitVec 59 :=
  s.rem.extractLsb 56 0 ++ radixPadded.extractLsb' (i * 2) 2

def sqrtSub (s : SqrtState) : BitVec 59 := s.q ++ 0b01#2

def sqrtStep (radixPadded : BitVec 114) (i : Nat) (s : SqrtState) : SqrtState :=
  if (sqrtSub s).ule (sqrtRemNext radixPadded i s) then
    ⟨s.q.extractLsb 55 0 ++ 1#1, sqrtRemNext radixPadded i s - sqrtSub s⟩
  else ⟨s.q.extractLsb 55 0 ++ 0#1, sqrtRemNext radixPadded i s⟩

/-- The iterations `i = n - 1` down to `0` of the digit recurrence. -/
def sqrtLoop (radixPadded : BitVec 114) : Nat → SqrtState → SqrtState
  | 0, s => s
  | n + 1, s => sqrtLoop radixPadded n (sqrtStep radixPadded n s)

def sqrtRoot (radix : BitVec 57) : SqrtState := sqrtLoop (radix ++ 0#57) 57 ⟨0#57, 0#59⟩

def sqrtSig (s : SqrtState) : BitVec 56 :=
  let sticky := s.q.getLsbD 0 || s.rem != 0#59
  s.q.extractLsb 56 2 ++ BitVec.ofBool (s.q.getLsbD 1 || sticky)

def sqrtClass (rs1 : FpUnpacked) : Class :=
  if rs1.isSnan then { nv := true, isNan := true }
  else if rs1.isNan then { isNan := true }
  else if rs1.sign && !rs1.isZero && !rs1.isNan then { nv := true, isNan := true }
  else if rs1.isInf then { isInf := true }
  else if rs1.isZero then { isZero := true }
  else {}

def zero (fmt : BitVec 2) (sign : Bool) : BitVec 64 :=
  if fmt = 0b00#2 then box (BitVec.ofBool sign ++ 0#8 ++ 0#23) else BitVec.ofBool sign ++ 0#11 ++ 0#52

def fpDivsqrt (isSqrt : Bool) (fmt : BitVec 2) (rm : BitVec 3) (rs1 rs2 : FpUnpacked) : BitVec 64 × BitVec 5 :=
  let c := if isSqrt then sqrtClass rs1 else divClass rs1 rs2
  let sign := if isSqrt then rs1.sign else rs1.sign ^^ rs2.sign
  let q := divSigFull rs1 rs2
  let exp := if isSqrt then (sqrtExpEven rs1).sshiftRight 1 else divExpNorm (expNorm rs1 - expNorm rs2) q
  let sig := if isSqrt then sqrtSig (sqrtRoot (sqrtRadix rs1)) else divSig q (divRem rs1 rs2)
  if c.isNan then (canonicalNan fmt, flags c.nv c.dz false false false)
  else if c.isInf then (infinity fmt sign, flags c.nv c.dz false false false)
  else if c.isZero then (zero fmt sign, flags c.nv c.dz false false false)
  else fpRoundPack sign exp sig fmt rm c.nv c.dz

end VMate.FpDivSqrt
