import VMate.FpFma

namespace VMate.FpCvt

open FpUnpack FpRoundPack FpFma

def intSign (intData : BitVec 32) (isUnsigned : Bool) : Bool := !isUnsigned && intData.getLsbD 31

def absInt (intData : BitVec 32) (isUnsigned : Bool) : BitVec 32 :=
  if intSign intData isUnsigned then -intData else intData

def shift (x : FpUnpacked) : BitVec 14 := 55#14 - x.exp.signExtend 14

structure Shifted where
  sig : BitVec 56
  roundBit : Bool
  guardBit : Bool
  sticky : Bool

def shifted (x : FpUnpacked) : Shifted :=
  let s := shift x
  if s.sle 0#14 then ⟨x.sig <<< (-s), false, false, false⟩
  else if s.slt 56#14 then
    ⟨x.sig >>> s, x.sig.getLsbD (s.toNat - 1), (x.sig >>> s).getLsbD 0, (x.sig <<< (57#14 - s)) != 0#56⟩
  else if s = 56#14 then ⟨0#56, x.sig.getLsbD 55, false, x.sig.extractLsb 54 0 != 0#55⟩
  else ⟨0#56, false, false, x.sig != 0#56⟩

def f2iRoundUp (rm : BitVec 3) (sign : Bool) (s : Shifted) : Bool :=
  let inexact := s.roundBit || s.sticky
  if rm = rne then s.roundBit && (s.sticky || s.guardBit)
  else if rm = rtz then false
  else if rm = rdn then sign && inexact
  else if rm = rup then !sign && inexact
  else if rm = rmm then s.roundBit
  else false

def intValMagExt (x : FpUnpacked) (rm : BitVec 3) : BitVec 57 :=
  (shifted x).sig.setWidth 57 + (BitVec.ofBool (f2iRoundUp rm x.sign (shifted x))).setWidth 57

def intVal (x : FpUnpacked) (rm : BitVec 3) : BitVec 32 :=
  let m := (intValMagExt x rm).extractLsb 31 0
  if x.sign then -m else m

/-- The converted integer and whether the conversion is invalid. -/
def finalInt (x : FpUnpacked) (rm : BitVec 3) (isUnsigned : Bool) : BitVec 32 × Bool :=
  let m := intValMagExt x rm
  let small := (shift x).sle 23#14
  if x.isNan then (if isUnsigned then 0xFFFFFFFF#32 else 0x7FFFFFFF#32, true)
  else if x.isInf then
    if isUnsigned then (if x.sign then 0#32 else 0xFFFFFFFF#32, true)
    else (if x.sign then 0x80000000#32 else 0x7FFFFFFF#32, true)
  else if isUnsigned then
    if x.sign then if m ≠ 0#57 ∨ small then (0#32, true) else (intVal x rm, false)
    else if small then (0xFFFFFFFF#32, true)
    else if (0xFFFFFFFF#57).ult m then (0xFFFFFFFF#32, true)
    else (intVal x rm, false)
  else if x.sign then
    if small then (0x80000000#32, true)
    else if (0x80000000#57).ult m then (0x80000000#32, true)
    else (intVal x rm, false)
  else
    if small then (0x7FFFFFFF#32, true)
    else if (0x7FFFFFFF#57).ult m then (0x7FFFFFFF#32, true)
    else (intVal x rm, false)

def fpCvt (x : FpUnpacked) (intData : BitVec 32) (fmt : BitVec 2) (rs2Addr : BitVec 5) (rm : BitVec 3)
    (intToFp fpToInt : Bool) : BitVec 64 × BitVec 5 :=
  let isUnsigned := rs2Addr.getLsbD 0
  if fpToInt then
    let r := finalInt x rm isUnsigned
    let inexact := (shifted x).roundBit || (shifted x).sticky
    (r.1.setWidth 64, flags r.2 false false false (inexact && !r.2))
  else if !intToFp && x.isNan then (canonicalNan fmt, flags x.isSnan false false false false)
  else if !intToFp && x.isInf then (infinity fmt x.sign, 0#5)
  else if intToFp then
    fpRoundPack (intSign intData isUnsigned) 55#13 ((absInt intData isUnsigned).setWidth 56) fmt rm false false
  else fpRoundPack x.sign x.exp x.sig fmt rm x.isSnan false

end VMate.FpCvt
