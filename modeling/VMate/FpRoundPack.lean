import VMate.FpUnpack

namespace VMate.FpRoundPack

open FpUnpack

def lzc (sig : BitVec 56) : BitVec 6 :=
  match leadIndex sig 56 with
  | some i => 55#6 - BitVec.ofNat 6 i
  | none => 0#6

def normSig (sig : BitVec 56) : BitVec 56 := if sig.getLsbD 55 then sig else sig <<< lzc sig

def normExp (exp : BitVec 13) (sig : BitVec 56) : BitVec 13 :=
  if sig.getLsbD 55 then exp else exp - (0#7 ++ lzc sig)

def bias (fmt : BitVec 2) : BitVec 14 := if fmt = 0b00#2 then 127#14 else 1023#14

def unboundedExp (exp : BitVec 13) (sig : BitVec 56) (fmt : BitVec 2) : BitVec 14 :=
  (normExp exp sig).signExtend 14 + bias fmt

structure Denorm where
  sig : BitVec 56
  exp : BitVec 13
  sticky : Bool

def shiftAmt (unboundedExp : BitVec 14) : BitVec 6 :=
  let shiftAmtSigned := 1#14 - unboundedExp
  if (63#14).slt shiftAmtSigned then 63#6 else shiftAmtSigned.extractLsb 5 0

def denorm (exp : BitVec 13) (sig : BitVec 56) (fmt : BitVec 2) : Denorm :=
  if sig = 0#56 then ⟨0#56, 0#13, false⟩
  else if (unboundedExp exp sig fmt).sle 0#14 then
    let amt := shiftAmt (unboundedExp exp sig fmt)
    ⟨normSig sig >>> amt, if fmt = 0b00#2 then -127#13 else -1023#13,
      (normSig sig &&& ((1#64 <<< amt) - 1#64).setWidth 56) != 0#56⟩
  else ⟨normSig sig, normExp exp sig, false⟩

/-- The two rounding decisions of `fp_round_pack` (bounded and unbounded
exponent) differ only in the bits they look at. -/
def roundUp (rm : BitVec 3) (sign guard round sticky lsb : Bool) : Bool :=
  if rm = rne then guard && (round || sticky || lsb)
  else if rm = rtz then false
  else if rm = rdn then sign && (guard || round || sticky)
  else if rm = rup then !sign && (guard || round || sticky)
  else if rm = rmm then guard
  else false

def fracToRound (d : BitVec 56) (fmt : BitVec 2) : BitVec 53 :=
  if fmt = 0b00#2 then 0#29 ++ d.extractLsb 55 32 else d.extractLsb 55 3

def guardBit (d : BitVec 56) (fmt : BitVec 2) : Bool := if fmt = 0b00#2 then d.getLsbD 31 else d.getLsbD 2

def roundBit (d : BitVec 56) (fmt : BitVec 2) : Bool := if fmt = 0b00#2 then d.getLsbD 30 else d.getLsbD 1

def stickyBit (d : BitVec 56) (fmt : BitVec 2) : Bool :=
  if fmt = 0b00#2 then d.extractLsb 29 0 != 0#30 else d.getLsbD 0

def unboundedTiny (sign : Bool) (exp : BitVec 13) (sig : BitVec 56) (fmt : BitVec 2) (rm : BitVec 3) : Bool :=
  let n := normSig sig
  let up := roundUp rm sign (guardBit n fmt) (roundBit n fmt) (stickyBit n fmt)
    (if fmt = 0b00#2 then n.getLsbD 32 else n.getLsbD 3)
  if sig = 0#56 then false
  else if (unboundedExp exp sig fmt).slt 0#14 then true
  else if unboundedExp exp sig fmt = 0#14 then
    if fmt = 0b00#2 then !(n.extractLsb 54 32 == 0x7FFFFF#23 && up)
    else !(n.extractLsb 54 3 == 0xFFFFFFFFFFFFF#52 && up)
  else false

structure Packed where
  exp : BitVec 11
  frac : BitVec 52
  of : Bool
  uf : Bool
  nx : Bool

def toInfinity (rm : BitVec 3) (sign : Bool) : Bool :=
  rm == rne || rm == rmm || (rm == rup && !sign) || (rm == rdn && sign)

def pack32 (sign : Bool) (rm : BitVec 3) (finalExp : BitVec 13) (finalSig : BitVec 53) (tiny nx : Bool) : Packed :=
  let biasedExp := finalExp.signExtend 14 + 127#14
  if (255#14).sle biasedExp then
    if toInfinity rm sign then ⟨0xFF#11, 0#52, true, false, true⟩
    else ⟨0xFE#11, 0x7FFFFF#52, true, false, true⟩
  else if biasedExp.sle 0#14 then
    ⟨if finalSig.getLsbD 23 then 0x01#11 else 0x00#11, (finalSig.extractLsb 22 0).setWidth 52, false,
      tiny && nx, nx⟩
  else ⟨biasedExp.extractLsb 10 0, (finalSig.extractLsb 22 0).setWidth 52, false, false, nx⟩

def pack64 (sign : Bool) (rm : BitVec 3) (finalExp : BitVec 13) (finalSig : BitVec 53) (tiny nx : Bool) : Packed :=
  let biasedExp := finalExp.signExtend 14 + 1023#14
  if (2047#14).sle biasedExp then
    if toInfinity rm sign then ⟨0x7FF#11, 0#52, true, false, true⟩
    else ⟨0x7FE#11, 0xFFFFFFFFFFFFF#52, true, false, true⟩
  else if biasedExp.sle 0#14 then
    ⟨if finalSig.getLsbD 52 then 0x001#11 else 0x000#11, finalSig.extractLsb 51 0, false, tiny && nx, nx⟩
  else ⟨biasedExp.extractLsb 10 0, finalSig.extractLsb 51 0, false, false, nx⟩

def packed (sign : Bool) (exp : BitVec 13) (sig : BitVec 56) (fmt : BitVec 2) (rm : BitVec 3) : Packed :=
  let d := denorm exp sig fmt
  let frac := fracToRound d.sig fmt
  let guard := guardBit d.sig fmt
  let round := roundBit d.sig fmt
  let sticky := stickyBit d.sig fmt || d.sticky
  let up := roundUp rm sign guard round sticky (frac.getLsbD 0)
  let roundedFrac := frac.setWidth 54 + (BitVec.ofBool up).setWidth 54
  let carry := if fmt = 0b00#2 then roundedFrac.getLsbD 24 else roundedFrac.getLsbD 53
  let finalExp := if carry then d.exp + 1#13 else d.exp
  let finalSig := if carry then (roundedFrac >>> 1).setWidth 53 else roundedFrac.setWidth 53
  let nx := guard || round || sticky
  let tiny := unboundedTiny sign exp sig fmt rm
  if sig = 0#56 then ⟨0#11, 0#52, false, false, nx⟩
  else if fmt = 0b00#2 then pack32 sign rm finalExp finalSig tiny nx
  else pack64 sign rm finalExp finalSig tiny nx

def flags (nv dz of uf nx : Bool) : BitVec 5 :=
  BitVec.ofBool nv ++ BitVec.ofBool dz ++ BitVec.ofBool of ++ BitVec.ofBool uf ++ BitVec.ofBool nx

def fpRoundPack (sign : Bool) (exp : BitVec 13) (sig : BitVec 56) (fmt : BitVec 2) (rm : BitVec 3)
    (nv dz : Bool) : BitVec 64 × BitVec 5 :=
  let p := packed sign exp sig fmt rm
  (if fmt = 0b00#2 then box (BitVec.ofBool sign ++ p.exp.extractLsb 7 0 ++ p.frac.extractLsb 22 0)
   else BitVec.ofBool sign ++ p.exp ++ p.frac,
   flags nv dz p.of p.uf p.nx)

end VMate.FpRoundPack
