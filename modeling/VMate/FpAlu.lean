import VMate.FpDivSqrt
import VMate.FpCmp
import VMate.FpCvt
import VMate.Decode

namespace VMate.FpAlu

open Decode FpUnpack FpFma FpDivSqrt FpCmp FpCvt

structure FpAluIn where
  fpAluOp : BitVec 5
  fmt : BitVec 2
  rm : BitVec 3
  fcsrRm : BitVec 3
  rs1Data : BitVec 64
  rs2Data : BitVec 64
  rs3Data : BitVec 64
  intRs1Data : BitVec 32
  intToFp : Bool
  fpToInt : Bool
  rs2Addr : BitVec 5

def effRm (i : FpAluIn) : BitVec 3 := if i.rm = 0b111#3 then i.fcsrRm else i.rm

def rs1Fmt (i : FpAluIn) : BitVec 2 :=
  if i.fpAluOp = fpAluFcvt ∧ i.intToFp = false ∧ i.fpToInt = false then i.rs2Addr.extractLsb 1 0 else i.fmt

def fmaOp (fpAluOp : BitVec 5) : BitVec 3 :=
  if fpAluOp = fpAluFadd then 0#3
  else if fpAluOp = fpAluFsub then 1#3
  else if fpAluOp = fpAluFmul then 2#3
  else if fpAluOp = fpAluFmadd then 4#3
  else if fpAluOp = fpAluFmsub then 5#3
  else if fpAluOp = fpAluFnmsub then 6#3
  else if fpAluOp = fpAluFnmadd then 7#3
  else 0#3

def isFmaOp (fpAluOp : BitVec 5) : Bool :=
  fpAluOp == fpAluFadd || fpAluOp == fpAluFsub || fpAluOp == fpAluFmul || fpAluOp == fpAluFmadd ||
    fpAluOp == fpAluFmsub || fpAluOp == fpAluFnmsub || fpAluOp == fpAluFnmadd

def fmvResult (i : FpAluIn) : BitVec 64 :=
  if i.intToFp then box i.intRs1Data
  else if i.fpToInt then 0#32 ++ i.rs1Data.extractLsb 31 0
  else 0#64

def fclassMask (i : FpAluIn) : BitVec 10 :=
  let x := fpUnpack i.rs1Data (rs1Fmt i)
  let isSubnormal := if i.fmt = 0b00#2 then i.rs1Data.extractLsb 30 23 == 0#8
    else i.rs1Data.extractLsb 62 52 == 0#11
  if x.isNan then if x.isSnan then 1#10 <<< 8 else 1#10 <<< 9
  else if x.isInf then if x.sign then 1#10 <<< 0 else 1#10 <<< 7
  else if x.isZero then if x.sign then 1#10 <<< 3 else 1#10 <<< 4
  else if isSubnormal then if x.sign then 1#10 <<< 2 else 1#10 <<< 5
  else if x.sign then 1#10 <<< 1 else 1#10 <<< 6

/-- `fp_alu.v`: the result and the flags of one floating-point operation. -/
def fpAlu (i : FpAluIn) : BitVec 64 × BitVec 5 :=
  let rs1 := fpUnpack i.rs1Data (rs1Fmt i)
  let rs2 := fpUnpack i.rs2Data i.fmt
  let rs3 := fpUnpack i.rs3Data i.fmt
  if isFmaOp i.fpAluOp then fpFma (fmaOp i.fpAluOp) i.fmt (effRm i) rs1 rs2 rs3
  else if i.fpAluOp = fpAluFdiv ∨ i.fpAluOp = fpAluFsqrt then
    fpDivsqrt (i.fpAluOp == fpAluFsqrt) i.fmt (effRm i) rs1 rs2
  else if i.fpAluOp = fpAluFcmp ∨ i.fpAluOp = fpAluFmin then
    fpCmp (i.fpAluOp == fpAluFmin) i.fmt (effRm i) i.rs1Data i.rs2Data rs1 rs2
  else if i.fpAluOp = fpAluFsgnj then (fpSgnj i.rs1Data i.rs2Data i.fmt (effRm i), 0#5)
  else if i.fpAluOp = fpAluFcvt then
    fpCvt rs1 i.intRs1Data i.fmt i.rs2Addr (effRm i) i.intToFp i.fpToInt
  else if i.fpAluOp = fpAluFmv then (fmvResult i, 0#5)
  else if i.fpAluOp = fpAluFclass then ((fclassMask i).setWidth 64, 0#5)
  else (0#64, 0#5)

end VMate.FpAlu
