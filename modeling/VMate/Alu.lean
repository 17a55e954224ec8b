import VMate.Decode

namespace VMate.Alu

open Decode

def mulhProd (a b : BitVec 32) : BitVec 64 := a.signExtend 64 * b.signExtend 64

def mulhsuProd (a b : BitVec 32) : BitVec 64 := a.signExtend 64 * (0#1 ++ b).signExtend 64

def mulhuProd (a b : BitVec 32) : BitVec 64 := (0#32 ++ a) * (0#32 ++ b)

/-- The `alu` module with the M extension enabled. -/
def alu (operandA operandB : BitVec 32) (aluOp : BitVec 5) : BitVec 32 :=
  if aluOp = aluAdd then operandA + operandB
  else if aluOp = aluSub then operandA - operandB
  else if aluOp = aluAnd then operandA &&& operandB
  else if aluOp = aluOr then operandA ||| operandB
  else if aluOp = aluXor then operandA ^^^ operandB
  else if aluOp = aluSlt then if operandA.slt operandB then 1#32 else 0#32
  else if aluOp = aluSltu then if operandA.ult operandB then 1#32 else 0#32
  else if aluOp = aluSll then operandA <<< operandB.extractLsb 4 0
  else if aluOp = aluSrl then operandA >>> operandB.extractLsb 4 0
  else if aluOp = aluSra then operandA.sshiftRight' (operandB.extractLsb 4 0)
  else if aluOp = aluPassB then operandB
  else if aluOp = aluPassA then operandA
  else if aluOp = aluMul then operandA * operandB
  else if aluOp = aluMulh then (mulhProd operandA operandB).extractLsb 63 32
  else if aluOp = aluMulhsu then (mulhsuProd operandA operandB).extractLsb 63 32
  else if aluOp = aluMulhu then (mulhuProd operandA operandB).extractLsb 63 32
  else if aluOp = aluDiv then
    if operandB = 0#32 then 0xFFFFFFFF#32
    else if operandA = 0x80000000#32 ∧ operandB = 0xFFFFFFFF#32 then operandA
    else operandA.sdiv operandB
  else if aluOp = aluDivu then if operandB = 0#32 then 0xFFFFFFFF#32 else operandA / operandB
  else if aluOp = aluRem then
    if operandB = 0#32 then operandA
    else if operandA = 0x80000000#32 ∧ operandB = 0xFFFFFFFF#32 then 0#32
    else operandA.srem operandB
  else if aluOp = aluRemu then if operandB = 0#32 then operandA else operandA % operandB
  else 0#32

def zeroFlag (aluResult : BitVec 32) : Bool := aluResult == 0#32

end VMate.Alu
