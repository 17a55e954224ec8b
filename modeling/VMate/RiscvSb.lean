import VMate.Pipe

namespace VMate.RiscvSb

open Pipe

/-- The opcodes that `riscv_sb` knows. -/
def knownOpcode (opcode : BitVec 7) : Bool :=
  [0b0110111#7, 0b0010111#7, 0b1101111#7, 0b1100111#7, 0b1100011#7, 0b0000011#7, 0b0100011#7, 0b0010011#7,
    0b0110011#7, 0b0000111#7, 0b0100111#7, 0b1010011#7, 0b1000011#7, 0b1000111#7, 0b1001011#7, 0b1001111#7,
    0b0101111#7, 0b1110011#7, 0b0001111#7].contains opcode

def knownFpOp (funct5 : BitVec 5) : Bool :=
  [0b00000#5, 0b00001#5, 0b00010#5, 0b00011#5, 0b01011#5, 0b00100#5, 0b00101#5, 0b01000#5, 0b10100#5, 0b11000#5,
    0b11010#5, 0b11100#5, 0b11110#5].contains funct5

/-- The checks of `is_illegal` in the order of the source, on the fields of
the instruction. -/
def illegalFields (opcode : BitVec 7) (funct3 : BitVec 3) (funct7 : BitVec 7) (csr : BitVec 12) : Bool :=
  !knownOpcode opcode ||
    (opcode == 0b0101111#7 && (funct3 != 0b010#3 && funct3 != 0b011#3)) ||
    (opcode == 0b1110011#7 && (funct3 == 0b000#3 && (csr != 0x000#12 && csr != 0x001#12 && csr != 0x302#12))) ||
    ((opcode == 0b0000111#7 || opcode == 0b0100111#7) && (funct3 != 0b010#3 && funct3 != 0b011#3)) ||
    (opcode == 0b1010011#7 && !knownFpOp (funct7.extractLsb 6 2)) ||
    (opcode == 0b0110011#7 && (funct7 != 0b0000000#7 && funct7 != 0b0100000#7 && funct7 != 0b0000001#7)) ||
    (opcode == 0b0110011#7 && (funct7 == 0b0100000#7 && funct3 != 0b000#3 && funct3 != 0b101#3)) ||
    (opcode == 0b0010011#7 && (funct3 == 0b001#3 && funct7 != 0b0000000#7)) ||
    (opcode == 0b0010011#7 && (funct3 == 0b101#3 && funct7 != 0b0000000#7 && funct7 != 0b0100000#7)) ||
    (opcode == 0b1100011#7 && (funct3 == 0b010#3 || funct3 == 0b011#3)) ||
    (opcode == 0b0000011#7 && (funct3 == 0b011#3 || funct3 == 0b110#3 || funct3 == 0b111#3)) ||
    (opcode == 0b0100011#7 &&
      (funct3 == 0b011#3 || funct3 == 0b100#3 || funct3 == 0b101#3 || funct3 == 0b110#3 || funct3 == 0b111#3)) ||
    (opcode == 0b1110011#7 && funct3 == 0b100#3) ||
    (opcode == 0b1100111#7 && funct3 != 0b000#3)

def isIllegal (instruction : BitVec 32) : Bool :=
  illegalFields (opcodeOf instruction) (instruction.extractLsb 14 12) (instruction.extractLsb 31 25)
    (instruction.extractLsb 31 20)

section Immediates

variable (instruction : BitVec 32)

def immI : BitVec 32 := (instruction.extractLsb 31 31).replicate 20 ++ instruction.extractLsb 31 20

def immS : BitVec 32 :=
  (instruction.extractLsb 31 31).replicate 20 ++ instruction.extractLsb 31 25 ++ instruction.extractLsb 11 7

def immB : BitVec 32 :=
  (instruction.extractLsb 31 31).replicate 20 ++ instruction.extractLsb 7 7 ++ instruction.extractLsb 30 25 ++
    instruction.extractLsb 11 8 ++ 0#1

def immU : BitVec 32 := instruction.extractLsb 31 12 ++ 0#12

def immJ : BitVec 32 :=
  (instruction.extractLsb 31 31).replicate 12 ++ instruction.extractLsb 19 12 ++ instruction.extractLsb 20 20 ++
    instruction.extractLsb 30 21 ++ 0#1

end Immediates

/-- The cases that set nothing keep the value zero `exp_alu_result` starts
from. -/
def expOpImm (funct3 : BitVec 3) (funct7 : BitVec 7) (rs1Data immI : BitVec 32) : BitVec 32 :=
  if funct3 = 0b000#3 then rs1Data + immI
  else if funct3 = 0b010#3 then if rs1Data.slt immI then 1#32 else 0#32
  else if funct3 = 0b011#3 then if rs1Data.ult immI then 1#32 else 0#32
  else if funct3 = 0b100#3 then rs1Data ^^^ immI
  else if funct3 = 0b110#3 then rs1Data ||| immI
  else if funct3 = 0b111#3 then rs1Data &&& immI
  else if funct3 = 0b001#3 then rs1Data <<< immI.extractLsb 4 0
  else if funct7 = 0b0000000#7 then rs1Data >>> immI.extractLsb 4 0
  else if funct7 = 0b0100000#7 then rs1Data.sshiftRight' (immI.extractLsb 4 0)
  else 0#32

def expMext (funct3 : BitVec 3) (rs1Data rs2Data : BitVec 32) : BitVec 32 :=
  let mulResSs := rs1Data.signExtend 64 * rs2Data.signExtend 64
  let mulResUu := rs1Data.setWidth 64 * rs2Data.setWidth 64
  let mulResSu := rs1Data.signExtend 64 * (0#1 ++ rs2Data).signExtend 64
  if funct3 = 0b000#3 then mulResSs.extractLsb 31 0
  else if funct3 = 0b001#3 then mulResSs.extractLsb 63 32
  else if funct3 = 0b010#3 then mulResSu.extractLsb 63 32
  else if funct3 = 0b011#3 then mulResUu.extractLsb 63 32
  else if funct3 = 0b100#3 then
    if rs2Data = 0#32 then 0xFFFFFFFF#32
    else if rs1Data = 0x80000000#32 ∧ rs2Data = 0xFFFFFFFF#32 then rs1Data
    else rs1Data.sdiv rs2Data
  else if funct3 = 0b101#3 then if rs2Data = 0#32 then 0xFFFFFFFF#32 else rs1Data / rs2Data
  else if funct3 = 0b110#3 then
    if rs2Data = 0#32 then rs1Data
    else if rs1Data = 0x80000000#32 ∧ rs2Data = 0xFFFFFFFF#32 then 0#32
    else rs1Data.srem rs2Data
  else if rs2Data = 0#32 then rs1Data else rs1Data % rs2Data

def expOp (funct3 : BitVec 3) (funct7 : BitVec 7) (rs1Data rs2Data : BitVec 32) : BitVec 32 :=
  if funct7 = 0b0000001#7 then expMext funct3 rs1Data rs2Data
  else if funct3 = 0b000#3 then
    if funct7 = 0b0000000#7 then rs1Data + rs2Data
    else if funct7 = 0b0100000#7 then rs1Data - rs2Data
    else 0#32
  else if funct3 = 0b001#3 then rs1Data <<< rs2Data.extractLsb 4 0
  else if funct3 = 0b010#3 then if rs1Data.slt rs2Data then 1#32 else 0#32
  else if funct3 = 0b011#3 then if rs1Data.ult rs2Data then 1#32 else 0#32
  else if funct3 = 0b100#3 then rs1Data ^^^ rs2Data
  else if funct3 = 0b101#3 then
    if funct7 = 0b0000000#7 then rs1Data >>> rs2Data.extractLsb 4 0
    else if funct7 = 0b0100000#7 then rs1Data.sshiftRight' (rs2Data.extractLsb 4 0)
    else 0#32
  else if funct3 = 0b110#3 then rs1Data ||| rs2Data
  else rs1Data &&& rs2Data

/-- The reference result `exp_alu_result` for the integer opcodes. -/
def expAluResult (instruction pc rs1Data rs2Data : BitVec 32) : BitVec 32 :=
  let opcode := opcodeOf instruction
  let funct3 := instruction.extractLsb 14 12
  let funct7 := instruction.extractLsb 31 25
  if opcode = 0b0110111#7 then immU instruction
  else if opcode = 0b0010111#7 then pc + immU instruction
  else if opcode = 0b1101111#7 then pc + 4#32
  else if opcode = 0b1100111#7 then pc + 4#32
  else if opcode = 0b0000011#7 then rs1Data + immI instruction
  else if opcode = 0b0100011#7 then rs1Data + immS instruction
  else if opcode = 0b0010011#7 then expOpImm funct3 funct7 rs1Data (immI instruction)
  else if opcode = 0b0110011#7 then expOp funct3 funct7 rs1Data rs2Data
  else 0#32

/-- The reference `exp_reg_write` for the integer opcodes. -/
def expRegWrite (opcode : BitVec 7) : Bool :=
  [0b0110111#7, 0b0010111#7, 0b1101111#7, 0b1100111#7, 0b0000011#7, 0b0010011#7, 0b0110011#7].contains opcode

/-- The word `amo_res` that an AMO leaves in memory; an operation that is not
known leaves the word that was there. -/
def amoRes (funct5 : BitVec 5) (expRdData rs2Data : BitVec 32) : BitVec 32 :=
  if funct5 = 0b00000#5 then expRdData + rs2Data
  else if funct5 = 0b00001#5 then rs2Data
  else if funct5 = 0b00100#5 then expRdData ^^^ rs2Data
  else if funct5 = 0b01100#5 then expRdData &&& rs2Data
  else if funct5 = 0b01000#5 then expRdData ||| rs2Data
  else if funct5 = 0b10000#5 then if expRdData.slt rs2Data then expRdData else rs2Data
  else if funct5 = 0b10100#5 then if rs2Data.slt expRdData then expRdData else rs2Data
  else if funct5 = 0b11000#5 then if expRdData.ult rs2Data then expRdData else rs2Data
  else if funct5 = 0b11100#5 then if rs2Data.ult expRdData then expRdData else rs2Data
  else expRdData

end VMate.RiscvSb
