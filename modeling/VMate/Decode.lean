import Mathlib.Data.BitVec

namespace VMate.Decode

structure WbCtrl where
  regWrite : Bool := false
  resultSel : BitVec 2 := 0
  fpWe : Bool := false
  fpToInt : Bool := false
  fpMemRead : Bool := false
  memSize : BitVec 3 := 0
  fmt : BitVec 2 := 0
  deriving DecidableEq, Repr

structure MemCtrl extends WbCtrl where
  memWrite : Bool := false
  memRead : Bool := false
  csrWrite : Bool := false
  csrOp : BitVec 2 := 0
  exception : Bool := false
  exceptionCause : BitVec 4 := 0
  mretExec : Bool := false
  amoEn : Bool := false
  amoOp : BitVec 5 := 0
  fpMemWrite : Bool := false
  fpFflagsWe : Bool := false
  deriving DecidableEq, Repr

structure ExCtrl extends MemCtrl where
  aluSrc : Bool := false
  pcSrcAuipc : Bool := false
  aluOp : BitVec 5 := 0
  branch : Bool := false
  jump : Bool := false
  fpAluOp : BitVec 5 := 0
  rm : BitVec 3 := 0
  intToFp : Bool := false
  csrImmSel : Bool := false
  deriving DecidableEq, Repr

/-- The outputs of `control_unit`, grouped by the last pipeline stage that
reads them. All defaults are the zero values the decoder starts from, which
are also the values a flushed pipeline register holds. -/
structure Ctrl extends ExCtrl where
  immSel : BitVec 3 := 0
  aluOpType : BitVec 2 := 0
  deriving DecidableEq, Repr

def opRType : BitVec 7 := 0b0110011#7
def opIType : BitVec 7 := 0b0010011#7
def opLoad : BitVec 7 := 0b0000011#7
def opStore : BitVec 7 := 0b0100011#7
def opBranch : BitVec 7 := 0b1100011#7
def opJal : BitVec 7 := 0b1101111#7
def opJalr : BitVec 7 := 0b1100111#7
def opLui : BitVec 7 := 0b0110111#7
def opAuipc : BitVec 7 := 0b0010111#7
def opFence : BitVec 7 := 0b0001111#7
def opSystem : BitVec 7 := 0b1110011#7
def opAmo : BitVec 7 := 0b0101111#7
def opLoadFp : BitVec 7 := 0b0000111#7
def opStoreFp : BitVec 7 := 0b0100111#7
def opFmadd : BitVec 7 := 0b1000011#7
def opFmsub : BitVec 7 := 0b1000111#7
def opFnmsub : BitVec 7 := 0b1001011#7
def opFnmadd : BitVec 7 := 0b1001111#7
def opFp : BitVec 7 := 0b1010011#7

def aluAdd : BitVec 5 := 0b00000#5
def aluSub : BitVec 5 := 0b00001#5
def aluAnd : BitVec 5 := 0b00010#5
def aluOr : BitVec 5 := 0b00011#5
def aluXor : BitVec 5 := 0b00100#5
def aluSlt : BitVec 5 := 0b00101#5
def aluSltu : BitVec 5 := 0b00110#5
def aluSll : BitVec 5 := 0b00111#5
def aluSrl : BitVec 5 := 0b01000#5
def aluSra : BitVec 5 := 0b01001#5
def aluPassB : BitVec 5 := 0b01010#5
def aluPassA : BitVec 5 := 0b01011#5
def aluMul : BitVec 5 := 0b10000#5
def aluMulh : BitVec 5 := 0b10001#5
def aluMulhsu : BitVec 5 := 0b10010#5
def aluMulhu : BitVec 5 := 0b10011#5
def aluDiv : BitVec 5 := 0b10100#5
def aluDivu : BitVec 5 := 0b10101#5
def aluRem : BitVec 5 := 0b10110#5
def aluRemu : BitVec 5 := 0b10111#5

def fpAluFadd : BitVec 5 := 0#5
def fpAluFsub : BitVec 5 := 1#5
def fpAluFmul : BitVec 5 := 2#5
def fpAluFdiv : BitVec 5 := 3#5
def fpAluFsqrt : BitVec 5 := 4#5
def fpAluFsgnj : BitVec 5 := 5#5
def fpAluFmin : BitVec 5 := 6#5
def fpAluFcvt : BitVec 5 := 7#5
def fpAluFmv : BitVec 5 := 8#5
def fpAluFcmp : BitVec 5 := 9#5
def fpAluFmadd : BitVec 5 := 10#5
def fpAluFmsub : BitVec 5 := 11#5
def fpAluFnmsub : BitVec 5 := 12#5
def fpAluFnmadd : BitVec 5 := 13#5
def fpAluFclass : BitVec 5 := 14#5

def illegal (c : Ctrl) : Ctrl := { c with exception := true, exceptionCause := 2#4 }

def decodeAmo (funct3 : BitVec 3) (funct7 : BitVec 7) : Ctrl :=
  if funct3 = 0b010#3 ∨ funct3 = 0b011#3 then
    let amoOp := funct7.extractLsb 6 2
    let c : Ctrl := { amoEn := true, amoOp, memSize := funct3, regWrite := true, resultSel := 0b01#2 }
    if amoOp = 0b00010#5 then { c with memRead := true }
    else if amoOp = 0b00011#5 then { c with memWrite := true }
    else { c with memRead := true, memWrite := true }
  else illegal {}

def decodeSystem (funct3 : BitVec 3) (funct7 : BitVec 7) (rs1Addr rs2Addr : BitVec 5) : Ctrl :=
  if funct3 = 0b000#3 then
    if funct7 = 0b0000000#7 ∧ rs2Addr = 0b00000#5 then { exception := true, exceptionCause := 11#4 }
    else if funct7 = 0b0000000#7 ∧ rs2Addr = 0b00001#5 then { exception := true, exceptionCause := 3#4 }
    else if funct7 = 0b0011000#7 ∧ rs2Addr = 0b00010#5 then { mretExec := true }
    else illegal {}
  else
    let c : Ctrl := { regWrite := true, resultSel := 0b11#2, csrImmSel := funct3.getLsbD 2,
                      immSel := if funct3.getLsbD 2 then 0b101#3 else 0 }
    if funct3.extractLsb 1 0 = 0b01#2 then { c with csrOp := 0b01#2, csrWrite := true }
    else if funct3.extractLsb 1 0 = 0b10#2 then { c with csrOp := 0b10#2, csrWrite := rs1Addr != 0#5 }
    else if funct3.extractLsb 1 0 = 0b11#2 then { c with csrOp := 0b11#2, csrWrite := rs1Addr != 0#5 }
    else illegal c

def decodeLoadFp (funct3 : BitVec 3) : Ctrl :=
  if funct3 = 0b010#3 ∨ funct3 = 0b011#3 then
    { memRead := true, fpWe := true, fpMemRead := true, aluSrc := true, memSize := funct3,
      fmt := if funct3 = 0b011#3 then 0b01#2 else 0b00#2, resultSel := 0b01#2 }
  else illegal { resultSel := 0b01#2 }

def decodeStoreFp (funct3 : BitVec 3) : Ctrl :=
  if funct3 = 0b010#3 ∨ funct3 = 0b011#3 then
    { memWrite := true, fpMemWrite := true, aluSrc := true, immSel := 0b001#3, memSize := funct3 }
  else illegal {}

def decodeFma (fpAluOp : BitVec 5) (funct3 : BitVec 3) (funct7 : BitVec 7) : Ctrl :=
  { fpWe := true, fmt := funct7.extractLsb 1 0, rm := funct3, fpFflagsWe := true, fpAluOp }

def decodeFp (funct3 : BitVec 3) (funct7 : BitVec 7) : Ctrl :=
  let c : Ctrl := { fmt := funct7.extractLsb 1 0, rm := funct3 }
  let funct5 := funct7.extractLsb 6 2
  if funct5 = 0b00000#5 then { c with fpWe := true, fpAluOp := fpAluFadd, fpFflagsWe := true }
  else if funct5 = 0b00001#5 then { c with fpWe := true, fpAluOp := fpAluFsub, fpFflagsWe := true }
  else if funct5 = 0b00010#5 then { c with fpWe := true, fpAluOp := fpAluFmul, fpFflagsWe := true }
  else if funct5 = 0b00011#5 then { c with fpWe := true, fpAluOp := fpAluFdiv, fpFflagsWe := true }
  else if funct5 = 0b01011#5 then { c with fpWe := true, fpAluOp := fpAluFsqrt, fpFflagsWe := true }
  else if funct5 = 0b00100#5 then { c with fpWe := true, fpAluOp := fpAluFsgnj }
  else if funct5 = 0b00101#5 then { c with fpWe := true, fpAluOp := fpAluFmin, fpFflagsWe := true }
  else if funct5 = 0b01000#5 then { c with fpWe := true, fpAluOp := fpAluFcvt, fpFflagsWe := true }
  else if funct5 = 0b10100#5 then
    { c with regWrite := true, fpToInt := true, fpAluOp := fpAluFcmp, fpFflagsWe := true }
  else if funct5 = 0b11000#5 then
    { c with regWrite := true, fpToInt := true, fpAluOp := fpAluFcvt, fpFflagsWe := true }
  else if funct5 = 0b11010#5 then
    { c with fpWe := true, intToFp := true, fpAluOp := fpAluFcvt, fpFflagsWe := true }
  else if funct5 = 0b11100#5 then
    { c with regWrite := true, fpToInt := true,
             fpAluOp := if funct3 = 0b001#3 then fpAluFclass else fpAluFmv }
  else if funct5 = 0b11110#5 then { c with fpWe := true, intToFp := true, fpAluOp := fpAluFmv }
  else illegal c

/-- The `case (opcode)` of the main decoder. -/
def decodeOpcode (opcode : BitVec 7) (funct3 : BitVec 3) (funct7 : BitVec 7) (rs1Addr rs2Addr : BitVec 5) : Ctrl :=
  if opcode = 0b0000000#7 then {}
  else if opcode = opRType then
    if funct7 = 0b0000001#7 ∨ funct7 = 0b0000000#7 ∨
        (funct7 = 0b0100000#7 ∧ (funct3 = 0b000#3 ∨ funct3 = 0b101#3)) then
      { regWrite := true, aluOpType := 0b10#2 }
    else illegal {}
  else if opcode = opIType then
    if (funct3 = 0b001#3 ∧ funct7 ≠ 0b0000000#7) ∨
        (funct3 = 0b101#3 ∧ funct7 ≠ 0b0000000#7 ∧ funct7 ≠ 0b0100000#7) then illegal {}
    else { regWrite := true, aluSrc := true, aluOpType := 0b11#2 }
  else if opcode = opLoad then
    { regWrite := true, memRead := true, aluSrc := true, memSize := funct3, resultSel := 0b01#2 }
  else if opcode = opStore then
    { memWrite := true, aluSrc := true, immSel := 0b001#3, memSize := funct3 }
  else if opcode = opBranch then
    if funct3 = 0b010#3 ∨ funct3 = 0b011#3 then illegal {}
    else { immSel := 0b010#3, branch := true, aluOpType := 0b01#2 }
  else if opcode = opJal then { regWrite := true, resultSel := 0b10#2, immSel := 0b100#3, jump := true }
  else if opcode = opJalr then { regWrite := true, resultSel := 0b10#2, aluSrc := true, jump := true }
  else if opcode = opLui then { regWrite := true, aluSrc := true, immSel := 0b011#3 }
  else if opcode = opAuipc then { regWrite := true, aluSrc := true, pcSrcAuipc := true, immSel := 0b011#3 }
  else if opcode = opAmo then decodeAmo funct3 funct7
  else if opcode = opFence then {}
  else if opcode = opSystem then decodeSystem funct3 funct7 rs1Addr rs2Addr
  else if opcode = opLoadFp then decodeLoadFp funct3
  else if opcode = opStoreFp then decodeStoreFp funct3
  else if opcode = opFmadd then decodeFma fpAluFmadd funct3 funct7
  else if opcode = opFmsub then decodeFma fpAluFmsub funct3 funct7
  else if opcode = opFnmsub then decodeFma fpAluFnmsub funct3 funct7
  else if opcode = opFnmadd then decodeFma fpAluFnmadd funct3 funct7
  else if opcode = opFp then decodeFp funct3 funct7
  else illegal {}

def isFpOpcode (opcode : BitVec 7) : Bool :=
  opcode == opLoadFp || opcode == opStoreFp || opcode == opFmadd || opcode == opFmsub ||
    opcode == opFnmsub || opcode == opFnmadd || opcode == opFp

/-- The block after the case: an FP opcode traps while `mstatus.FS` is off or
with a reserved rounding mode, on top of whatever was decoded before. -/
def fpCheck (opcode : BitVec 7) (funct3 : BitVec 3) (mstatusFs : BitVec 2) (fcsrRm : BitVec 3) (c : Ctrl) : Ctrl :=
  if isFpOpcode opcode then
    let trap := if mstatusFs = 0b00#2 then true
      else if opcode ≠ opLoadFp ∧ opcode ≠ opStoreFp ∧ (funct3 = 0b101#3 ∨ funct3 = 0b110#3) then true
      else if opcode ≠ opLoadFp ∧ opcode ≠ opStoreFp ∧ funct3 = 0b111#3 ∧ 0b101#3 ≤ fcsrRm then true
      else false
    let c := if trap then illegal c else c
    { c with resultSel := 0b01#2 }
  else c

def branchAluOp (funct3 : BitVec 3) : BitVec 5 :=
  if funct3 = 0b000#3 then aluSub
  else if funct3 = 0b001#3 then aluSub
  else if funct3 = 0b100#3 then aluSlt
  else if funct3 = 0b101#3 then aluSlt
  else if funct3 = 0b110#3 then aluSltu
  else if funct3 = 0b111#3 then aluSltu
  else aluSub

def mulDivAluOp (funct3 : BitVec 3) : BitVec 5 :=
  if funct3 = 0b000#3 then aluMul
  else if funct3 = 0b001#3 then aluMulh
  else if funct3 = 0b010#3 then aluMulhsu
  else if funct3 = 0b011#3 then aluMulhu
  else if funct3 = 0b100#3 then aluDiv
  else if funct3 = 0b101#3 then aluDivu
  else if funct3 = 0b110#3 then aluRem
  else aluRemu

/-- Register and immediate arithmetic share their table; only the register
form distinguishes SUB from ADD by `funct7[5]`. -/
def arithAluOp (sub : Bool) (funct3 : BitVec 3) (funct7 : BitVec 7) : BitVec 5 :=
  if funct3 = 0b000#3 then if sub then aluSub else aluAdd
  else if funct3 = 0b001#3 then aluSll
  else if funct3 = 0b010#3 then aluSlt
  else if funct3 = 0b011#3 then aluSltu
  else if funct3 = 0b100#3 then aluXor
  else if funct3 = 0b101#3 then if funct7.getLsbD 5 then aluSra else aluSrl
  else if funct3 = 0b110#3 then aluOr
  else aluAnd

def aluDecoder (opcode : BitVec 7) (funct3 : BitVec 3) (funct7 : BitVec 7) (aluOpType : BitVec 2) : BitVec 5 :=
  if opcode = opLui then aluPassB
  else if opcode = opAmo then aluPassA
  else if aluOpType = 0b00#2 then aluAdd
  else if aluOpType = 0b01#2 then branchAluOp funct3
  else if aluOpType = 0b10#2 then
    if funct7 = 0b0000001#7 then mulDivAluOp funct3 else arithAluOp (funct7.getLsbD 5) funct3 funct7
  else arithAluOp false funct3 funct7

/-- `control_unit` with every extension and the privileged part enabled. -/
def controlUnit (opcode : BitVec 7) (funct3 : BitVec 3) (funct7 : BitVec 7) (rs1Addr rs2Addr : BitVec 5)
    (mstatusFs : BitVec 2) (fcsrRm : BitVec 3) : Ctrl :=
  let c := fpCheck opcode funct3 mstatusFs fcsrRm (decodeOpcode opcode funct3 funct7 rs1Addr rs2Addr)
  { c with aluOp := aluDecoder opcode funct3 funct7 c.aluOpType }

def immGen (instruction : BitVec 32) (immSel : BitVec 3) : BitVec 32 :=
  if immSel = 0b000#3 then (instruction.extractLsb 31 20).signExtend 32
  else if immSel = 0b001#3 then
    (instruction.extractLsb 31 25 ++ instruction.extractLsb 11 7).signExtend 32
  else if immSel = 0b010#3 then
    (instruction.extractLsb 31 31 ++ instruction.extractLsb 7 7 ++ instruction.extractLsb 30 25 ++
      instruction.extractLsb 11 8 ++ 0#1).signExtend 32
  else if immSel = 0b011#3 then instruction.extractLsb 31 12 ++ 0#12
  else if immSel = 0b100#3 then
    (instruction.extractLsb 31 31 ++ instruction.extractLsb 19 12 ++ instruction.extractLsb 20 20 ++
      instruction.extractLsb 30 21 ++ 0#1).signExtend 32
  else if immSel = 0b101#3 then (instruction.extractLsb 19 15).setWidth 32
  else 0#32

end VMate.Decode
