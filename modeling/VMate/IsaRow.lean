import VMate.IsaExec
import VMate.Rv32i

namespace VMate.IsaRow

open Decode Pipe DecodeFacts Rv32i
open Isa (Instr Fields encode ofWord_word)
open IsaExec (csrWrites)

section Words

variable (i : Instr)

theorem opcodeOf_encode : opcodeOf (encode i) = i.fields.opcode := congrArg Fields.opcode (ofWord_word i.fields)

theorem rdOf_encode : rdOf (encode i) = i.fields.rd := congrArg Fields.rd (ofWord_word i.fields)

theorem rs1Of_encode : rs1Of (encode i) = i.fields.rs1 := congrArg Fields.rs1 (ofWord_word i.fields)

theorem rs2Of_encode : rs2Of (encode i) = i.fields.rs2 := congrArg Fields.rs2 (ofWord_word i.fields)

theorem funct3_encode : (encode i).extractLsb 14 12 = i.fields.funct3 := congrArg Fields.funct3 (ofWord_word i.fields)

theorem funct7_encode : (encode i).extractLsb 31 25 = i.fields.funct7 := congrArg Fields.funct7 (ofWord_word i.fields)

theorem row_encode : row (encode i) =
    decodeOpcode i.fields.opcode i.fields.funct3 i.fields.funct7 i.fields.rs1 i.fields.rs2 := by
  rw [row, opcodeOf_encode, funct3_encode, funct7_encode, rs1Of_encode, rs2Of_encode]

/-- None of these instructions has an FP opcode. -/
theorem decode_encode (fs : BitVec 2) (rm : BitVec 3) : decode (encode i) fs rm =
    { decodeOpcode i.fields.opcode i.fields.funct3 i.fields.funct7 i.fields.rs1 i.fields.rs2 with
      aluOp := aluDecoder i.fields.opcode i.fields.funct3 i.fields.funct7
        (decodeOpcode i.fields.opcode i.fields.funct3 i.fields.funct7 i.fields.rs1 i.fields.rs2).aluOpType } := by
  rw [decode_int, row_encode, opcodeOf_encode, funct3_encode, funct7_encode]
  rw [opcodeOf_encode]
  cases i <;> rfl

end Words

section Immediates

variable (w : BitVec 32)

theorem immGen_upper : immGen w 0b011#3 = Isa.upperImm (Fields.ofWord w) ++ 0#12 := by
  change w.extractLsb 31 12 ++ 0#12 = _
  congr 1
  apply BitVec.eq_of_getLsbD_eq
  intro n hn
  simp only [Isa.upperImm, Fields.ofWord, BitVec.getLsbD_extractLsb, BitVec.getLsbD_append]
  grind

theorem hiLo_eq : w.extractLsb 31 20 = (Fields.ofWord w).funct7 ++ (Fields.ofWord w).rs2 := by
  rw [BitVec.extractLsb, Fields.ofWord, BitVec.extractLsb, BitVec.extractLsb,
    BitVec.extractLsb'_append_extractLsb'_eq_extractLsb' (by decide)]

theorem immGen_hiLo : immGen w 0b000#3 = ((Fields.ofWord w).funct7 ++ (Fields.ofWord w).rs2).signExtend 32 := by
  rw [← hiLo_eq]
  rfl

theorem immGen_store : immGen w 0b001#3 = ((Fields.ofWord w).funct7 ++ (Fields.ofWord w).rd).signExtend 32 := rfl

theorem immGen_branch : immGen w 0b010#3 =
    (Isa.branchOffset (Fields.ofWord w).funct7 (Fields.ofWord w).rd ++ 0#1).signExtend 32 := by
  change BitVec.signExtend 32 _ = _
  congr 1
  apply BitVec.eq_of_getLsbD_eq
  intro n hn
  simp only [Isa.branchOffset, Fields.ofWord, BitVec.getLsbD_extractLsb, BitVec.getLsbD_append]
  grind

theorem immGen_jump : immGen w 0b100#3 = (Isa.jumpOffset (Fields.ofWord w) ++ 0#1).signExtend 32 := by
  change BitVec.signExtend 32 _ = _
  congr 1
  apply BitVec.eq_of_getLsbD_eq
  intro n hn
  simp only [Isa.jumpOffset, Fields.ofWord, BitVec.getLsbD_extractLsb, BitVec.getLsbD_append]
  rcases Nat.lt_or_ge n 11 with h | h
  · grind
  · rcases Nat.lt_or_ge n 15 with h' | h'
    · grind
    · grind

end Immediates

section Rows

variable (fs : BitVec 2) (rm : BitVec 3) (rd rs1 rs2 : BitVec 5)

theorem decode_lui (imm : BitVec 20) : decode (encode (.lui rd imm)) fs rm =
    { regWrite := true, aluSrc := true, immSel := 0b011#3, aluOp := aluPassB } := decode_encode _ fs rm

theorem decode_auipc (imm : BitVec 20) : decode (encode (.auipc rd imm)) fs rm =
    { regWrite := true, aluSrc := true, pcSrcAuipc := true, immSel := 0b011#3 } := decode_encode _ fs rm

theorem decode_jal (offset : BitVec 20) : decode (encode (.jal rd offset)) fs rm =
    { regWrite := true, resultSel := 0b10#2, immSel := 0b100#3, jump := true } := decode_encode _ fs rm

theorem decode_jalr (offset : BitVec 12) : decode (encode (.jalr rd rs1 offset)) fs rm =
    { regWrite := true, resultSel := 0b10#2, aluSrc := true, jump := true } := decode_encode _ fs rm

theorem decode_branch (op : Isa.BranchOp) (offset : BitVec 12) : decode (encode (.branch op rs1 rs2 offset)) fs rm =
    { immSel := 0b010#3, branch := true, aluOpType := 0b01#2, aluOp := branchAluOp (Isa.branchTable.key op) } := by
  rw [decode_encode]
  cases op <;> rfl

theorem decode_load (op : Isa.LoadOp) (offset : BitVec 12) : decode (encode (.load op rd rs1 offset)) fs rm =
    { regWrite := true, memRead := true, aluSrc := true, memSize := Isa.loadTable.key op, resultSel := 0b01#2 } := by
  rw [decode_encode]
  cases op <;> rfl

theorem decode_store (op : Isa.StoreOp) (offset : BitVec 12) : decode (encode (.store op rs1 rs2 offset)) fs rm =
    { memWrite := true, aluSrc := true, immSel := 0b001#3, memSize := Isa.storeTable.key op } := by
  rw [decode_encode]
  cases op <;> rfl

theorem decode_aluImm (op : Isa.ImmOp) (imm : BitVec 12) : decode (encode (.aluImm op rd rs1 imm)) fs rm =
    { regWrite := true, aluSrc := true, aluOpType := 0b11#2,
      aluOp := arithAluOp false (Isa.immTable.key op) 0b0000000#7 } := by
  rw [decode_encode]
  cases op <;> rfl

theorem decode_shift (op : Isa.ShiftOp) (shamt : BitVec 5) : decode (encode (.shift op rd rs1 shamt)) fs rm =
    { regWrite := true, aluSrc := true, aluOpType := 0b11#2,
      aluOp := aluDecoder opIType (Isa.shiftTable.key op).2 (Isa.shiftTable.key op).1 0b11#2 } := by
  rw [decode_encode]
  cases op <;> rfl

theorem decode_alu (op : Isa.RegOp) : decode (encode (.alu op rd rs1 rs2)) fs rm =
    { regWrite := true, aluOpType := 0b10#2
      aluOp := aluDecoder opRType (Isa.regTable.key op).2 (Isa.regTable.key op).1 0b10#2 } := by
  rw [decode_encode]
  cases op <;> rfl

theorem decode_lr (order : BitVec 2) : decode (encode (.lr order rd rs1)) fs rm =
    { amoEn := true, amoOp := 0b00010#5, memSize := 0b010#3, regWrite := true, resultSel := 0b01#2, memRead := true
      aluOp := aluPassA } := by
  rw [decode_encode]
  change { decodeAmo 0b010#3 (0b00010#5 ++ order) with aluOp := aluPassA } = _
  simp only [decodeAmo, Isa.order_hi]
  rfl

theorem decode_sc (order : BitVec 2) : decode (encode (.sc order rd rs1 rs2)) fs rm =
    { amoEn := true, amoOp := 0b00011#5, memSize := 0b010#3, regWrite := true, resultSel := 0b01#2, memWrite := true
      aluOp := aluPassA } := by
  rw [decode_encode]
  change { decodeAmo 0b010#3 (0b00011#5 ++ order) with aluOp := aluPassA } = _
  simp only [decodeAmo, Isa.order_hi]
  rfl

theorem decode_amo (op : Isa.AmoOp) (order : BitVec 2) : decode (encode (.amo op order rd rs1 rs2)) fs rm =
    { amoEn := true, amoOp := Isa.amoTable.key op, memSize := 0b010#3, regWrite := true, resultSel := 0b01#2
      memRead := true, memWrite := true, aluOp := aluPassA } := by
  rw [decode_encode]
  change { decodeAmo 0b010#3 (Isa.amoTable.key op ++ order) with aluOp := aluPassA } = _
  simp only [decodeAmo, Isa.order_hi]
  cases op <;> rfl

/-- The upper bit of `funct3` tells the two forms of a CSR instruction apart. -/
theorem decodeSystem_csr (op : Isa.CsrOp) (b : BitVec 1) (funct7 : BitVec 7) :
    decodeSystem (b ++ Isa.csrTable.key op) funct7 rs1 rs2 =
      { regWrite := true, resultSel := 0b11#2, csrImmSel := b.getLsbD 0, immSel := if b.getLsbD 0 then 0b101#3 else 0,
        csrOp := Isa.csrTable.key op, csrWrite := csrWrites op rs1 } := by
  have hlow : (b ++ Isa.csrTable.key op).extractLsb 1 0 = Isa.csrTable.key op := BitVec.extractLsb'_append_eq_right
  have hbit : (b ++ Isa.csrTable.key op).getLsbD 2 = b.getLsbD 0 := BitVec.getLsbD_append
  rw [decodeSystem, if_neg (Isa.csr_funct3 op b), hlow, hbit]
  cases op <;> rfl

theorem decodeOpcode_system (funct3 : BitVec 3) (funct7 : BitVec 7) :
    decodeOpcode Isa.opSystem funct3 funct7 rs1 rs2 = decodeSystem funct3 funct7 rs1 rs2 := rfl

theorem decode_csr (op : Isa.CsrOp) (addr : BitVec 12) : decode (encode (.csr op rd rs1 addr)) fs rm =
    { regWrite := true, resultSel := 0b11#2, csrOp := Isa.csrTable.key op, csrWrite := csrWrites op rs1 } := by
  have hrow := (decodeOpcode_system ..).trans
    (decodeSystem_csr rs1 (addr.extractLsb 4 0) op 0#1 (addr.extractLsb 11 5))
  rw [decode_encode, Instr.fields, hrow]
  rfl

theorem decode_csri (op : Isa.CsrOp) (imm : BitVec 5) (addr : BitVec 12) :
    decode (encode (.csri op rd imm addr)) fs rm =
    { regWrite := true, resultSel := 0b11#2, csrImmSel := true, immSel := 0b101#3, csrOp := Isa.csrTable.key op,
      csrWrite := csrWrites op imm } := by
  have hrow := (decodeOpcode_system ..).trans
    (decodeSystem_csr imm (addr.extractLsb 4 0) op 1#1 (addr.extractLsb 11 5))
  rw [decode_encode, Instr.fields, hrow]
  rfl

theorem decode_fence (funct7 : BitVec 7) (funct3 : BitVec 3) :
    decode (encode (.fence funct7 rs2 rs1 funct3 rd)) fs rm = {} := decode_encode _ fs rm

theorem decode_ecall : decode (encode .ecall) fs rm = { exception := true, exceptionCause := 11#4 } :=
  decode_encode _ fs rm

theorem decode_ebreak : decode (encode .ebreak) fs rm = { exception := true, exceptionCause := 3#4 } :=
  decode_encode _ fs rm

theorem decode_mret : decode (encode .mret) fs rm = { mretExec := true } := decode_encode _ fs rm

end Rows

end VMate.IsaRow
