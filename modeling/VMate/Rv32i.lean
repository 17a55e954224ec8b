import VMate.AluMul
import VMate.DecodeFacts
import VMate.RiscvSb
import VMate.SeqExec

namespace VMate.Rv32i

open Decode Alu Pipe DecodeFacts RiscvSb

/-- An instruction in EX whose control signals, immediate and link address
come from `control_unit`, `imm_gen` and the fetch stage. -/
structure Decoded (fs : BitVec 2) (rm : BitVec 3) (r : IdEx) : Prop where
  ctrl : r.ctrl = (decode r.instruction fs rm).toExCtrl
  imm : r.immOut = immGen r.instruction (decode r.instruction fs rm).immSel
  link : r.pcPlus4 = r.pc + 4#32

theorem decoded_idExOf (imem : RiscvTop.Imem) (a : SeqExec.Arch) :
    Decoded a.csr.mstatusFs a.csr.frmReg (SeqExec.idExOf imem a) := ⟨rfl, rfl, rfl⟩

/-- The relation between `rs1` and `rs2` that a branch tests. -/
def branchRel (funct3 : BitVec 3) (rs1 rs2 : BitVec 32) : Prop :=
  if funct3 = 0b000#3 then rs1 = rs2
  else if funct3 = 0b001#3 then rs1 ≠ rs2
  else if funct3 = 0b100#3 then rs1.toInt < rs2.toInt
  else if funct3 = 0b101#3 then rs2.toInt ≤ rs1.toInt
  else if funct3 = 0b110#3 then rs1.toNat < rs2.toNat
  else if funct3 = 0b111#3 then rs2.toNat ≤ rs1.toNat
  else False

section Immediates

variable (i : BitVec 32)

theorem getLsbD_replicate_bit (b : BitVec 1) (w n : Nat) :
    (b.replicate w).getLsbD n = (decide (n < w) && b.getLsbD 0) := by
  rw [BitVec.getLsbD_replicate, Nat.mod_one, Nat.one_mul]

/-- The reference repeats the sign bit where `imm_gen` extends the field. -/
theorem immGen_i : immGen i 0b000#3 = immI i := by
  show BitVec.signExtend 32 _ = _
  apply BitVec.eq_of_getLsbD_eq
  intro n hn
  simp only [immI, BitVec.getLsbD_signExtend, BitVec.getLsbD_append, getLsbD_replicate_bit, BitVec.getLsbD_extractLsb,
    BitVec.msb_eq_getLsbD_last]
  grind

theorem immGen_s : immGen i 0b001#3 = immS i := by
  show BitVec.signExtend 32 _ = _
  apply BitVec.eq_of_getLsbD_eq
  intro n hn
  simp only [immS, BitVec.getLsbD_signExtend, BitVec.getLsbD_append, getLsbD_replicate_bit, BitVec.getLsbD_extractLsb,
    BitVec.msb_eq_getLsbD_last]
  grind

theorem immGen_b : immGen i 0b010#3 = immB i := by
  show BitVec.signExtend 32 _ = _
  apply BitVec.eq_of_getLsbD_eq
  intro n hn
  simp only [immB, BitVec.getLsbD_signExtend, BitVec.getLsbD_append, getLsbD_replicate_bit, BitVec.getLsbD_extractLsb,
    BitVec.msb_eq_getLsbD_last]
  grind

theorem immGen_j : immGen i 0b100#3 = immJ i := by
  show BitVec.signExtend 32 _ = _
  apply BitVec.eq_of_getLsbD_eq
  intro n hn
  simp only [immJ, BitVec.getLsbD_signExtend, BitVec.getLsbD_append, getLsbD_replicate_bit, BitVec.getLsbD_extractLsb,
    BitVec.msb_eq_getLsbD_last]
  grind

end Immediates

section Arithmetic

variable (a b : BitVec 32)

theorem alu_add : alu a b aluAdd = a + b := rfl

theorem alu_branch (funct3 : BitVec 3) :
    branchTaken funct3 (alu a b (branchAluOp funct3)) = true ↔ branchRel funct3 a b := by
  have hsub : zeroFlag (alu a b aluSub) = true ↔ a = b := by
    rw [zeroFlag, beq_iff_eq]
    exact sub_eq_zero
  have hslt : (alu a b aluSlt).getLsbD 0 = true ↔ a.toInt < b.toInt := by
    show (if a.slt b then 1#32 else 0#32).getLsbD 0 = true ↔ _
    rw [← BitVec.slt_iff_toInt_lt]
    cases a.slt b <;> simp
  have hsltu : (alu a b aluSltu).getLsbD 0 = true ↔ a.toNat < b.toNat := by
    show (if a.ult b then 1#32 else 0#32).getLsbD 0 = true ↔ _
    rw [← BitVec.ult_iff_toNat_lt]
    cases a.ult b <;> simp
  unfold branchTaken branchAluOp branchRel
  split_ifs
  · exact hsub
  · rw [Bool.not_eq_true', ← Bool.not_eq_true, hsub]
  · exact hslt
  · rw [Bool.not_eq_true', ← Bool.not_eq_true, hslt, not_lt]
  · exact hsltu
  · rw [Bool.not_eq_true', ← Bool.not_eq_true, hsltu, not_lt]
  · simp

theorem funct3_cases (x : BitVec 3) :
    x = 0b000#3 ∨ x = 0b001#3 ∨ x = 0b010#3 ∨ x = 0b011#3 ∨ x = 0b100#3 ∨ x = 0b101#3 ∨ x = 0b110#3 ∨ x = 0b111#3 := by
  revert x
  decide

theorem alu_opImm {funct3 : BitVec 3} {funct7 : BitVec 7}
    (h : ¬ ((funct3 = 0b001#3 ∧ funct7 ≠ 0b0000000#7) ∨
      (funct3 = 0b101#3 ∧ funct7 ≠ 0b0000000#7 ∧ funct7 ≠ 0b0100000#7))) :
    alu a b (arithAluOp false funct3 funct7) = expOpImm funct3 funct7 a b := by
  rcases funct3_cases funct3 with rfl | rfl | rfl | rfl | rfl | rfl | rfl | rfl
  case inr.inr.inr.inr.inr.inl =>
    have hf : funct7 = 0b0000000#7 ∨ funct7 = 0b0100000#7 := by
      by_contra hc
      exact h (.inr ⟨rfl, not_or.mp hc⟩)
    rcases hf with rfl | rfl <;> rfl
  all_goals rfl

theorem alu_mext (funct3 : BitVec 3) : alu a b (mulDivAluOp funct3) = expMext funct3 a b := by
  have hmul : (a.signExtend 64 * b.signExtend 64).extractLsb 31 0 = a * b :=
    AluMul.low_mul (AluMul.setWidth_signExtend a) (AluMul.setWidth_signExtend b)
  have hzext (z : BitVec 32) : (0#32 ++ z : BitVec 64) = z.setWidth 64 := by
    apply BitVec.eq_of_toNat_eq
    rw [BitNat.toNat_zero_append, BitVec.toNat_setWidth, Nat.mod_eq_of_lt (by omega)]
  rcases funct3_cases funct3 with rfl | rfl | rfl | rfl | rfl | rfl | rfl | rfl
  case inl => exact hmul.symm
  case inr.inr.inr.inl =>
    show (mulhuProd a b).extractLsb 63 32 = (a.setWidth 64 * b.setWidth 64).extractLsb 63 32
    rw [mulhuProd, hzext, hzext]
  all_goals rfl

theorem alu_op {funct3 : BitVec 3} {funct7 : BitVec 7}
    (h : funct7 = 0b0000001#7 ∨ funct7 = 0b0000000#7 ∨
      (funct7 = 0b0100000#7 ∧ (funct3 = 0b000#3 ∨ funct3 = 0b101#3))) :
    alu a b (if funct7 = 0b0000001#7 then mulDivAluOp funct3 else arithAluOp (funct7.getLsbD 5) funct3 funct7) =
      expOp funct3 funct7 a b := by
  rcases h with rfl | rfl | ⟨rfl, rfl | rfl⟩
  · exact alu_mext a b funct3
  · rcases funct3_cases funct3 with rfl | rfl | rfl | rfl | rfl | rfl | rfl | rfl <;> rfl
  · rfl
  · rfl

end Arithmetic

section Rows

variable {i : BitVec 32} {fs : BitVec 2} {rm : BitVec 3}

/-- The row of an integer opcode goes through unchanged but for the ALU
operation. -/
theorem decode_int (h : isFpOpcode (opcodeOf i) = false) :
    decode i fs rm = { row i with
      aluOp := aluDecoder (opcodeOf i) (i.extractLsb 14 12) (i.extractLsb 31 25) (row i).aluOpType } := by
  have htrap : fpTrap i fs rm = false := by simp [fpTrap, h]
  rw [decode_eq, htrap, h]
  simp

theorem decode_lui (h : opcodeOf i = opLui) :
    decode i fs rm = { regWrite := true, aluSrc := true, immSel := 0b011#3, aluOp := aluPassB } := by
  rw [decode_int (by rw [h]; rfl), row, h]
  rfl

theorem decode_auipc (h : opcodeOf i = opAuipc) :
    decode i fs rm = { regWrite := true, aluSrc := true, pcSrcAuipc := true, immSel := 0b011#3 } := by
  rw [decode_int (by rw [h]; rfl), row, h]
  rfl

theorem decode_jal (h : opcodeOf i = opJal) :
    decode i fs rm = { regWrite := true, resultSel := 0b10#2, immSel := 0b100#3, jump := true } := by
  rw [decode_int (by rw [h]; rfl), row, h]
  rfl

theorem decode_jalr (h : opcodeOf i = opJalr) :
    decode i fs rm = { regWrite := true, resultSel := 0b10#2, aluSrc := true, jump := true } := by
  rw [decode_int (by rw [h]; rfl), row, h]
  rfl

theorem decode_load (h : opcodeOf i = opLoad) :
    decode i fs rm = { regWrite := true, memRead := true, aluSrc := true, memSize := i.extractLsb 14 12,
                       resultSel := 0b01#2 } := by
  rw [decode_int (by rw [h]; rfl), row, h]
  rfl

theorem decode_store (h : opcodeOf i = opStore) :
    decode i fs rm = { memWrite := true, aluSrc := true, immSel := 0b001#3, memSize := i.extractLsb 14 12 } := by
  rw [decode_int (by rw [h]; rfl), row, h]
  rfl

/-- An integer row that does not trap is the one behind its legality check. -/
theorem accepted_ite {c d : Ctrl} {q : Prop} [Decidable q] (h : (if q then c else illegal d).exception = false) :
    q := by
  by_contra hq
  rw [if_neg hq] at h
  cases h

theorem decode_branch (h : opcodeOf i = opBranch) (hacc : (decode i fs rm).exception = false) :
    decode i fs rm = { immSel := 0b010#3, branch := true, aluOpType := 0b01#2,
                       aluOp := branchAluOp (i.extractLsb 14 12) } := by
  have hrow : row i = if i.extractLsb 14 12 = 0b010#3 ∨ i.extractLsb 14 12 = 0b011#3 then illegal {}
      else { immSel := 0b010#3, branch := true, aluOpType := 0b01#2 } := by
    rw [row, h]
    rfl
  rw [decode_int (by rw [h]; rfl), hrow, h] at hacc ⊢
  rw [← ite_not] at hacc ⊢
  rw [if_pos (accepted_ite hacc)]
  rfl

theorem decode_opImm (h : opcodeOf i = opIType) (hacc : (decode i fs rm).exception = false) :
    ¬ ((i.extractLsb 14 12 = 0b001#3 ∧ i.extractLsb 31 25 ≠ 0b0000000#7) ∨
      (i.extractLsb 14 12 = 0b101#3 ∧ i.extractLsb 31 25 ≠ 0b0000000#7 ∧ i.extractLsb 31 25 ≠ 0b0100000#7)) ∧
    decode i fs rm = { regWrite := true, aluSrc := true, aluOpType := 0b11#2,
                       aluOp := arithAluOp false (i.extractLsb 14 12) (i.extractLsb 31 25) } := by
  have hrow : row i = if (i.extractLsb 14 12 = 0b001#3 ∧ i.extractLsb 31 25 ≠ 0b0000000#7) ∨
      (i.extractLsb 14 12 = 0b101#3 ∧ i.extractLsb 31 25 ≠ 0b0000000#7 ∧ i.extractLsb 31 25 ≠ 0b0100000#7) then
        illegal {}
      else { regWrite := true, aluSrc := true, aluOpType := 0b11#2 } := by
    rw [row, h]
    rfl
  rw [decode_int (by rw [h]; rfl), hrow, h] at hacc ⊢
  rw [← ite_not] at hacc ⊢
  have hlegal := accepted_ite hacc
  refine ⟨hlegal, ?_⟩
  rw [if_pos hlegal]
  rfl

theorem decode_op (h : opcodeOf i = opRType) (hacc : (decode i fs rm).exception = false) :
    (i.extractLsb 31 25 = 0b0000001#7 ∨ i.extractLsb 31 25 = 0b0000000#7 ∨
      (i.extractLsb 31 25 = 0b0100000#7 ∧ (i.extractLsb 14 12 = 0b000#3 ∨ i.extractLsb 14 12 = 0b101#3))) ∧
    decode i fs rm = { regWrite := true, aluOpType := 0b10#2,
                       aluOp := if i.extractLsb 31 25 = 0b0000001#7 then mulDivAluOp (i.extractLsb 14 12)
                         else arithAluOp ((i.extractLsb 31 25).getLsbD 5) (i.extractLsb 14 12) (i.extractLsb 31 25) } := by
  have hrow : row i = if i.extractLsb 31 25 = 0b0000001#7 ∨ i.extractLsb 31 25 = 0b0000000#7 ∨
      (i.extractLsb 31 25 = 0b0100000#7 ∧ (i.extractLsb 14 12 = 0b000#3 ∨ i.extractLsb 14 12 = 0b101#3)) then
      { regWrite := true, aluOpType := 0b10#2 } else illegal {} := by
    rw [row, h]
    rfl
  rw [decode_int (by rw [h]; rfl), hrow, h] at hacc ⊢
  have hlegal := accepted_ite hacc
  refine ⟨hlegal, ?_⟩
  rw [if_pos hlegal]
  rfl

end Rows

section Datapath

variable {fs : BitVec 2} {rm : BitVec 3} {r : IdEx} (o : Operands)

/-- The target a jump or taken branch must reach. -/
def target (r : IdEx) (o : Operands) : BitVec 32 :=
  if opcodeOf r.instruction = opJalr then (o.rs1 + immI r.instruction) &&& ~~~1#32
  else if opcodeOf r.instruction = opJal then r.pc + immJ r.instruction
  else r.pc + immB r.instruction

/-- The instruction redirects the fetch: a jump, or a branch whose relation
holds. -/
def redirects (r : IdEx) (o : Operands) : Prop :=
  opcodeOf r.instruction = opJal ∨ opcodeOf r.instruction = opJalr ∨
    (opcodeOf r.instruction = opBranch ∧ branchRel (r.instruction.extractLsb 14 12) o.rs1 o.rs2)

/-- What the reference and the ISA say about one instruction: the register
write with its value, the redirect and its target. -/
structure MeetsReference (r : IdEx) (o : Operands) (w : MemWb) : Prop where
  regWrite : w.ctrl.regWrite = expRegWrite (opcodeOf r.instruction)
  value : w.ctrl.regWrite = true → wbDataOf w = expAluResult r.instruction r.pc o.rs1 o.rs2
  pcSel : pcSelOf r o = true ↔ redirects r o
  pcTarget : pcSelOf r o = true → pcTargetOf r o = target r o

variable (fcsrRm : BitVec 3) (dmemRdata : BitVec 64) (csrRdata : BitVec 32)

/-- The rows that write the ALU result and go on to the next instruction. -/
theorem meets_alu (hop : opcodeOf r.instruction ∈ [opLui, opAuipc, opIType, opRType])
    (hwrite : r.ctrl.regWrite = true ∧ r.ctrl.fpToInt = false ∧ r.ctrl.resultSel = 0b00#2)
    (hstay : r.ctrl.branch = false ∧ r.ctrl.jump = false)
    (hval : aluOf r o = expAluResult r.instruction r.pc o.rs1 o.rs2) :
    MeetsReference r o (memWbIn (exMemIn r o fcsrRm) dmemRdata csrRdata) := by
  obtain ⟨hwrite, hfp, hsel⟩ := hwrite
  have hpc : pcSelOf r o = false := by simp [pcSelOf, hstay.1, hstay.2]
  have hreg : expRegWrite (opcodeOf r.instruction) = true := by
    revert hop
    generalize opcodeOf r.instruction = op
    revert op
    decide
  have hne : ¬ redirects r o := by
    rintro (h | h | ⟨h, -⟩)
    all_goals
      rw [h] at hop
      revert hop
      decide
  constructor
  · exact hwrite.trans hreg.symm
  · intro _
    simp [wbDataOf, memWbIn, exMemIn, intResult, hfp, hsel, hval]
  · simp [hpc, hne]
  · simp [hpc]

theorem meets_lui (hr : Decoded fs rm r) (h : opcodeOf r.instruction = opLui) :
    MeetsReference r o (memWbIn (exMemIn r o fcsrRm) dmemRdata csrRdata) := by
  have hctrl := hr.ctrl
  have himm := hr.imm
  rw [decode_lui h] at hctrl himm
  have hexp : expAluResult r.instruction r.pc o.rs1 o.rs2 = immU r.instruction := by
    rw [expAluResult, h]
    rfl
  refine meets_alu o fcsrRm dmemRdata csrRdata (by simp [h]) (by simp [hctrl]) (by simp [hctrl]) ?_
  rw [hexp, aluOf, hctrl, himm]
  rfl

theorem meets_auipc (hr : Decoded fs rm r) (h : opcodeOf r.instruction = opAuipc) :
    MeetsReference r o (memWbIn (exMemIn r o fcsrRm) dmemRdata csrRdata) := by
  have hctrl := hr.ctrl
  have himm := hr.imm
  rw [decode_auipc h] at hctrl himm
  have hexp : expAluResult r.instruction r.pc o.rs1 o.rs2 = r.pc + immU r.instruction := by
    rw [expAluResult, h]
    rfl
  refine meets_alu o fcsrRm dmemRdata csrRdata (by simp [h]) (by simp [hctrl]) (by simp [hctrl]) ?_
  rw [hexp, aluOf, hctrl, himm]
  rfl

theorem meets_opImm (hr : Decoded fs rm r) (hacc : r.ctrl.exception = false)
    (h : opcodeOf r.instruction = opIType) :
    MeetsReference r o (memWbIn (exMemIn r o fcsrRm) dmemRdata csrRdata) := by
  have hctrl := hr.ctrl
  have himm := hr.imm
  rw [hctrl] at hacc
  obtain ⟨hlegal, hdec⟩ := decode_opImm h hacc
  rw [hdec] at hctrl himm
  have hexp : expAluResult r.instruction r.pc o.rs1 o.rs2 =
      expOpImm (r.instruction.extractLsb 14 12) (r.instruction.extractLsb 31 25) o.rs1 (immI r.instruction) := by
    rw [expAluResult, h]
    rfl
  refine meets_alu o fcsrRm dmemRdata csrRdata (by simp [h]) (by simp [hctrl]) (by simp [hctrl]) ?_
  rw [hexp, ← alu_opImm _ _ hlegal, ← immGen_i, aluOf, hctrl, himm]
  rfl

theorem meets_op (hr : Decoded fs rm r) (hacc : r.ctrl.exception = false)
    (h : opcodeOf r.instruction = opRType) :
    MeetsReference r o (memWbIn (exMemIn r o fcsrRm) dmemRdata csrRdata) := by
  have hctrl := hr.ctrl
  rw [hctrl] at hacc
  obtain ⟨hlegal, hdec⟩ := decode_op h hacc
  rw [hdec] at hctrl
  have hexp : expAluResult r.instruction r.pc o.rs1 o.rs2 =
      expOp (r.instruction.extractLsb 14 12) (r.instruction.extractLsb 31 25) o.rs1 o.rs2 := by
    rw [expAluResult, h]
    rfl
  refine meets_alu o fcsrRm dmemRdata csrRdata (by simp [h]) (by simp [hctrl]) (by simp [hctrl]) ?_
  rw [hexp, ← alu_op _ _ hlegal, aluOf, hctrl]
  rfl

/-- The two jumps write the link address and always redirect. -/
theorem meets_jump (hop : opcodeOf r.instruction = opJal ∨ opcodeOf r.instruction = opJalr)
    (hlink : r.pcPlus4 = r.pc + 4#32) (hjump : r.ctrl.jump = true)
    (hwrite : r.ctrl.regWrite = true ∧ r.ctrl.fpToInt = false ∧ r.ctrl.resultSel = 0b10#2)
    (htarget : pcTargetOf r o = target r o) :
    MeetsReference r o (memWbIn (exMemIn r o fcsrRm) dmemRdata csrRdata) := by
  obtain ⟨hwrite, hfp, hsel⟩ := hwrite
  have hpc : pcSelOf r o = true := by simp [pcSelOf, hjump]
  have hreg : expRegWrite (opcodeOf r.instruction) = true := by
    rcases hop with h | h <;> rw [h] <;> rfl
  have hexp : expAluResult r.instruction r.pc o.rs1 o.rs2 = r.pc + 4#32 := by
    rw [expAluResult]
    rcases hop with h | h <;> rw [h] <;> rfl
  constructor
  · exact hwrite.trans hreg.symm
  · intro _
    simp [wbDataOf, memWbIn, exMemIn, intResult, hfp, hsel, hlink, hexp]
  · rcases hop with h | h <;> simp [hpc, redirects, h]
  · intro _
    exact htarget

theorem meets_jal (hr : Decoded fs rm r) (h : opcodeOf r.instruction = opJal) :
    MeetsReference r o (memWbIn (exMemIn r o fcsrRm) dmemRdata csrRdata) := by
  have hctrl := hr.ctrl
  have himm := hr.imm
  rw [decode_jal h] at hctrl himm
  refine meets_jump o fcsrRm dmemRdata csrRdata (.inl h) hr.link (by simp [hctrl]) (by simp [hctrl]) ?_
  rw [pcTargetOf, target, himm, ← immGen_j, h]
  rfl

theorem meets_jalr (hr : Decoded fs rm r) (h : opcodeOf r.instruction = opJalr) :
    MeetsReference r o (memWbIn (exMemIn r o fcsrRm) dmemRdata csrRdata) := by
  have hctrl := hr.ctrl
  have himm := hr.imm
  rw [decode_jalr h] at hctrl himm
  refine meets_jump o fcsrRm dmemRdata csrRdata (.inr h) hr.link (by simp [hctrl]) (by simp [hctrl]) ?_
  rw [pcTargetOf, target, aluOf, hctrl, himm, ← immGen_i, h]
  rfl

theorem meets_branch (hr : Decoded fs rm r) (hacc : r.ctrl.exception = false)
    (h : opcodeOf r.instruction = opBranch) :
    MeetsReference r o (memWbIn (exMemIn r o fcsrRm) dmemRdata csrRdata) := by
  have hctrl := hr.ctrl
  have himm := hr.imm
  rw [hctrl] at hacc
  rw [decode_branch h hacc] at hctrl himm
  have hwrite : (memWbIn (exMemIn r o fcsrRm) dmemRdata csrRdata).ctrl.regWrite = false := by
    show r.ctrl.regWrite = false
    rw [hctrl]
  have halu : aluOf r o = alu o.rs1 o.rs2 (branchAluOp (r.instruction.extractLsb 14 12)) := by
    rw [aluOf, hctrl]
    rfl
  have hsel : pcSelOf r o = true ↔ branchRel (r.instruction.extractLsb 14 12) o.rs1 o.rs2 := by
    rw [← alu_branch, ← halu, pcSelOf, hctrl]
    simp
  constructor
  · rw [hwrite, h]
    rfl
  · simp [hwrite]
  · rw [hsel, redirects, h]
    simp [opBranch, opJal, opJalr]
  · intro _
    rw [pcTargetOf, target, himm, ← immGen_b, h]
    rfl

theorem aluOf_load (hr : Decoded fs rm r) (h : opcodeOf r.instruction = opLoad) :
    aluOf r o = o.rs1 + immI r.instruction := by
  have hctrl := hr.ctrl
  have himm := hr.imm
  rw [decode_load h] at hctrl himm
  rw [← immGen_i, aluOf, hctrl, himm]
  exact alu_add _ _

theorem aluOf_store (hr : Decoded fs rm r) (h : opcodeOf r.instruction = opStore) :
    aluOf r o = o.rs1 + immS r.instruction := by
  have hctrl := hr.ctrl
  have himm := hr.imm
  rw [decode_store h] at hctrl himm
  have hsub : r.immOut = immS r.instruction := himm.trans (immGen_s _)
  rw [aluOf, hctrl, hsub]
  exact alu_add _ _

/-- One accepted integer instruction through decoder, immediate generator,
operand multiplexers, ALU and branch evaluator. -/
theorem datapath_meets_reference (hr : Decoded fs rm r) (hacc : r.ctrl.exception = false) :
    (opcodeOf r.instruction ∈ [opLui, opAuipc, opJal, opJalr, opBranch, opIType, opRType] →
      MeetsReference r o (memWbIn (exMemIn r o fcsrRm) dmemRdata csrRdata)) ∧
    (opcodeOf r.instruction = opLoad →
      aluOf r o = o.rs1 + (r.instruction.extractLsb 31 20).signExtend 32) ∧
    (opcodeOf r.instruction = opStore →
      aluOf r o = o.rs1 + (r.instruction.extractLsb 31 25 ++ r.instruction.extractLsb 11 7).signExtend 32) := by
  refine ⟨?_, ?_, ?_⟩
  · intro hop
    simp only [List.mem_cons, List.not_mem_nil, or_false] at hop
    rcases hop with h | h | h | h | h | h | h
    · exact meets_lui o fcsrRm dmemRdata csrRdata hr h
    · exact meets_auipc o fcsrRm dmemRdata csrRdata hr h
    · exact meets_jal o fcsrRm dmemRdata csrRdata hr h
    · exact meets_jalr o fcsrRm dmemRdata csrRdata hr h
    · exact meets_branch o fcsrRm dmemRdata csrRdata hr hacc h
    · exact meets_opImm o fcsrRm dmemRdata csrRdata hr hacc h
    · exact meets_op o fcsrRm dmemRdata csrRdata hr hacc h
  · intro h
    exact (aluOf_load o hr h).trans (congrArg (o.rs1 + ·) (immGen_i r.instruction).symm)
  · intro h
    exact (aluOf_store o hr h).trans (congrArg (o.rs1 + ·) (immGen_s r.instruction).symm)

/-- BLT at address 16 with operands -1 and 0, which compares as signed. -/
theorem datapath_meets_reference_blt :
    let r : IdEx := { pc := 16#32, pcPlus4 := 20#32, instruction := 0x0020C463#32, immOut := 8#32
                      ctrl := { branch := true, aluOp := aluSlt } }
    let o : Operands := ⟨0xFFFFFFFF#32, 0#32, 0, 0, 0⟩
    redirects r o ∧ pcSelOf r o = true ∧ pcTargetOf r o = 24#32 := by
  intro r o
  have hr : Decoded 0b00#2 0b000#3 r := ⟨by decide, by decide, by decide⟩
  have hmeets := (datapath_meets_reference o 0 0 0 hr rfl).1 (by decide)
  have hsel : pcSelOf r o = true := by decide
  exact ⟨hmeets.pcSel.mp hsel, hsel, (hmeets.pcTarget hsel).trans (by decide)⟩

end Datapath

end VMate.Rv32i
