import VMate.Pipe
import VMate.NanBox

namespace VMate.DecodeFacts

open Decode Pipe NanBox

/-- The row of the decoder table an instruction selects, before the FP checks
and the ALU decoder. -/
def row (instruction : BitVec 32) : Ctrl :=
  decodeOpcode (opcodeOf instruction) (instruction.extractLsb 14 12) (instruction.extractLsb 31 25)
    (rs1Of instruction) (rs2Of instruction)

def fpTrap (instruction : BitVec 32) (mstatusFs : BitVec 2) (fcsrRm : BitVec 3) : Bool :=
  let op := opcodeOf instruction
  let funct3 := instruction.extractLsb 14 12
  isFpOpcode op && (mstatusFs == 0b00#2 || (op != opLoadFp && op != opStoreFp &&
    (funct3 == 0b101#3 || funct3 == 0b110#3 || (funct3 == 0b111#3 && decide (0b101#3 ≤ fcsrRm)))))

theorem decode_eq (i : BitVec 32) (fs : BitVec 2) (rm : BitVec 3) :
    decode i fs rm =
      { row i with
        exception := (row i).exception || fpTrap i fs rm
        exceptionCause := if fpTrap i fs rm then 2#4 else (row i).exceptionCause
        resultSel := if isFpOpcode (opcodeOf i) then 0b01#2 else (row i).resultSel
        aluOp := aluDecoder (opcodeOf i) (i.extractLsb 14 12) (i.extractLsb 31 25) (row i).aluOpType } := by
  have htrap : (if fs = 0b00#2 then true
      else if opcodeOf i ≠ opLoadFp ∧ opcodeOf i ≠ opStoreFp ∧
          (i.extractLsb 14 12 = 0b101#3 ∨ i.extractLsb 14 12 = 0b110#3) then true
      else if opcodeOf i ≠ opLoadFp ∧ opcodeOf i ≠ opStoreFp ∧ i.extractLsb 14 12 = 0b111#3 ∧ 0b101#3 ≤ rm then true
      else false) = (fs == 0b00#2 || (opcodeOf i != opLoadFp && opcodeOf i != opStoreFp &&
        (i.extractLsb 14 12 == 0b101#3 || i.extractLsb 14 12 == 0b110#3 ||
          (i.extractLsb 14 12 == 0b111#3 && decide (0b101#3 ≤ rm))))) := by
    grind
  unfold decode controlUnit fpCheck
  rw [fpTrap, row]
  generalize decodeOpcode (opcodeOf i) (i.extractLsb 14 12) (i.extractLsb 31 25) (rs1Of i) (rs2Of i) = c
  cases hfp : isFpOpcode (opcodeOf i) with
  | false => simp
  | true =>
      simp only [if_true, Bool.true_and, htrap]
      generalize (fs == 0b00#2 || _) = t
      cases t <;> simp [illegal]

/-- The opcodes that `riscv_top` dispatches only into an empty buffer. -/
def serialOp (op : BitVec 7) : Bool :=
  op == 0b0000011#7 || op == 0b0100011#7 || op == 0b0000111#7 || op == 0b0100111#7 || op == 0b0101111#7 ||
    op == 0b1110011#7 || op == 0b0001111#7

def serialOpcode (instruction : BitVec 32) : Bool := serialOp (opcodeOf instruction)

/-- A store, an FP store, an AMO, LR or SC, or a CSR write. -/
def writesState (c : MemCtrl) : Bool := c.memWrite || c.fpMemWrite || c.amoEn || c.csrWrite

section Rows

/-- A row that writes an FP register selects an operation with an FP result. -/
def FpResult (c : Ctrl) : Prop := c.fpWe = true → resultIsFp c.fpAluOp c.intToFp c.fpToInt = true

/-- What a row that traps leaves undone. -/
def TrapQuiet (c : Ctrl) : Prop :=
  c.exception = true → c.memWrite = false ∧ c.fpMemWrite = false ∧ c.memRead = false ∧ c.amoEn = false ∧
    c.csrWrite = false ∧ c.csrOp = 0#2 ∧ c.mretExec = false ∧ c.branch = false ∧ c.jump = false ∧ c.fpWe = false ∧
    c.fpFflagsWe = false

/-- An FP opcode asks nothing of the CSR file, and of the memory at most an
FP load or store. -/
def FpQuiet (opcode : BitVec 7) (c : Ctrl) : Prop :=
  isFpOpcode opcode = true → c.amoEn = false ∧ c.csrWrite = false ∧ c.mretExec = false ∧ c.memWrite = c.fpMemWrite

/-- What changes memory or a CSR in MEM is serialised and redirects nothing. -/
def WritesSerial (opcode : BitVec 7) (c : Ctrl) : Prop :=
  writesState c.toMemCtrl = true → serialOp opcode = true ∧ c.branch = false ∧ c.jump = false ∧ c.mretExec = false

/-- What the result multiplexers can rely on. No row writes to both register
files, an integer result read from memory is a load's or an AMO's, and the
format of an FP result is the instruction's field. -/
structure ResultRow (opcode funct7 : BitVec 7) (c : Ctrl) : Prop where
  oneFile : c.regWrite = true → c.fpWe = false
  fpToInt : c.fpToInt = true → c.fpWe = false ∧ isFpOpcode opcode = true
  loads : c.regWrite = true → c.fpToInt = false →
    isFpOpcode opcode = false ∧ (c.resultSel = 0b01#2 → c.memRead = true ∨ c.amoEn = true)
  fmt : c.fpWe = true → c.fpMemRead = false → c.fmt = funct7.extractLsb 1 0

/-- A row that raises FP flags does not reach the CSR file in another way. -/
def FlagsQuiet (c : Ctrl) : Prop := c.fpFflagsWe = true → c.csrWrite = false ∧ c.mretExec = false

/-- A trap return has no destination register. -/
def MretQuiet (c : Ctrl) : Prop := c.mretExec = true → c.regWrite = false ∧ c.fpWe = false

/-- A property of every row is proved branch by branch. The decision
procedure of the branch is taken from the goal, not searched for. -/
theorem ite_row {P : Ctrl → Prop} {q : Prop} {d : Decidable q} {a b : Ctrl} (ha : q → P a) (hb : ¬ q → P b) :
    P (@ite Ctrl q d a b) := iteInduction ha hb

variable (opcode : BitVec 7) (funct3 : BitVec 3) (funct7 : BitVec 7) (rs1 rs2 : BitVec 5)

theorem decodeOpcode_fpResult : FpResult (decodeOpcode opcode funct3 funct7 rs1 rs2) := by
  unfold decodeOpcode decodeAmo decodeSystem decodeLoadFp decodeStoreFp decodeFma decodeFp illegal
  repeat' refine ite_row (fun _ => ?_) (fun _ => ?_)
  all_goals
    intro hwe
    first
    | rfl
    | cases hwe

theorem decodeOpcode_trapQuiet : TrapQuiet (decodeOpcode opcode funct3 funct7 rs1 rs2) := by
  unfold decodeOpcode decodeAmo decodeSystem decodeLoadFp decodeStoreFp decodeFma decodeFp illegal
  repeat' refine ite_row (fun _ => ?_) (fun _ => ?_)
  all_goals
    intro h
    first
    | cases h; done
    | exact ⟨rfl, rfl, rfl, rfl, rfl, rfl, rfl, rfl, rfl, rfl, rfl⟩

theorem decodeOpcode_fpQuiet : FpQuiet opcode (decodeOpcode opcode funct3 funct7 rs1 rs2) := by
  unfold decodeOpcode decodeAmo decodeSystem decodeLoadFp decodeStoreFp decodeFma decodeFp illegal
  repeat' refine ite_row (fun _ => ?_) (fun _ => ?_)
  all_goals
    intro h
    first
    | exact ⟨rfl, rfl, rfl, rfl⟩
    | subst_vars; exact absurd h (by decide)

theorem decodeOpcode_writesSerial : WritesSerial opcode (decodeOpcode opcode funct3 funct7 rs1 rs2) := by
  unfold decodeOpcode decodeAmo decodeSystem decodeLoadFp decodeStoreFp decodeFma decodeFp illegal
  repeat' refine ite_row (fun _ => ?_) (fun _ => ?_)
  all_goals
    intro h
    first
    | cases h; done
    | subst_vars; exact ⟨rfl, rfl, rfl, rfl⟩

theorem decodeOpcode_resultRow : ResultRow opcode funct7 (decodeOpcode opcode funct3 funct7 rs1 rs2) := by
  unfold decodeOpcode decodeAmo decodeSystem decodeLoadFp decodeStoreFp decodeFma decodeFp illegal
  repeat' refine ite_row (fun _ => ?_) (fun _ => ?_)
  all_goals
    subst_vars
    refine ⟨fun h => ?_, fun h => ?_, fun h hi => ?_, fun h hm => ?_⟩
    · first
      | rfl
      | cases h
    · first
      | cases h; done
      | exact ⟨rfl, rfl⟩
    · first
      | cases h; done
      | cases hi; done
      | exact ⟨rfl, fun _ => .inl rfl⟩
      | exact ⟨rfl, fun _ => .inr rfl⟩
      | exact ⟨rfl, fun hs => by simp at hs⟩
    · first
      | rfl
      | cases h; done
      | cases hm

theorem decodeOpcode_flagsQuiet : FlagsQuiet (decodeOpcode opcode funct3 funct7 rs1 rs2) := by
  unfold decodeOpcode decodeAmo decodeSystem decodeLoadFp decodeStoreFp decodeFma decodeFp illegal
  repeat' refine ite_row (fun _ => ?_) (fun _ => ?_)
  all_goals
    intro h
    first
    | cases h; done
    | exact ⟨rfl, rfl⟩

theorem decodeOpcode_mretQuiet : MretQuiet (decodeOpcode opcode funct3 funct7 rs1 rs2) := by
  unfold decodeOpcode decodeAmo decodeSystem decodeLoadFp decodeStoreFp decodeFma decodeFp illegal
  repeat' refine ite_row (fun _ => ?_) (fun _ => ?_)
  all_goals
    intro h
    first
    | cases h; done
    | exact ⟨rfl, rfl⟩

end Rows

theorem decode_writesState {i : BitVec 32} {fs : BitVec 2} {rm : BitVec 3}
    (h : writesState (decode i fs rm).toMemCtrl = true) :
    serialOpcode i = true ∧ (decode i fs rm).branch = false ∧ (decode i fs rm).jump = false ∧
      (decode i fs rm).mretExec = false := by
  rw [decode_eq] at h ⊢
  exact decodeOpcode_writesSerial _ _ _ _ _ h

theorem decode_oneFile {i : BitVec 32} {fs : BitVec 2} {rm : BitVec 3} (h : (decode i fs rm).regWrite = true) :
    (decode i fs rm).fpWe = false := by
  rw [decode_eq] at h ⊢
  exact (decodeOpcode_resultRow _ _ _ _ _).oneFile h

theorem decode_fpToInt {i : BitVec 32} {fs : BitVec 2} {rm : BitVec 3} (h : (decode i fs rm).fpToInt = true) :
    (decode i fs rm).fpWe = false ∧ (decode i fs rm).resultSel = 0b01#2 := by
  rw [decode_eq] at h ⊢
  obtain ⟨hwe, hop⟩ := (decodeOpcode_resultRow _ _ _ _ _).fpToInt h
  exact ⟨hwe, if_pos hop⟩

theorem decode_loads {i : BitVec 32} {fs : BitVec 2} {rm : BitVec 3} (hwe : (decode i fs rm).regWrite = true)
    (hint : (decode i fs rm).fpToInt = false) (hsel : (decode i fs rm).resultSel = 0b01#2) :
    (decode i fs rm).memRead = true ∨ (decode i fs rm).amoEn = true := by
  rw [decode_eq] at hwe hint hsel ⊢
  obtain ⟨hop, hload⟩ := (decodeOpcode_resultRow _ _ _ _ _).loads hwe hint
  rw [hop, if_neg Bool.false_ne_true] at hsel
  exact hload hsel

theorem decode_fmt {i : BitVec 32} {fs : BitVec 2} {rm : BitVec 3} (hwe : (decode i fs rm).fpWe = true)
    (hread : (decode i fs rm).fpMemRead = false) : (decode i fs rm).fmt = i.extractLsb 26 25 := by
  rw [decode_eq] at hwe hread ⊢
  refine ((decodeOpcode_resultRow _ _ _ _ _).fmt hwe hread).trans ?_
  apply BitVec.eq_of_getLsbD_eq
  intro k hk
  rw [BitVec.getLsbD_extractLsb, BitVec.getLsbD_extractLsb, BitVec.getLsbD_extractLsb]
  rcases (by omega : k = 0 ∨ k = 1) with rfl | rfl <;> simp

theorem decode_flagsQuiet {i : BitVec 32} {fs : BitVec 2} {rm : BitVec 3} (h : (decode i fs rm).fpFflagsWe = true) :
    (decode i fs rm).csrWrite = false ∧ (decode i fs rm).mretExec = false := by
  rw [decode_eq] at h ⊢
  exact decodeOpcode_flagsQuiet _ _ _ _ _ h

theorem decode_mretQuiet {i : BitVec 32} {fs : BitVec 2} {rm : BitVec 3} (h : (decode i fs rm).mretExec = true) :
    (decode i fs rm).regWrite = false ∧ (decode i fs rm).fpWe = false := by
  rw [decode_eq] at h ⊢
  exact decodeOpcode_mretQuiet _ _ _ _ _ h

theorem decode_fpResult {i : BitVec 32} {fs : BitVec 2} {rm : BitVec 3} (h : (decode i fs rm).fpWe = true) :
    resultIsFp (decode i fs rm).fpAluOp (decode i fs rm).intToFp (decode i fs rm).fpToInt = true := by
  rw [decode_eq] at h ⊢
  exact decodeOpcode_fpResult _ _ _ _ _ h

/-- An instruction that traps asks nothing of the CSR file and of the memory,
except that an FP store still asks for its write. -/
theorem decode_trap {i : BitVec 32} {fs : BitVec 2} {rm : BitVec 3} (h : (decode i fs rm).exception = true) :
    (decode i fs rm).amoEn = false ∧ (decode i fs rm).csrWrite = false ∧ (decode i fs rm).mretExec = false ∧
      (decode i fs rm).memWrite = (decode i fs rm).fpMemWrite := by
  rw [decode_eq] at h ⊢
  rcases Bool.or_eq_true _ _ ▸ h with hrow | hfp
  · obtain ⟨hw, hfpw, -, hamo, hcsr, -, hmret, -⟩ := decodeOpcode_trapQuiet _ _ _ _ _ hrow
    exact ⟨hamo, hcsr, hmret, hw.trans hfpw.symm⟩
  · rw [fpTrap, Bool.and_eq_true] at hfp
    exact decodeOpcode_fpQuiet _ _ _ _ _ hfp.1

theorem decode_fmt_of_isSinglePrecision {i : BitVec 32} {fs : BitVec 2} {rm : BitVec 3}
    (h : isSinglePrecision i (decode i fs rm).fmt = true) : (decode i fs rm).fmt = 0b00#2 := by
  unfold isSinglePrecision at h
  split_ifs at h with hcvt
  · have hrow : row i = decodeFp (i.extractLsb 14 12) 0b0100000#7 := by
      rw [row, hcvt.1, hcvt.2]
      rfl
    rw [decode_eq, hrow]
    rfl
  · exact beq_iff_eq.mp h

/-- The boxing on the way to write-back never changes a value that the FP
unit computed, so forwarding the unboxed wire is safe. -/
theorem nanBoxed_fpAluOf {r : IdEx} {o : Operands} {fs : BitVec 2} {rm fcsrRm : BitVec 3}
    (hctrl : r.ctrl = (decode r.instruction fs rm).toExCtrl) (hwe : r.ctrl.fpWe = true) :
    nanBoxed (isSinglePrecision r.instruction r.ctrl.fmt) (fpAluOf r o fcsrRm).1 = (fpAluOf r o fcsrRm).1 := by
  cases hs : isSinglePrecision r.instruction r.ctrl.fmt with
  | false => rfl
  | true =>
      rw [hctrl] at hs hwe
      refine or_mask_of_isBoxed (isBoxed_fpAlu ?_ ?_)
      · rw [hctrl]
        exact decode_fmt_of_isSinglePrecision hs
      · rw [hctrl]
        exact decode_fpResult hwe

end VMate.DecodeFacts
