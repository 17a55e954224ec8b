import VMate.DecodeIllegal
import VMate.IsaRow

namespace VMate.IsaTrap

open Decode Pipe DecodeFacts IsaRow
open Rv32i (decode_int)
open DecodeIllegal (reservedFunct3)
open Isa (Instr Fields encode decodeWord ofWord_word)

/-- The AMO codes that `control_unit` lets through: the doubleword forms, LR
with a second register and the functions without a name. -/
def openAmo (f : Fields) : Bool :=
  f.funct3 == 0b011#3 || (f.funct3 == 0b010#3 && f.amo.isNone)

/-- ECALL, EBREAK and MRET with registers, which `control_unit` does not look at. -/
def openSystem (f : Fields) : Bool :=
  f.funct3 == 0b000#3 && (f.rs1 != 0#5 || f.rd != 0#5) &&
    ((f.funct7 == 0b0000000#7 && (f.rs2 == 0b00000#5 || f.rs2 == 0b00001#5)) ||
      (f.funct7 == 0b0011000#7 && f.rs2 == 0b00010#5))

/-- The words outside RV32IMA that may do anything but trap: the FP opcodes,
the opcode of the pipeline bubble and the reserved codes that nothing checks. -/
def openFields (f : Fields) : Bool :=
  isFpOpcode f.opcode || f.opcode == 0b0000000#7 || reservedFunct3 f.opcode f.funct3 ||
    (f.opcode == opAmo && openAmo f) || (f.opcode == opSystem && openSystem f)

def openWord (w : BitVec 32) : Bool := openFields (Fields.ofWord w)

/-- The row traps with this cause and asks nothing of the data memory. -/
structure Traps (cause : BitVec 4) (c : Ctrl) : Prop where
  exception : c.exception = true
  exceptionCause : c.exceptionCause = cause
  memWrite : c.memWrite = false
  fpMemWrite : c.fpMemWrite = false
  amoEn : c.amoEn = false

section Rows

variable {f : Fields}

def fieldsRow (f : Fields) : Ctrl := decodeOpcode f.opcode f.funct3 f.funct7 f.rs1 f.rs2

theorem traps_illegal : Traps 2#4 (illegal {}) := ⟨rfl, rfl, rfl, rfl, rfl⟩

theorem branch_none {funct3 : BitVec 3} (h : Isa.branchTable.find funct3 = none) :
    funct3 = 0b010#3 ∨ funct3 = 0b011#3 := by
  revert funct3
  decide

theorem load_none {funct3 : BitVec 3} (h : Isa.loadTable.find funct3 = none) : reservedFunct3 opLoad funct3 = true := by
  revert funct3
  decide

theorem store_none {funct3 : BitVec 3} (h : Isa.storeTable.find funct3 = none) :
    reservedFunct3 opStore funct3 = true := by
  revert funct3
  decide

theorem csr_none {funct3 : BitVec 3} (h : Isa.csrTable.find (funct3.extractLsb 1 0) = none) :
    funct3 = 0b000#3 ∨ funct3 = 0b100#3 := by
  revert funct3
  decide

theorem imm_none (h : f.imm = none) : (f.funct3 = 0b001#3 ∧ f.funct7 ≠ 0b0000000#7) ∨
    (f.funct3 = 0b101#3 ∧ f.funct7 ≠ 0b0000000#7 ∧ f.funct7 ≠ 0b0100000#7) := by
  have himm : ∀ k : BitVec 3, Isa.immTable.find k = none → k = 0b001#3 ∨ k = 0b101#3 := by decide
  rw [Fields.imm] at h
  cases hi : Isa.immTable.find f.funct3 with
  | some op =>
      rw [hi] at h
      cases h
  | none =>
      rw [hi] at h
      have hshift := Isa.shiftTable.find_eq_none.mp (Option.map_eq_none_iff.mp h)
      have hslli := hshift .slli
      have hsrli := hshift .srli
      have hsrai := hshift .srai
      rcases himm _ hi with hk | hk
      · rw [hk] at hslli ⊢
        exact .inl ⟨rfl, fun h7 => hslli (by rw [h7]; rfl)⟩
      · rw [hk] at hsrli hsrai ⊢
        exact .inr ⟨rfl, fun h7 => hsrli (by rw [h7]; rfl), fun h7 => hsrai (by rw [h7]; rfl)⟩

theorem reg_none (h : Isa.regTable.find (f.funct7, f.funct3) = none) :
    ¬ (f.funct7 = 0b0000001#7 ∨ f.funct7 = 0b0000000#7 ∨
      (f.funct7 = 0b0100000#7 ∧ (f.funct3 = 0b000#3 ∨ f.funct3 = 0b101#3))) := by
  have hmul : ∀ k : BitVec 3, Isa.regTable.find (0b0000001#7, k) ≠ none := by decide
  have harith : ∀ k : BitVec 3, Isa.regTable.find (0b0000000#7, k) ≠ none := by decide
  rintro (h7 | h7 | ⟨h7, h3 | h3⟩)
  · rw [h7] at h
    exact hmul _ h
  · rw [h7] at h
    exact harith _ h
  · rw [h7, h3] at h
    revert h
    decide
  · rw [h7, h3] at h
    revert h
    decide

theorem amo_none (h : f.amo = none) (ho : openAmo f = false) : ¬ (f.funct3 = 0b010#3 ∨ f.funct3 = 0b011#3) := by
  rintro (h3 | h3)
  · rw [openAmo, h3, h] at ho
    cases ho
  · rw [openAmo, h3] at ho
    cases ho

theorem jalr_zero {funct3 : BitVec 3} (h : reservedFunct3 opJalr funct3 = false) : funct3 = 0b000#3 := by
  revert funct3
  decide

theorem plain_of_openSystem (ho : openSystem f = false) (h3 : f.funct3 = 0b000#3)
    (hnamed : (f.funct7 = 0b0000000#7 ∧ (f.rs2 = 0b00000#5 ∨ f.rs2 = 0b00001#5)) ∨
      (f.funct7 = 0b0011000#7 ∧ f.rs2 = 0b00010#5)) : f.rs1 = 0b00000#5 ∧ f.rd = 0b00000#5 := by
  by_contra hne
  have hopen : openSystem f = true := by
    simp only [openSystem, Bool.and_eq_true, Bool.or_eq_true, beq_iff_eq, bne_iff_ne]
    exact ⟨⟨h3, not_and_or.mp hne⟩, hnamed⟩
  rw [hopen] at ho
  cases ho

theorem system_none (h : f.system = none) (hop : f.opcode = Isa.opSystem) (ho : openSystem f = false) :
    Traps 2#4 (decodeSystem f.funct3 f.funct7 f.rs1 f.rs2) := by
  by_cases h3 : f.funct3 = 0b000#3
  · rw [decodeSystem, if_pos h3]
    have hplain := plain_of_openSystem ho h3
    obtain ⟨funct7, rs2, rs1, funct3, rd, opcode⟩ := f
    refine ite_row (fun hn => ?_) (fun _ => ite_row (fun hn => ?_)
      (fun _ => ite_row (fun hn => ?_) fun _ => traps_illegal))
    · obtain ⟨rfl, rfl⟩ := hplain (.inl ⟨hn.1, .inl hn.2⟩)
      obtain ⟨rfl, rfl⟩ := hn
      cases h3
      cases hop
      cases h
    · obtain ⟨rfl, rfl⟩ := hplain (.inl ⟨hn.1, .inr hn.2⟩)
      obtain ⟨rfl, rfl⟩ := hn
      cases h3
      cases hop
      cases h
    · obtain ⟨rfl, rfl⟩ := hplain (.inr hn)
      obtain ⟨rfl, rfl⟩ := hn
      cases h3
      cases hop
      cases h
  · rw [Isa.system_csr h3] at h
    rcases csr_none (Option.map_eq_none_iff.mp h) with h0 | h4
    · exact absurd h0 h3
    · rw [h4]
      exact ⟨rfl, rfl, rfl, rfl, rfl⟩

/-- What names no instruction and is not left open traps. -/
theorem traps_of_none (hi : f.instr = none) (ho : openFields f = false) : Traps 2#4 (fieldsRow f) := by
  obtain ⟨funct7, rs2, rs1, funct3, rd, opcode⟩ := f
  simp only [openFields, Bool.or_eq_false_iff] at ho
  obtain ⟨⟨⟨⟨hfp, hzero⟩, hres⟩, hamo⟩, hsystem⟩ := ho
  rw [fieldsRow]
  unfold decodeOpcode
  refine ite_row (fun h => absurd h (beq_eq_false_iff_ne.mp hzero)) (fun _ => ?_)
  refine ite_row (fun h => ?_) (fun hreg => ?_)
  · subst h
    exact ite_row (fun h => absurd h (reg_none (Option.map_eq_none_iff.mp hi))) (fun _ => traps_illegal)
  refine ite_row (fun h => ?_) (fun himm => ?_)
  · subst h
    exact ite_row (fun _ => traps_illegal) (fun h => absurd (imm_none hi) h)
  refine ite_row (fun h => ?_) (fun hload => ?_)
  · subst h
    exact absurd (load_none (Option.map_eq_none_iff.mp hi)) (Bool.eq_false_iff.mp hres)
  refine ite_row (fun h => ?_) (fun hstore => ?_)
  · subst h
    exact absurd (store_none (Option.map_eq_none_iff.mp hi)) (Bool.eq_false_iff.mp hres)
  refine ite_row (fun h => ?_) (fun hbranch => ?_)
  · subst h
    exact ite_row (fun _ => traps_illegal) (fun h => absurd (branch_none (Option.map_eq_none_iff.mp hi)) h)
  refine ite_row (fun h => ?_) (fun hjal => ?_)
  · subst h
    cases hi
  refine ite_row (fun h => ?_) (fun hjalr => ?_)
  · subst h
    cases jalr_zero hres
    cases hi
  refine ite_row (fun h => ?_) (fun hlui => ?_)
  · subst h
    cases hi
  refine ite_row (fun h => ?_) (fun hauipc => ?_)
  · subst h
    cases hi
  refine ite_row (fun h => ?_) (fun _ => ?_)
  · subst h
    exact ite_row (fun h => absurd h (amo_none hi hamo)) (fun _ => traps_illegal)
  refine ite_row (fun h => ?_) (fun hfence => ?_)
  · subst h
    cases hi
  refine ite_row (fun h => ?_) (fun _ => ?_)
  · subst h
    exact system_none hi rfl hsystem
  refine ite_row (fun h => absurd (congrArg isFpOpcode h) (by rw [hfp]; decide)) (fun _ => ?_)
  refine ite_row (fun h => absurd (congrArg isFpOpcode h) (by rw [hfp]; decide)) (fun _ => ?_)
  refine ite_row (fun h => absurd (congrArg isFpOpcode h) (by rw [hfp]; decide)) (fun _ => ?_)
  refine ite_row (fun h => absurd (congrArg isFpOpcode h) (by rw [hfp]; decide)) (fun _ => ?_)
  refine ite_row (fun h => absurd (congrArg isFpOpcode h) (by rw [hfp]; decide)) (fun _ => ?_)
  refine ite_row (fun h => absurd (congrArg isFpOpcode h) (by rw [hfp]; decide)) (fun _ => ?_)
  refine ite_row (fun h => absurd (congrArg isFpOpcode h) (by rw [hfp]; decide)) (fun _ => ?_)
  exact traps_illegal

/-- The illegal instruction exception. -/
def Illegal (c : Ctrl) : Prop := c.exception = true ∧ c.exceptionCause = 2#4

theorem not_illegal {c : Ctrl} (h : c.exception = false) : ¬ Illegal c := fun hi => by
  rw [Illegal, h] at hi
  cases hi.1

theorem legal_of_reserved (h : reservedFunct3 f.opcode f.funct3 = true) : ¬ Illegal (fieldsRow f) := by
  simp only [reservedFunct3, Bool.or_eq_true, Bool.and_eq_true, beq_iff_eq] at h
  rcases h with (⟨hop, -⟩ | ⟨hop, -⟩) | ⟨hop, -⟩
  · rw [fieldsRow, hop]
    exact not_illegal rfl
  · rw [fieldsRow, hop]
    exact not_illegal rfl
  · rw [fieldsRow, hop]
    exact not_illegal rfl

theorem legal_of_openAmo (h : openAmo f = true) : ¬ Illegal (decodeAmo f.funct3 f.funct7) := by
  simp only [openAmo, Bool.or_eq_true, Bool.and_eq_true, beq_iff_eq] at h
  rw [decodeAmo, if_pos (h.symm.imp_left And.left)]
  refine ite_row (P := fun c => ¬ Illegal c) (fun _ => not_illegal rfl) fun _ => ?_
  exact ite_row (P := fun c => ¬ Illegal c) (fun _ => not_illegal rfl) fun _ => not_illegal rfl

theorem legal_of_openSystem (h : openSystem f = true) : ¬ Illegal (decodeSystem f.funct3 f.funct7 f.rs1 f.rs2) := by
  simp only [openSystem, Bool.or_eq_true, Bool.and_eq_true, beq_iff_eq] at h
  obtain ⟨⟨h3, -⟩, ⟨h7, h2 | h2⟩ | ⟨h7, h2⟩⟩ := h
  · rw [h3, h7, h2]
    rintro ⟨-, hcause⟩
    cases hcause
  · rw [h3, h7, h2]
    rintro ⟨-, hcause⟩
    cases hcause
  · rw [h3, h7, h2]
    exact not_illegal rfl

/-- What is left open does not trap, the FP opcodes apart. -/
theorem legal_of_open (ho : openFields f = true) (hfp : isFpOpcode f.opcode = false) : ¬ Illegal (fieldsRow f) := by
  simp only [openFields, hfp, Bool.false_or, Bool.or_eq_true, Bool.and_eq_true, beq_iff_eq] at ho
  rcases ho with ((hzero | hres) | ⟨hop, hamo⟩) | ⟨hop, hsystem⟩
  · rw [fieldsRow, hzero]
    exact not_illegal rfl
  · exact legal_of_reserved hres
  · rw [fieldsRow, hop]
    exact legal_of_openAmo hamo
  · rw [fieldsRow, hop]
    exact legal_of_openSystem hsystem

end Rows

section Words

variable (w : BitVec 32) (fs : BitVec 2) (rm : BitVec 3)

/-- An instruction is no illegal instruction. -/
theorem legal_encode (i : Instr) : ¬ Illegal (decode (encode i) fs rm) := by
  cases i with
  | lui rd imm => exact decode_lui fs rm rd imm ▸ not_illegal rfl
  | auipc rd imm => exact decode_auipc fs rm rd imm ▸ not_illegal rfl
  | jal rd offset => exact decode_jal fs rm rd offset ▸ not_illegal rfl
  | jalr rd rs1 offset => exact decode_jalr fs rm rd rs1 offset ▸ not_illegal rfl
  | branch op rs1 rs2 offset => exact decode_branch fs rm rs1 rs2 op offset ▸ not_illegal rfl
  | load op rd rs1 offset => exact decode_load fs rm rd rs1 op offset ▸ not_illegal rfl
  | store op rs1 rs2 offset => exact decode_store fs rm rs1 rs2 op offset ▸ not_illegal rfl
  | aluImm op rd rs1 imm => exact decode_aluImm fs rm rd rs1 op imm ▸ not_illegal rfl
  | shift op rd rs1 shamt => exact decode_shift fs rm rd rs1 op shamt ▸ not_illegal rfl
  | alu op rd rs1 rs2 => exact decode_alu fs rm rd rs1 rs2 op ▸ not_illegal rfl
  | lr order rd rs1 => exact decode_lr fs rm rd rs1 order ▸ not_illegal rfl
  | sc order rd rs1 rs2 => exact decode_sc fs rm rd rs1 rs2 order ▸ not_illegal rfl
  | amo op order rd rs1 rs2 => exact decode_amo fs rm rd rs1 rs2 op order ▸ not_illegal rfl
  | csr op rd rs1 addr => exact decode_csr fs rm rd rs1 op addr ▸ not_illegal rfl
  | csri op rd imm addr => exact decode_csri fs rm rd op imm addr ▸ not_illegal rfl
  | fence funct7 rs2 rs1 funct3 rd => exact decode_fence fs rm rd rs1 rs2 funct7 funct3 ▸ not_illegal rfl
  | ecall => exact decode_ecall fs rm ▸ fun h => absurd h.2 (by decide)
  | ebreak => exact decode_ebreak fs rm ▸ fun h => absurd h.2 (by decide)
  | mret => exact decode_mret fs rm ▸ not_illegal rfl

theorem traps_decode (hi : decodeWord w = none) (ho : openWord w = false) : Traps 2#4 (decode w fs rm) := by
  have hfp : isFpOpcode (opcodeOf w) = false := by
    rw [openWord, openFields] at ho
    simp only [Bool.or_eq_false_iff] at ho
    exact ho.1.1.1.1
  have htraps := traps_of_none hi ho
  rw [decode_int hfp]
  exact ⟨htraps.exception, htraps.exceptionCause, htraps.memWrite, htraps.fpMemWrite, htraps.amoEn⟩

end Words

/-- The decoder takes the RV32IMA instructions and nothing else, the words that
are left open apart: every other word raises the illegal instruction exception. -/
theorem illegal_iff_undecodable (w : BitVec 32) (fs : BitVec 2) (rm : BitVec 3)
    (hfp : isFpOpcode (opcodeOf w) = false) :
    Illegal (decode w fs rm) ↔ decodeWord w = none ∧ openWord w = false := by
  constructor
  · intro h
    have hrow : Illegal (fieldsRow (Fields.ofWord w)) := by
      rw [decode_int hfp] at h
      exact h
    refine ⟨?_, Bool.eq_false_iff.mpr fun ho => legal_of_open ho hfp hrow⟩
    cases hi : decodeWord w with
    | none => rfl
    | some i =>
        rw [← (Isa.decodeWord_eq_some w i).mp hi] at h
        exact absurd h (legal_encode fs rm i)
  · rintro ⟨hi, ho⟩
    have htraps := traps_decode w fs rm hi ho
    exact ⟨htraps.exception, htraps.exceptionCause⟩

/-- `sub x1, x2, x3` with one more bit in `funct7`. -/
theorem illegal_iff_undecodable_sub :
    Illegal (decode 0x423100B3#32 0#2 0#3) ↔ decodeWord 0x423100B3#32 = none ∧ openWord 0x423100B3#32 = false :=
  illegal_iff_undecodable 0x423100B3#32 0#2 0#3 (by decide)

end VMate.IsaTrap
