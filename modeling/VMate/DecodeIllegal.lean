import VMate.DecodeFacts
import VMate.RiscvSb

namespace VMate.DecodeIllegal

open Decode Pipe DecodeFacts RiscvSb

/-- The row raises the illegal instruction exception exactly when `P` holds. -/
def IllegalIff (P : Prop) (c : Ctrl) : Prop := (c.exception = true ∧ c.exceptionCause = 2#4) ↔ P

/-- The integer loads, stores and JALR with a reserved `funct3`, which the
rows of `control_unit` do not look at. -/
def reservedFunct3 (opcode : BitVec 7) (funct3 : BitVec 3) : Bool :=
  (opcode == opLoad && (funct3 == 0b011#3 || funct3 == 0b110#3 || funct3 == 0b111#3)) ||
    (opcode == opStore && (funct3 == 0b011#3 || funct3 == 0b100#3 || funct3 == 0b101#3 || funct3 == 0b110#3 ||
      funct3 == 0b111#3)) ||
    (opcode == opJalr && funct3 != 0b000#3)

theorem illegalIff_legal {P : Prop} {c : Ctrl} (hc : c.exception = false) (hP : ¬ P) : IllegalIff P c := by
  simp [IllegalIff, hc, hP]

theorem illegalIff_illegal {P : Prop} {c : Ctrl} (hP : P) : IllegalIff P (illegal c) := by
  simp [IllegalIff, illegal, hP]

section Rows

variable (opcode : BitVec 7) (funct3 : BitVec 3) (funct7 : BitVec 7) (rs1 rs2 : BitVec 5)

theorem illegalFields_rType (csr : BitVec 12) :
    illegalFields opRType funct3 funct7 csr = true ↔ ¬ (funct7 = 0b0000001#7 ∨ funct7 = 0b0000000#7 ∨
      (funct7 = 0b0100000#7 ∧ (funct3 = 0b000#3 ∨ funct3 = 0b101#3))) := by
  have hknown : knownOpcode opRType = true := rfl
  simp only [illegalFields, hknown]
  simp only [opRType]
  grind

theorem illegalFields_iType (csr : BitVec 12) :
    illegalFields opIType funct3 funct7 csr = true ↔ (funct3 = 0b001#3 ∧ funct7 ≠ 0b0000000#7) ∨
      (funct3 = 0b101#3 ∧ funct7 ≠ 0b0000000#7 ∧ funct7 ≠ 0b0100000#7) := by
  simp [illegalFields, knownOpcode, opIType, and_assoc]

theorem illegalFields_branch (csr : BitVec 12) :
    illegalFields opBranch funct3 funct7 csr = true ↔ funct3 = 0b010#3 ∨ funct3 = 0b011#3 := by
  simp [illegalFields, knownOpcode, opBranch]

theorem illegalFields_amo (csr : BitVec 12) :
    illegalFields opAmo funct3 funct7 csr = true ↔ ¬ (funct3 = 0b010#3 ∨ funct3 = 0b011#3) := by
  simp [illegalFields, knownOpcode, opAmo]

theorem illegalFields_loadFp (csr : BitVec 12) :
    illegalFields opLoadFp funct3 funct7 csr = true ↔ ¬ (funct3 = 0b010#3 ∨ funct3 = 0b011#3) := by
  simp [illegalFields, knownOpcode, opLoadFp]

theorem illegalFields_storeFp (csr : BitVec 12) :
    illegalFields opStoreFp funct3 funct7 csr = true ↔ ¬ (funct3 = 0b010#3 ∨ funct3 = 0b011#3) := by
  simp [illegalFields, knownOpcode, opStoreFp]

theorem illegalFields_fp (csr : BitVec 12) :
    illegalFields opFp funct3 funct7 csr = true ↔ knownFpOp (funct7.extractLsb 6 2) = false := by
  simp [illegalFields, knownOpcode, opFp]

/-- The opcodes whose every encoding `riscv_sb` accepts, and those where it
rejects only the reserved `funct3`. -/
theorem illegalFields_plain (csr : BitVec 12) (hres : reservedFunct3 opcode funct3 = false)
    (hop : opcode ∈ [opLoad, opStore, opJal, opJalr, opLui, opAuipc, opFence, opFmadd, opFmsub, opFnmsub, opFnmadd]) :
    ¬ illegalFields opcode funct3 funct7 csr = true := by
  simp only [List.mem_cons, List.not_mem_nil, or_false] at hop
  rcases hop with rfl | rfl | rfl | rfl | rfl | rfl | rfl | rfl | rfl | rfl | rfl
  all_goals
    simp only [reservedFunct3, opLoad, opStore, opJal, opJalr, opLui, opAuipc, opFence, opFmadd, opFmsub, opFnmsub,
      opFnmadd] at hres
    simp_all [illegalFields, knownOpcode, opLoad, opStore, opJal, opJalr, opLui, opAuipc, opFence, opFmadd, opFmsub,
      opFnmsub, opFnmadd]

theorem append_eq_iff (a : BitVec 7) (b : BitVec 5) : funct7 ++ rs2 = a ++ b ↔ funct7 = a ∧ rs2 = b := by
  constructor
  · intro h
    have h1 := congrArg (BitVec.extractLsb' 5 7) h
    have h2 := congrArg (BitVec.extractLsb' 0 5) h
    simp only [BitVec.extractLsb'_append_eq_left, BitVec.extractLsb'_append_eq_right] at h1 h2
    exact ⟨h1, h2⟩
  · rintro ⟨rfl, rfl⟩
    rfl

theorem illegalFields_system :
    illegalFields opSystem funct3 funct7 (funct7 ++ rs2) = true ↔
      (funct3 = 0b000#3 ∧ ¬ (funct7 = 0b0000000#7 ∧ rs2 = 0b00000#5) ∧
        ¬ (funct7 = 0b0000000#7 ∧ rs2 = 0b00001#5) ∧ ¬ (funct7 = 0b0011000#7 ∧ rs2 = 0b00010#5)) ∨
      funct3 = 0b100#3 := by
  rw [← append_eq_iff, ← append_eq_iff, ← append_eq_iff]
  simp [illegalFields, knownOpcode, opSystem, and_assoc]

theorem decodeAmo_illegal :
    IllegalIff (¬ (funct3 = 0b010#3 ∨ funct3 = 0b011#3)) (decodeAmo funct3 funct7) := by
  unfold decodeAmo illegal
  repeat' refine ite_row (fun _ => ?_) (fun _ => ?_)
  all_goals simp_all [IllegalIff]

theorem decodeLoadFp_illegal : IllegalIff (¬ (funct3 = 0b010#3 ∨ funct3 = 0b011#3)) (decodeLoadFp funct3) := by
  unfold decodeLoadFp illegal
  refine ite_row (fun _ => ?_) (fun _ => ?_)
  all_goals simp_all [IllegalIff]

theorem decodeStoreFp_illegal : IllegalIff (¬ (funct3 = 0b010#3 ∨ funct3 = 0b011#3)) (decodeStoreFp funct3) := by
  unfold decodeStoreFp illegal
  refine ite_row (fun _ => ?_) (fun _ => ?_)
  all_goals simp_all [IllegalIff]

theorem decodeFp_illegal : IllegalIff (knownFpOp (funct7.extractLsb 6 2) = false) (decodeFp funct3 funct7) := by
  unfold decodeFp illegal
  repeat' refine ite_row (fun _ => ?_) (fun _ => ?_)
  all_goals simp_all [IllegalIff, knownFpOp]

theorem decodeSystem_illegal :
    IllegalIff ((funct3 = 0b000#3 ∧ ¬ (funct7 = 0b0000000#7 ∧ rs2 = 0b00000#5) ∧
        ¬ (funct7 = 0b0000000#7 ∧ rs2 = 0b00001#5) ∧ ¬ (funct7 = 0b0011000#7 ∧ rs2 = 0b00010#5)) ∨
      funct3 = 0b100#3) (decodeSystem funct3 funct7 rs1 rs2) := by
  have hlow : funct3.extractLsb 1 0 = 0b01#2 ∨ funct3.extractLsb 1 0 = 0b10#2 ∨ funct3.extractLsb 1 0 = 0b11#2 ↔
      ¬ (funct3 = 0b000#3 ∨ funct3 = 0b100#3) := by
    revert funct3
    decide
  unfold decodeSystem illegal
  refine ite_row (fun h0 => ?_) (fun h0 => ?_)
  · subst h0
    repeat' refine ite_row (fun _ => ?_) (fun _ => ?_)
    all_goals simp_all [IllegalIff]
  · repeat' refine ite_row (fun _ => ?_) (fun _ => ?_)
    all_goals simp_all [IllegalIff]

theorem decodeOpcode_illegal (hop : opcode ≠ 0b0000000#7) (hres : reservedFunct3 opcode funct3 = false) :
    IllegalIff (illegalFields opcode funct3 funct7 (funct7 ++ rs2) = true)
      (decodeOpcode opcode funct3 funct7 rs1 rs2) := by
  have hplain := fun hmem => illegalFields_plain opcode funct3 funct7 (funct7 ++ rs2) hres hmem
  unfold decodeOpcode
  refine ite_row (fun h => absurd h hop) (fun _ => ?_)
  refine ite_row (fun h => ?_) (fun _ => ?_)
  · subst h
    rw [illegalFields_rType]
    exact ite_row (fun h => illegalIff_legal rfl (not_not.mpr h)) (fun h => illegalIff_illegal h)
  refine ite_row (fun h => ?_) (fun _ => ?_)
  · subst h
    rw [illegalFields_iType]
    exact ite_row (fun h => illegalIff_illegal h) (fun h => illegalIff_legal rfl h)
  refine ite_row (fun h => illegalIff_legal rfl (hplain (by simp [h]))) (fun _ => ?_)
  refine ite_row (fun h => illegalIff_legal rfl (hplain (by simp [h]))) (fun _ => ?_)
  refine ite_row (fun h => ?_) (fun _ => ?_)
  · subst h
    rw [illegalFields_branch]
    exact ite_row (fun h => illegalIff_illegal h) (fun h => illegalIff_legal rfl h)
  refine ite_row (fun h => illegalIff_legal rfl (hplain (by simp [h]))) (fun _ => ?_)
  refine ite_row (fun h => illegalIff_legal rfl (hplain (by simp [h]))) (fun _ => ?_)
  refine ite_row (fun h => illegalIff_legal rfl (hplain (by simp [h]))) (fun _ => ?_)
  refine ite_row (fun h => illegalIff_legal rfl (hplain (by simp [h]))) (fun _ => ?_)
  refine ite_row (fun h => ?_) (fun _ => ?_)
  · subst h
    rw [illegalFields_amo]
    exact decodeAmo_illegal funct3 funct7
  refine ite_row (fun h => illegalIff_legal rfl (hplain (by simp [h]))) (fun _ => ?_)
  refine ite_row (fun h => ?_) (fun _ => ?_)
  · subst h
    rw [illegalFields_system]
    exact decodeSystem_illegal funct3 funct7 rs1 rs2
  refine ite_row (fun h => ?_) (fun _ => ?_)
  · subst h
    rw [illegalFields_loadFp]
    exact decodeLoadFp_illegal funct3
  refine ite_row (fun h => ?_) (fun _ => ?_)
  · subst h
    rw [illegalFields_storeFp]
    exact decodeStoreFp_illegal funct3
  refine ite_row (fun h => illegalIff_legal rfl (hplain (by simp [h]))) (fun _ => ?_)
  refine ite_row (fun h => illegalIff_legal rfl (hplain (by simp [h]))) (fun _ => ?_)
  refine ite_row (fun h => illegalIff_legal rfl (hplain (by simp [h]))) (fun _ => ?_)
  refine ite_row (fun h => illegalIff_legal rfl (hplain (by simp [h]))) (fun _ => ?_)
  refine ite_row (fun h => ?_) (fun _ => ?_)
  · subst h
    rw [illegalFields_fp]
    exact decodeFp_illegal funct3 funct7
  apply illegalIff_illegal
  have hunknown : knownOpcode opcode = false := by
    simp_all [knownOpcode, opRType, opIType, opLoad, opStore, opBranch, opJal, opJalr, opLui, opAuipc, opAmo,
      opFence, opSystem, opLoadFp, opStoreFp, opFmadd, opFmsub, opFnmsub, opFnmadd, opFp]
  simp [illegalFields, hunknown]

end Rows

/-- The FP opcodes that compute with a rounding mode. -/
def isFpCompute (opcode : BitVec 7) : Bool := isFpOpcode opcode && opcode != opLoadFp && opcode != opStoreFp

def reservedRm (funct3 fcsrRm : BitVec 3) : Prop :=
  funct3 = 0b101#3 ∨ funct3 = 0b110#3 ∨ (funct3 = 0b111#3 ∧ 5#3 ≤ fcsrRm)

theorem fpTrap_iff (i : BitVec 32) (fs : BitVec 2) (rm : BitVec 3) :
    fpTrap i fs rm = true ↔ (isFpOpcode (opcodeOf i) = true ∧ fs = 0#2) ∨
      (isFpCompute (opcodeOf i) = true ∧ reservedRm (i.extractLsb 14 12) rm) := by
  simp only [fpTrap, isFpCompute, reservedRm, Bool.and_eq_true, Bool.or_eq_true, beq_iff_eq, decide_eq_true_eq]
  tauto

theorem csr_fields (i : BitVec 32) : i.extractLsb 31 20 = i.extractLsb 31 25 ++ rs2Of i := by
  rw [rs2Of, BitVec.extractLsb, BitVec.extractLsb, BitVec.extractLsb,
    BitVec.extractLsb'_append_extractLsb'_eq_extractLsb' (by decide)]

theorem isIllegal_row (i : BitVec 32) (hop : opcodeOf i ≠ 0b0000000#7)
    (hres : reservedFunct3 (opcodeOf i) (i.extractLsb 14 12) = false) :
    ((row i).exception = true ∧ (row i).exceptionCause = 2#4) ↔ isIllegal i = true := by
  rw [isIllegal, csr_fields]
  exact decodeOpcode_illegal _ _ _ _ _ hop hres

/-- The decoder raises the illegal instruction exception where `riscv_sb`
does and where the FP state forbids the instruction. The opcode of the
pipeline bubble never traps. -/
theorem decode_illegal_iff (i : BitVec 32) (fs : BitVec 2) (rm : BitVec 3)
    (hres : reservedFunct3 (opcodeOf i) (i.extractLsb 14 12) = false) :
    ((decode i fs rm).exception = true ∧ (decode i fs rm).exceptionCause = 2#4) ↔
      opcodeOf i ≠ 0b0000000#7 ∧
        (isIllegal i = true ∨ (isFpOpcode (opcodeOf i) = true ∧ fs = 0#2) ∨
          (isFpCompute (opcodeOf i) = true ∧ reservedRm (i.extractLsb 14 12) rm)) := by
  have hsplit : ((decode i fs rm).exception = true ∧ (decode i fs rm).exceptionCause = 2#4) ↔
      ((row i).exception = true ∧ (row i).exceptionCause = 2#4) ∨ fpTrap i fs rm = true := by
    rw [decode_eq]
    cases fpTrap i fs rm <;> simp
  rw [hsplit, ← fpTrap_iff]
  by_cases hop : opcodeOf i = 0b0000000#7
  · have hrow : row i = {} := by rw [row, hop]; rfl
    have htrap : fpTrap i fs rm = false := by rw [fpTrap, hop]; rfl
    simp [hop, hrow, htrap]
  · rw [isIllegal_row i hop hres, and_iff_right hop]

/-- `flw f0, 0(x0)` while FS is off. -/
theorem decode_illegal_iff_flw :
    reservedFunct3 (opcodeOf 0x00002007#32) ((0x00002007#32).extractLsb 14 12) = false ∧
      (((decode 0x00002007#32 0#2 0#3).exception = true ∧ (decode 0x00002007#32 0#2 0#3).exceptionCause = 2#4) ↔
        opcodeOf 0x00002007#32 ≠ 0b0000000#7 ∧
          (isIllegal 0x00002007#32 = true ∨ (isFpOpcode (opcodeOf 0x00002007#32) = true ∧ 0#2 = 0#2) ∨
            (isFpCompute (opcodeOf 0x00002007#32) = true ∧ reservedRm ((0x00002007#32).extractLsb 14 12) 0#3))) :=
  ⟨by decide, decode_illegal_iff 0x00002007#32 0#2 0#3 (by decide)⟩

/-- The word that flushes leave in the pipeline is illegal for `riscv_sb`. -/
theorem decode_bubble_legal :
    isIllegal 0x00000000#32 = true ∧ (decode 0x00000000#32 0b11#2 0#3).exception = false := by
  decide

end VMate.DecodeIllegal
