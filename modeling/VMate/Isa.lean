import Mathlib.Data.BitVec
import Mathlib.Data.List.Nodup

namespace VMate.Isa

section Tables

variable {α β : Type} [DecidableEq β]

/-- The members of an enumeration with their codes. -/
structure Table (α β : Type) where
  all : List α
  key : α → β
  complete : ∀ x, x ∈ all
  nodup : (all.map key).Nodup

def Table.find (t : Table α β) (k : β) : Option α := t.all.find? fun x => t.key x == k

omit [DecidableEq β] in
theorem Table.key_inj (t : Table α β) {x y : α} (h : t.key x = t.key y) : x = y :=
  List.inj_on_of_nodup_map t.nodup (t.complete x) (t.complete y) h

theorem Table.find_eq_some (t : Table α β) {k : β} {x : α} : t.find k = some x ↔ t.key x = k := by
  rw [Table.find]
  constructor
  · intro h
    have hkey := List.find?_some h
    exact beq_iff_eq.mp hkey
  · rintro rfl
    cases hf : t.all.find? fun y => t.key y == t.key x with
    | none => exact absurd (List.find?_eq_none.mp hf x (t.complete x)) (by simp)
    | some y =>
        have hkey := List.find?_some hf
        rw [t.key_inj (beq_iff_eq.mp hkey)]

theorem Table.find_eq_none (t : Table α β) {k : β} : t.find k = none ↔ ∀ x, t.key x ≠ k := by
  constructor
  · intro h x hx
    rw [t.find_eq_some.mpr hx] at h
    cases h
  · intro h
    cases hf : t.find k with
    | none => rfl
    | some x => exact absurd (t.find_eq_some.mp hf) (h x)

theorem Table.find_key (t : Table α β) (x : α) : t.find (t.key x) = some x := t.find_eq_some.mpr rfl

end Tables

section Syntax

abbrev Word := BitVec 32

abbrev Reg := BitVec 5

inductive BranchOp where
  | beq | bne | blt | bge | bltu | bgeu
  deriving DecidableEq, Repr

inductive LoadOp where
  | lb | lh | lw | lbu | lhu
  deriving DecidableEq, Repr

inductive StoreOp where
  | sb | sh | sw
  deriving DecidableEq, Repr

inductive ImmOp where
  | addi | slti | sltiu | xori | ori | andi
  deriving DecidableEq, Repr

inductive ShiftOp where
  | slli | srli | srai
  deriving DecidableEq, Repr

inductive RegOp where
  | add | sub | sll | slt | sltu | xor | srl | sra | or | and
  | mul | mulh | mulhsu | mulhu | div | divu | rem | remu
  deriving DecidableEq, Repr

inductive AmoOp where
  | swap | add | xor | and | or | min | max | minu | maxu
  deriving DecidableEq, Repr

inductive CsrOp where
  | rw | rs | rc
  deriving DecidableEq, Repr

/-- RV32IMA with the CSR instructions and machine mode. Offsets of jumps and
branches count halfwords; `order` is the pair of ordering bits. -/
inductive Instr where
  | lui (rd : Reg) (imm : BitVec 20)
  | auipc (rd : Reg) (imm : BitVec 20)
  | jal (rd : Reg) (offset : BitVec 20)
  | jalr (rd rs1 : Reg) (offset : BitVec 12)
  | branch (op : BranchOp) (rs1 rs2 : Reg) (offset : BitVec 12)
  | load (op : LoadOp) (rd rs1 : Reg) (offset : BitVec 12)
  | store (op : StoreOp) (rs1 rs2 : Reg) (offset : BitVec 12)
  | aluImm (op : ImmOp) (rd rs1 : Reg) (imm : BitVec 12)
  | shift (op : ShiftOp) (rd rs1 : Reg) (shamt : BitVec 5)
  | alu (op : RegOp) (rd rs1 rs2 : Reg)
  | lr (order : BitVec 2) (rd rs1 : Reg)
  | sc (order : BitVec 2) (rd rs1 rs2 : Reg)
  | amo (op : AmoOp) (order : BitVec 2) (rd rs1 rs2 : Reg)
  | csr (op : CsrOp) (rd rs1 : Reg) (addr : BitVec 12)
  | csri (op : CsrOp) (rd : Reg) (imm : BitVec 5) (addr : BitVec 12)
  | fence (funct7 : BitVec 7) (rs2 rs1 : Reg) (funct3 : BitVec 3) (rd : Reg)
  | ecall
  | ebreak
  | mret
  deriving DecidableEq, Repr

end Syntax

section Words

/-- The register format of an instruction word. The other formats are this
one with an immediate in place of some fields. -/
structure Fields where
  funct7 : BitVec 7
  rs2 : BitVec 5
  rs1 : BitVec 5
  funct3 : BitVec 3
  rd : BitVec 5
  opcode : BitVec 7
  deriving DecidableEq, Repr

def Fields.word (f : Fields) : Word := f.funct7 ++ f.rs2 ++ f.rs1 ++ f.funct3 ++ f.rd ++ f.opcode

def Fields.ofWord (w : Word) : Fields :=
  ⟨w.extractLsb 31 25, w.extractLsb 24 20, w.extractLsb 19 15, w.extractLsb 14 12, w.extractLsb 11 7, w.extractLsb 6 0⟩

def opLui : BitVec 7 := 0b0110111#7
def opAuipc : BitVec 7 := 0b0010111#7
def opJal : BitVec 7 := 0b1101111#7
def opJalr : BitVec 7 := 0b1100111#7
def opBranch : BitVec 7 := 0b1100011#7
def opLoad : BitVec 7 := 0b0000011#7
def opStore : BitVec 7 := 0b0100011#7
def opImm : BitVec 7 := 0b0010011#7
def opReg : BitVec 7 := 0b0110011#7
def opAmo : BitVec 7 := 0b0101111#7
def opSystem : BitVec 7 := 0b1110011#7
def opFence : BitVec 7 := 0b0001111#7

def branchTable : Table BranchOp (BitVec 3) where
  all := [.beq, .bne, .blt, .bge, .bltu, .bgeu]
  key
    | .beq => 0b000#3
    | .bne => 0b001#3
    | .blt => 0b100#3
    | .bge => 0b101#3
    | .bltu => 0b110#3
    | .bgeu => 0b111#3
  complete x := by cases x <;> decide
  nodup := by decide

def loadTable : Table LoadOp (BitVec 3) where
  all := [.lb, .lh, .lw, .lbu, .lhu]
  key
    | .lb => 0b000#3
    | .lh => 0b001#3
    | .lw => 0b010#3
    | .lbu => 0b100#3
    | .lhu => 0b101#3
  complete x := by cases x <;> decide
  nodup := by decide

def storeTable : Table StoreOp (BitVec 3) where
  all := [.sb, .sh, .sw]
  key
    | .sb => 0b000#3
    | .sh => 0b001#3
    | .sw => 0b010#3
  complete x := by cases x <;> decide
  nodup := by decide

def immTable : Table ImmOp (BitVec 3) where
  all := [.addi, .slti, .sltiu, .xori, .ori, .andi]
  key
    | .addi => 0b000#3
    | .slti => 0b010#3
    | .sltiu => 0b011#3
    | .xori => 0b100#3
    | .ori => 0b110#3
    | .andi => 0b111#3
  complete x := by cases x <;> decide
  nodup := by decide

def shiftTable : Table ShiftOp (BitVec 7 × BitVec 3) where
  all := [.slli, .srli, .srai]
  key
    | .slli => (0b0000000#7, 0b001#3)
    | .srli => (0b0000000#7, 0b101#3)
    | .srai => (0b0100000#7, 0b101#3)
  complete x := by cases x <;> decide
  nodup := by decide

def regTable : Table RegOp (BitVec 7 × BitVec 3) where
  all := [.add, .sub, .sll, .slt, .sltu, .xor, .srl, .sra, .or, .and, .mul, .mulh, .mulhsu, .mulhu, .div, .divu, .rem,
    .remu]
  key
    | .add => (0b0000000#7, 0b000#3)
    | .sub => (0b0100000#7, 0b000#3)
    | .sll => (0b0000000#7, 0b001#3)
    | .slt => (0b0000000#7, 0b010#3)
    | .sltu => (0b0000000#7, 0b011#3)
    | .xor => (0b0000000#7, 0b100#3)
    | .srl => (0b0000000#7, 0b101#3)
    | .sra => (0b0100000#7, 0b101#3)
    | .or => (0b0000000#7, 0b110#3)
    | .and => (0b0000000#7, 0b111#3)
    | .mul => (0b0000001#7, 0b000#3)
    | .mulh => (0b0000001#7, 0b001#3)
    | .mulhsu => (0b0000001#7, 0b010#3)
    | .mulhu => (0b0000001#7, 0b011#3)
    | .div => (0b0000001#7, 0b100#3)
    | .divu => (0b0000001#7, 0b101#3)
    | .rem => (0b0000001#7, 0b110#3)
    | .remu => (0b0000001#7, 0b111#3)
  complete x := by cases x <;> decide
  nodup := by decide

def amoTable : Table AmoOp (BitVec 5) where
  all := [.swap, .add, .xor, .and, .or, .min, .max, .minu, .maxu]
  key
    | .swap => 0b00001#5
    | .add => 0b00000#5
    | .xor => 0b00100#5
    | .and => 0b01100#5
    | .or => 0b01000#5
    | .min => 0b10000#5
    | .max => 0b10100#5
    | .minu => 0b11000#5
    | .maxu => 0b11100#5
  complete x := by cases x <;> decide
  nodup := by decide

def csrTable : Table CsrOp (BitVec 2) where
  all := [.rw, .rs, .rc]
  key
    | .rw => 0b01#2
    | .rs => 0b10#2
    | .rc => 0b11#2
  complete x := by cases x <;> decide
  nodup := by decide

/-- The halfword offset of a branch in the fields `funct7` and `rd`. -/
def branchHi (offset : BitVec 12) : BitVec 7 := offset.extractLsb 11 11 ++ offset.extractLsb 9 4
def branchLo (offset : BitVec 12) : BitVec 5 := offset.extractLsb 3 0 ++ offset.extractLsb 10 10
def branchOffset (hi : BitVec 7) (lo : BitVec 5) : BitVec 12 :=
  hi.extractLsb 6 6 ++ lo.extractLsb 0 0 ++ hi.extractLsb 5 0 ++ lo.extractLsb 4 1

/-- The halfword offset of a jump in the upper four fields. -/
def jumpFields (offset : BitVec 20) (rd : Reg) (opcode : BitVec 7) : Fields :=
  ⟨offset.extractLsb 19 19 ++ offset.extractLsb 9 4, offset.extractLsb 3 0 ++ offset.extractLsb 10 10,
    offset.extractLsb 18 14, offset.extractLsb 13 11, rd, opcode⟩
def jumpOffset (f : Fields) : BitVec 20 :=
  f.funct7.extractLsb 6 6 ++ f.rs1 ++ f.funct3 ++ f.rs2.extractLsb 0 0 ++ f.funct7.extractLsb 5 0 ++
    f.rs2.extractLsb 4 1

def upperFields (imm : BitVec 20) (rd : Reg) (opcode : BitVec 7) : Fields :=
  ⟨imm.extractLsb 19 13, imm.extractLsb 12 8, imm.extractLsb 7 3, imm.extractLsb 2 0, rd, opcode⟩
def upperImm (f : Fields) : BitVec 20 := f.funct7 ++ f.rs2 ++ f.rs1 ++ f.funct3

def Instr.fields : Instr → Fields
  | .lui rd imm => upperFields imm rd opLui
  | .auipc rd imm => upperFields imm rd opAuipc
  | .jal rd offset => jumpFields offset rd opJal
  | .jalr rd rs1 offset => ⟨offset.extractLsb 11 5, offset.extractLsb 4 0, rs1, 0b000#3, rd, opJalr⟩
  | .branch op rs1 rs2 offset => ⟨branchHi offset, rs2, rs1, branchTable.key op, branchLo offset, opBranch⟩
  | .load op rd rs1 offset => ⟨offset.extractLsb 11 5, offset.extractLsb 4 0, rs1, loadTable.key op, rd, opLoad⟩
  | .store op rs1 rs2 offset => ⟨offset.extractLsb 11 5, rs2, rs1, storeTable.key op, offset.extractLsb 4 0, opStore⟩
  | .aluImm op rd rs1 imm => ⟨imm.extractLsb 11 5, imm.extractLsb 4 0, rs1, immTable.key op, rd, opImm⟩
  | .shift op rd rs1 shamt => ⟨(shiftTable.key op).1, shamt, rs1, (shiftTable.key op).2, rd, opImm⟩
  | .alu op rd rs1 rs2 => ⟨(regTable.key op).1, rs2, rs1, (regTable.key op).2, rd, opReg⟩
  | .lr order rd rs1 => ⟨0b00010#5 ++ order, 0b00000#5, rs1, 0b010#3, rd, opAmo⟩
  | .sc order rd rs1 rs2 => ⟨0b00011#5 ++ order, rs2, rs1, 0b010#3, rd, opAmo⟩
  | .amo op order rd rs1 rs2 => ⟨amoTable.key op ++ order, rs2, rs1, 0b010#3, rd, opAmo⟩
  | .csr op rd rs1 addr => ⟨addr.extractLsb 11 5, addr.extractLsb 4 0, rs1, 0#1 ++ csrTable.key op, rd, opSystem⟩
  | .csri op rd imm addr => ⟨addr.extractLsb 11 5, addr.extractLsb 4 0, imm, 1#1 ++ csrTable.key op, rd, opSystem⟩
  | .fence funct7 rs2 rs1 funct3 rd => ⟨funct7, rs2, rs1, funct3, rd, opFence⟩
  | .ecall => ⟨0b0000000#7, 0b00000#5, 0b00000#5, 0b000#3, 0b00000#5, opSystem⟩
  | .ebreak => ⟨0b0000000#7, 0b00001#5, 0b00000#5, 0b000#3, 0b00000#5, opSystem⟩
  | .mret => ⟨0b0011000#7, 0b00010#5, 0b00000#5, 0b000#3, 0b00000#5, opSystem⟩

def encode (i : Instr) : Word := i.fields.word

/-- The first of two readings that exists. -/
def Fields.imm (f : Fields) : Option Instr :=
  match immTable.find f.funct3 with
  | some op => some (.aluImm op f.rd f.rs1 (f.funct7 ++ f.rs2))
  | none => (shiftTable.find (f.funct7, f.funct3)).map fun op => .shift op f.rd f.rs1 f.rs2

def Fields.amo (f : Fields) : Option Instr :=
  if f.funct3 ≠ 0b010#3 then none
  else if f.funct7.extractLsb 6 2 = 0b00010#5 then
    if f.rs2 = 0b00000#5 then some (.lr (f.funct7.extractLsb 1 0) f.rd f.rs1) else none
  else if f.funct7.extractLsb 6 2 = 0b00011#5 then some (.sc (f.funct7.extractLsb 1 0) f.rd f.rs1 f.rs2)
  else (amoTable.find (f.funct7.extractLsb 6 2)).map fun op => .amo op (f.funct7.extractLsb 1 0) f.rd f.rs1 f.rs2

def Fields.system (f : Fields) : Option Instr :=
  if f = Instr.ecall.fields then some .ecall
  else if f = Instr.ebreak.fields then some .ebreak
  else if f = Instr.mret.fields then some .mret
  else (csrTable.find (f.funct3.extractLsb 1 0)).map fun op =>
    if f.funct3.getLsbD 2 then .csri op f.rd f.rs1 (f.funct7 ++ f.rs2) else .csr op f.rd f.rs1 (f.funct7 ++ f.rs2)

def Fields.instr (f : Fields) : Option Instr :=
  if f.opcode = opLui then some (.lui f.rd (upperImm f))
  else if f.opcode = opAuipc then some (.auipc f.rd (upperImm f))
  else if f.opcode = opJal then some (.jal f.rd (jumpOffset f))
  else if f.opcode = opJalr then
    if f.funct3 = 0b000#3 then some (.jalr f.rd f.rs1 (f.funct7 ++ f.rs2)) else none
  else if f.opcode = opBranch then
    (branchTable.find f.funct3).map fun op => .branch op f.rs1 f.rs2 (branchOffset f.funct7 f.rd)
  else if f.opcode = opLoad then (loadTable.find f.funct3).map fun op => .load op f.rd f.rs1 (f.funct7 ++ f.rs2)
  else if f.opcode = opStore then (storeTable.find f.funct3).map fun op => .store op f.rs1 f.rs2 (f.funct7 ++ f.rd)
  else if f.opcode = opImm then f.imm
  else if f.opcode = opReg then (regTable.find (f.funct7, f.funct3)).map fun op => .alu op f.rd f.rs1 f.rs2
  else if f.opcode = opAmo then f.amo
  else if f.opcode = opSystem then f.system
  else if f.opcode = opFence then some (.fence f.funct7 f.rs2 f.rs1 f.funct3 f.rd)
  else none

def decodeWord (w : Word) : Option Instr := (Fields.ofWord w).instr

end Words

section RoundTrip

theorem ofWord_word (f : Fields) : Fields.ofWord f.word = f := by
  obtain ⟨funct7, rs2, rs1, funct3, rd, opcode⟩ := f
  simp only [Fields.ofWord, Fields.word, Fields.mk.injEq]
  refine ⟨?_, ?_, ?_, ?_, ?_, ?_⟩
  all_goals
    apply BitVec.eq_of_getLsbD_eq
    intro n hn
    simp only [BitVec.getLsbD_extractLsb, BitVec.getLsbD_append]
    grind

theorem word_ofWord (w : Word) : (Fields.ofWord w).word = w := by
  apply BitVec.eq_of_getLsbD_eq
  intro n hn
  simp only [Fields.ofWord, Fields.word, BitVec.getLsbD_extractLsb, BitVec.getLsbD_append]
  grind

theorem split_hi (hi : BitVec 7) (lo : BitVec 5) : (hi ++ lo).extractLsb 11 5 = hi :=
  BitVec.extractLsb'_append_eq_left

theorem split_lo (hi : BitVec 7) (lo : BitVec 5) : (hi ++ lo).extractLsb 4 0 = lo :=
  BitVec.extractLsb'_append_eq_right

theorem join_split (x : BitVec 12) : x.extractLsb 11 5 ++ x.extractLsb 4 0 = x := by
  apply BitVec.eq_of_getLsbD_eq
  intro n hn
  simp only [BitVec.getLsbD_extractLsb, BitVec.getLsbD_append]
  grind

theorem order_hi (hi : BitVec 5) (lo : BitVec 2) : (hi ++ lo).extractLsb 6 2 = hi := BitVec.extractLsb'_append_eq_left

theorem order_lo (hi : BitVec 5) (lo : BitVec 2) : (hi ++ lo).extractLsb 1 0 = lo := BitVec.extractLsb'_append_eq_right

theorem join_order (x : BitVec 7) : x.extractLsb 6 2 ++ x.extractLsb 1 0 = x := by
  apply BitVec.eq_of_getLsbD_eq
  intro n hn
  simp only [BitVec.getLsbD_extractLsb, BitVec.getLsbD_append]
  grind

theorem branch_split (hi : BitVec 7) (lo : BitVec 5) :
    branchHi (branchOffset hi lo) = hi ∧ branchLo (branchOffset hi lo) = lo := by
  constructor
  all_goals
    apply BitVec.eq_of_getLsbD_eq
    intro n hn
    simp only [branchHi, branchLo, branchOffset, BitVec.getLsbD_extractLsb, BitVec.getLsbD_append]
    grind

theorem branch_join (offset : BitVec 12) : branchOffset (branchHi offset) (branchLo offset) = offset := by
  apply BitVec.eq_of_getLsbD_eq
  intro n hn
  simp only [branchHi, branchLo, branchOffset, BitVec.getLsbD_extractLsb, BitVec.getLsbD_append]
  grind

theorem jump_split (f : Fields) : jumpFields (jumpOffset f) f.rd f.opcode = f := by
  obtain ⟨funct7, rs2, rs1, funct3, rd, opcode⟩ := f
  simp only [jumpFields, jumpOffset, Fields.mk.injEq]
  refine ⟨?_, ?_, ?_, ?_, trivial, trivial⟩
  all_goals
    apply BitVec.eq_of_getLsbD_eq
    intro n hn
    simp only [BitVec.getLsbD_extractLsb, BitVec.getLsbD_append]
    grind

theorem jump_join (offset : BitVec 20) (rd : Reg) (opcode : BitVec 7) :
    jumpOffset (jumpFields offset rd opcode) = offset := by
  apply BitVec.eq_of_getLsbD_eq
  intro n hn
  simp only [jumpFields, jumpOffset, BitVec.getLsbD_extractLsb, BitVec.getLsbD_append]
  grind

theorem upper_split (f : Fields) : upperFields (upperImm f) f.rd f.opcode = f := by
  obtain ⟨funct7, rs2, rs1, funct3, rd, opcode⟩ := f
  simp only [upperFields, upperImm, Fields.mk.injEq]
  refine ⟨?_, ?_, ?_, ?_, trivial, trivial⟩
  all_goals
    apply BitVec.eq_of_getLsbD_eq
    intro n hn
    simp only [BitVec.getLsbD_extractLsb, BitVec.getLsbD_append]
    grind

theorem upper_join (imm : BitVec 20) (rd : Reg) (opcode : BitVec 7) : upperImm (upperFields imm rd opcode) = imm := by
  apply BitVec.eq_of_getLsbD_eq
  intro n hn
  simp only [upperFields, upperImm, BitVec.getLsbD_extractLsb, BitVec.getLsbD_append]
  grind

/-- Whatever is read from the fields has these fields. -/
def Reads (f : Fields) (o : Option Instr) : Prop := ∀ i, o = some i → i.fields = f

variable {f : Fields}

theorem reads_some {i : Instr} (h : i.fields = f) : Reads f (some i) := by
  rintro _ ⟨⟩
  exact h

theorem reads_none : Reads f none := fun _ h => by cases h

theorem reads_map {α : Type} {o : Option α} {g : α → Instr} (h : ∀ x, o = some x → (g x).fields = f) :
    Reads f (o.map g) := by
  intro i hi
  obtain ⟨x, hx, rfl⟩ := Option.map_eq_some_iff.mp hi
  exact h x hx

theorem reads_ite {q : Prop} [Decidable q] {a b : Option Instr} (ha : q → Reads f a) (hb : ¬ q → Reads f b) :
    Reads f (if q then a else b) := iteInduction ha hb

theorem reads_imm (hop : f.opcode = opImm) : Reads f f.imm := by
  rw [Fields.imm]
  cases hf : immTable.find f.funct3 with
  | some op =>
      refine reads_some ?_
      rw [Instr.fields, split_hi, split_lo, immTable.find_eq_some.mp hf, ← hop]
  | none =>
      refine reads_map fun op hkey => ?_
      rw [Instr.fields, shiftTable.find_eq_some.mp hkey, ← hop]

theorem reads_amo (hop : f.opcode = opAmo) : Reads f f.amo := by
  refine reads_ite (fun _ => reads_none) fun h3 => ?_
  have h3 := not_not.mp h3
  refine reads_ite (fun hlr => reads_ite (fun hrs2 => reads_some ?_) fun _ => reads_none) fun _ => ?_
  · rw [Instr.fields, ← hlr, join_order, ← hrs2, ← h3, ← hop]
  · refine reads_ite (fun hsc => reads_some ?_) fun _ => reads_map fun op hkey => ?_
    · rw [Instr.fields, ← hsc, join_order, ← h3, ← hop]
    · rw [Instr.fields, amoTable.find_eq_some.mp hkey, join_order, ← h3, ← hop]

theorem join_csr (x : BitVec 3) : (x.getLsbD 2 = false → 0#1 ++ x.extractLsb 1 0 = x) ∧
    (x.getLsbD 2 = true → 1#1 ++ x.extractLsb 1 0 = x) := by
  revert x
  decide

theorem reads_system (hop : f.opcode = opSystem) : Reads f f.system := by
  refine reads_ite (fun h => reads_some h.symm) fun _ => ?_
  refine reads_ite (fun h => reads_some h.symm) fun _ => ?_
  refine reads_ite (fun h => reads_some h.symm) fun _ => ?_
  refine reads_map fun op hkey => ?_
  have hkey := csrTable.find_eq_some.mp hkey
  cases h2 : f.funct3.getLsbD 2 with
  | false =>
      rw [if_neg Bool.false_ne_true, Instr.fields, split_hi, split_lo, hkey, (join_csr f.funct3).1 h2, ← hop]
  | true => rw [if_pos rfl, Instr.fields, split_hi, split_lo, hkey, (join_csr f.funct3).2 h2, ← hop]

theorem reads_instr (f : Fields) : Reads f f.instr := by
  refine reads_ite (fun h => reads_some ?_) fun _ => ?_
  · rw [Instr.fields, ← h, upper_split]
  refine reads_ite (fun h => reads_some ?_) fun _ => ?_
  · rw [Instr.fields, ← h, upper_split]
  refine reads_ite (fun h => reads_some ?_) fun _ => ?_
  · rw [Instr.fields, ← h, jump_split]
  refine reads_ite (fun h => reads_ite (fun h3 => reads_some ?_) fun _ => reads_none) fun _ => ?_
  · rw [Instr.fields, split_hi, split_lo, ← h3, ← h]
  refine reads_ite (fun h => reads_map fun op hkey => ?_) fun _ => ?_
  · obtain ⟨hhi, hlo⟩ := branch_split f.funct7 f.rd
    rw [Instr.fields, hhi, hlo, branchTable.find_eq_some.mp hkey, ← h]
  refine reads_ite (fun h => reads_map fun op hkey => ?_) fun _ => ?_
  · rw [Instr.fields, split_hi, split_lo, loadTable.find_eq_some.mp hkey, ← h]
  refine reads_ite (fun h => reads_map fun op hkey => ?_) fun _ => ?_
  · rw [Instr.fields, split_hi, split_lo, storeTable.find_eq_some.mp hkey, ← h]
  refine reads_ite reads_imm fun _ => ?_
  refine reads_ite (fun h => reads_map fun op hkey => ?_) fun _ => ?_
  · rw [Instr.fields, regTable.find_eq_some.mp hkey, ← h]
  refine reads_ite reads_amo fun _ => ?_
  refine reads_ite reads_system fun _ => ?_
  refine reads_ite (fun h => reads_some ?_) fun _ => reads_none
  rw [Instr.fields, ← h]

theorem system_csr (h3 : f.funct3 ≠ 0b000#3) :
    f.system = (csrTable.find (f.funct3.extractLsb 1 0)).map fun op =>
      if f.funct3.getLsbD 2 then .csri op f.rd f.rs1 (f.funct7 ++ f.rs2)
      else .csr op f.rd f.rs1 (f.funct7 ++ f.rs2) := by
  rw [Fields.system, if_neg fun h => h3 (congrArg Fields.funct3 h), if_neg fun h => h3 (congrArg Fields.funct3 h),
    if_neg fun h => h3 (congrArg Fields.funct3 h)]

theorem csr_funct3 (op : CsrOp) (b : BitVec 1) : b ++ csrTable.key op ≠ 0b000#3 := by
  cases op <;> revert b <;> decide

theorem instr_fields (i : Instr) : i.fields.instr = some i := by
  cases i with
  | lui rd imm => exact congrArg (fun x => some (Instr.lui rd x)) (upper_join imm rd opLui)
  | auipc rd imm => exact congrArg (fun x => some (Instr.auipc rd x)) (upper_join imm rd opAuipc)
  | jal rd offset => exact congrArg (fun x => some (Instr.jal rd x)) (jump_join offset rd opJal)
  | jalr rd rs1 offset => exact congrArg (fun x => some (Instr.jalr rd rs1 x)) (join_split offset)
  | branch op rs1 rs2 offset =>
      change (branchTable.find (branchTable.key op)).map _ = _
      rw [branchTable.find_key]
      exact congrArg (fun x => some (Instr.branch op rs1 rs2 x)) (branch_join offset)
  | load op rd rs1 offset =>
      change (loadTable.find (loadTable.key op)).map _ = _
      rw [loadTable.find_key]
      exact congrArg (fun x => some (Instr.load op rd rs1 x)) (join_split offset)
  | store op rs1 rs2 offset =>
      change (storeTable.find (storeTable.key op)).map _ = _
      rw [storeTable.find_key]
      exact congrArg (fun x => some (Instr.store op rs1 rs2 x)) (join_split offset)
  | aluImm op rd rs1 imm =>
      have himm : (Instr.aluImm op rd rs1 imm).fields.imm =
          some (.aluImm op rd rs1 (imm.extractLsb 11 5 ++ imm.extractLsb 4 0)) := by cases op <;> rfl
      exact himm.trans (congrArg (fun x => some (Instr.aluImm op rd rs1 x)) (join_split imm))
  | shift op rd rs1 shamt => cases op <;> rfl
  | alu op rd rs1 rs2 =>
      change (regTable.find (regTable.key op)).map _ = _
      rw [regTable.find_key]
      rfl
  | lr order rd rs1 =>
      have hamo : (Instr.lr order rd rs1).fields.amo = some (.lr order rd rs1) := by
        simp only [Fields.amo, Instr.fields, order_hi, order_lo]
        rfl
      exact hamo
  | sc order rd rs1 rs2 =>
      have hamo : (Instr.sc order rd rs1 rs2).fields.amo = some (.sc order rd rs1 rs2) := by
        simp only [Fields.amo, Instr.fields, order_hi, order_lo]
        rfl
      exact hamo
  | amo op order rd rs1 rs2 =>
      have hamo : (Instr.amo op order rd rs1 rs2).fields.amo = some (.amo op order rd rs1 rs2) := by
        simp only [Fields.amo, Instr.fields, order_hi, order_lo]
        cases op <;> rfl
      exact hamo
  | csr op rd rs1 addr =>
      have hsystem : (Instr.csr op rd rs1 addr).fields.system = some (.csr op rd rs1 addr) := by
        rw [system_csr (csr_funct3 op _)]
        simp only [Instr.fields, join_split]
        cases op <;> rfl
      exact hsystem
  | csri op rd imm addr =>
      have hsystem : (Instr.csri op rd imm addr).fields.system = some (.csri op rd imm addr) := by
        rw [system_csr (csr_funct3 op _)]
        simp only [Instr.fields, join_split]
        cases op <;> rfl
      exact hsystem
  | fence funct7 rs2 rs1 funct3 rd => rfl
  | ecall => rfl
  | ebreak => rfl
  | mret => rfl

/-- Decoding and encoding are inverse to each other: a word is read as an
instruction exactly if it is the word of that instruction. -/
theorem decodeWord_eq_some (w : Word) (i : Instr) : decodeWord w = some i ↔ encode i = w := by
  constructor
  · intro h
    rw [encode, reads_instr _ i h, word_ofWord]
  · rintro rfl
    rw [decodeWord, encode, ofWord_word, instr_fields]

end RoundTrip

end VMate.Isa
