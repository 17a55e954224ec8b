import VMate.Bytes
import VMate.Isa

namespace VMate.IsaExec

open Bytes Isa

/-- What the instructions need of a CSR file: reads and writes by number,
trap entry and trap return. -/
class Csrs (σ : Type) where
  read : σ → BitVec 12 → Word
  write : σ → BitVec 12 → Word → σ
  enter : σ → Word → Word → Word → σ
  vector : σ → Word
  leave : σ → σ
  resume : σ → Word

/-- A hart with a memory of `2 ^ n` bytes, which is repeated all over the
address space. -/
structure Machine (σ : Type) (n : Nat) where
  pc : Word
  regs : Reg → Word
  mem : BitVec n → BitVec 8
  reserved : Option Word
  csr : σ

variable {σ : Type} {n : Nat}

section Machine

def Machine.reg (m : Machine σ n) (r : Reg) : Word := if r = 0#5 then 0#32 else m.regs r

def Machine.setReg (m : Machine σ n) (r : Reg) (v : Word) : Machine σ n :=
  { m with regs := if r = 0#5 then m.regs else Function.update m.regs r v }

def Machine.jump (m : Machine σ n) (pc : Word) : Machine σ n := { m with pc }

def Machine.next (m : Machine σ n) : Machine σ n := m.jump (m.pc + 4#32)

/-- The bytes of memory from `addr` on. -/
def Machine.bytesAt (m : Machine σ n) (addr : Word) (k : Nat) : BitVec 8 :=
  m.mem ((addr + BitVec.ofNat 32 k).setWidth n)

/-- The `k` low bytes of `v` stored from `addr` on. -/
def Machine.storeAt (m : Machine σ n) (addr : Word) (k : Nat) (v : Word) : Machine σ n :=
  { m with mem := fun a => if (a - addr.setWidth n).toNat < k then byte v (a - addr.setWidth n).toNat else m.mem a }

def Machine.wordAt (m : Machine σ n) (addr : Word) : Word := ofBytes (m.bytesAt addr) 4

end Machine

section Operations

def holds (op : BranchOp) (x y : Word) : Bool :=
  match op with
  | .beq => x == y
  | .bne => x != y
  | .blt => x.slt y
  | .bge => !x.slt y
  | .bltu => x.ult y
  | .bgeu => !x.ult y

def loadSize : LoadOp → Nat
  | .lb | .lbu => 1
  | .lh | .lhu => 2
  | .lw => 4

def loadValue (op : LoadOp) (f : Nat → BitVec 8) : Word :=
  match op with
  | .lb => (ofBytes f 1).signExtend 32
  | .lh => (ofBytes f 2).signExtend 32
  | .lw => ofBytes f 4
  | .lbu => (ofBytes f 1).setWidth 32
  | .lhu => (ofBytes f 2).setWidth 32

def storeSize : StoreOp → Nat
  | .sb => 1
  | .sh => 2
  | .sw => 4

def immApply (op : ImmOp) (x y : Word) : Word :=
  match op with
  | .addi => x + y
  | .slti => if x.slt y then 1#32 else 0#32
  | .sltiu => if x.ult y then 1#32 else 0#32
  | .xori => x ^^^ y
  | .ori => x ||| y
  | .andi => x &&& y

def shiftApply (op : ShiftOp) (x : Word) (shamt : BitVec 5) : Word :=
  match op with
  | .slli => x <<< shamt
  | .srli => x >>> shamt
  | .srai => x.sshiftRight' shamt

def regApply (op : RegOp) (x y : Word) : Word :=
  match op with
  | .add => x + y
  | .sub => x - y
  | .sll => x <<< y.extractLsb 4 0
  | .slt => if x.slt y then 1#32 else 0#32
  | .sltu => if x.ult y then 1#32 else 0#32
  | .xor => x ^^^ y
  | .srl => x >>> y.extractLsb 4 0
  | .sra => x.sshiftRight' (y.extractLsb 4 0)
  | .or => x ||| y
  | .and => x &&& y
  | .mul => x * y
  | .mulh => (x.signExtend 64 * y.signExtend 64).extractLsb 63 32
  | .mulhsu => (x.signExtend 64 * y.setWidth 64).extractLsb 63 32
  | .mulhu => (x.setWidth 64 * y.setWidth 64).extractLsb 63 32
  | .div => if y = 0#32 then 0xFFFFFFFF#32 else x.sdiv y
  | .divu => if y = 0#32 then 0xFFFFFFFF#32 else x / y
  | .rem => if y = 0#32 then x else x.srem y
  | .remu => if y = 0#32 then x else x % y

def amoApply (op : AmoOp) (old x : Word) : Word :=
  match op with
  | .swap => x
  | .add => old + x
  | .xor => old ^^^ x
  | .and => old &&& x
  | .or => old ||| x
  | .min => if old.slt x then old else x
  | .max => if x.slt old then old else x
  | .minu => if old.ult x then old else x
  | .maxu => if x.ult old then old else x

def csrApply (op : CsrOp) (old x : Word) : Word :=
  match op with
  | .rw => x
  | .rs => old ||| x
  | .rc => old &&& ~~~x

/-- Setting or clearing with `x0` or the immediate zero does not write. -/
def csrWrites (op : CsrOp) (field : BitVec 5) : Bool :=
  match op with
  | .rw => true
  | .rs | .rc => field != 0#5

end Operations

section Execution

variable [Csrs σ]

/-- Trap entry: the trapping instruction leaves its address and its word. -/
def Machine.trap (m : Machine σ n) (cause value : Word) : Machine σ n :=
  { m with pc := Csrs.vector m.csr, csr := Csrs.enter m.csr m.pc cause value }

def Machine.csrAccess (m : Machine σ n) (op : CsrOp) (rd : Reg) (addr : BitVec 12) (field : BitVec 5) (x : Word) :
    Machine σ n :=
  let old := Csrs.read m.csr addr
  ({ m with csr := if csrWrites op field then Csrs.write m.csr addr (csrApply op old x) else m.csr }.setReg rd old).next

def exec (i : Instr) (m : Machine σ n) : Machine σ n :=
  match i with
  | .lui rd imm => (m.setReg rd (imm ++ 0#12)).next
  | .auipc rd imm => (m.setReg rd (m.pc + (imm ++ 0#12))).next
  | .jal rd offset => (m.setReg rd (m.pc + 4#32)).jump (m.pc + (offset ++ 0#1).signExtend 32)
  | .jalr rd rs1 offset => (m.setReg rd (m.pc + 4#32)).jump ((m.reg rs1 + offset.signExtend 32) &&& ~~~1#32)
  | .branch op rs1 rs2 offset =>
      if holds op (m.reg rs1) (m.reg rs2) then m.jump (m.pc + (offset ++ 0#1).signExtend 32) else m.next
  | .load op rd rs1 offset => (m.setReg rd (loadValue op (m.bytesAt (m.reg rs1 + offset.signExtend 32)))).next
  | .store op rs1 rs2 offset => (m.storeAt (m.reg rs1 + offset.signExtend 32) (storeSize op) (m.reg rs2)).next
  | .aluImm op rd rs1 imm => (m.setReg rd (immApply op (m.reg rs1) (imm.signExtend 32))).next
  | .shift op rd rs1 shamt => (m.setReg rd (shiftApply op (m.reg rs1) shamt)).next
  | .alu op rd rs1 rs2 => (m.setReg rd (regApply op (m.reg rs1) (m.reg rs2))).next
  | .lr _ rd rs1 => ({ m with reserved := some (m.reg rs1) }.setReg rd (m.wordAt (m.reg rs1))).next
  | .sc _ rd rs1 rs2 =>
      if m.reserved = some (m.reg rs1) then
        ({ m.storeAt (m.reg rs1) 4 (m.reg rs2) with reserved := none }.setReg rd 0#32).next
      else ({ m with reserved := none }.setReg rd 1#32).next
  | .amo op _ rd rs1 rs2 =>
      let old := m.wordAt (m.reg rs1)
      ((m.storeAt (m.reg rs1) 4 (amoApply op old (m.reg rs2))).setReg rd old).next
  | .csr op rd rs1 addr => m.csrAccess op rd addr rs1 (m.reg rs1)
  | .csri op rd imm addr => m.csrAccess op rd addr imm (imm.setWidth 32)
  | .fence .. => m.next
  | .ecall => m.trap 11#32 (encode .ecall)
  | .ebreak => m.trap 3#32 (encode .ebreak)
  | .mret => { m with pc := Csrs.resume m.csr, csr := Csrs.leave m.csr }

/-- Where an instruction reads or writes memory, and how many bytes. -/
def access (i : Instr) (m : Machine σ n) : Option (Word × Nat) :=
  match i with
  | .load op _ rs1 offset => some (m.reg rs1 + offset.signExtend 32, loadSize op)
  | .store op rs1 _ offset => some (m.reg rs1 + offset.signExtend 32, storeSize op)
  | .lr _ _ rs1 | .sc _ _ rs1 _ | .amo _ _ _ rs1 _ => some (m.reg rs1, 4)
  | _ => none

/-- The access ends inside the memory. -/
def Within (i : Instr) (m : Machine σ n) : Prop :=
  ∀ x ∈ access i m, (x.1.setWidth n).toNat + x.2 ≤ 2 ^ n

instance (i : Instr) (m : Machine σ n) : Decidable (Within i m) := by
  unfold Within
  infer_instance

/-- One instruction of the program `fetch`. A word that names no instruction
traps, unless `unspecified` leaves open what it does. -/
def step (fetch : Word → Word) (unspecified : Word → Bool) (m : Machine σ n) : Option (Machine σ n) :=
  match decodeWord (fetch m.pc) with
  | some i => if Within i m then some (exec i m) else none
  | none => if unspecified (fetch m.pc) then none else some (m.trap 2#32 (fetch m.pc))

def steps (fetch : Word → Word) (unspecified : Word → Bool) : Nat → Machine σ n → Option (Machine σ n)
  | 0, m => some m
  | k + 1, m => (steps fetch unspecified k m).bind (step fetch unspecified)

variable {fetch : Word → Word} {unspecified : Word → Bool} {m m' : Machine σ n}

theorem step_cases (h : step fetch unspecified m = some m') :
    (∃ i, encode i = fetch m.pc ∧ Within i m ∧ exec i m = m') ∨
      (decodeWord (fetch m.pc) = none ∧ unspecified (fetch m.pc) = false ∧ m.trap 2#32 (fetch m.pc) = m') := by
  rw [step] at h
  cases hi : decodeWord (fetch m.pc) with
  | some i =>
      rw [hi] at h
      by_cases hin : Within i m
      · exact .inl ⟨i, (decodeWord_eq_some _ _).mp hi, hin, by simpa only [if_pos hin, Option.some.injEq] using h⟩
      · simp only [if_neg hin, reduceCtorEq] at h
  | none =>
      rw [hi] at h
      cases ho : unspecified (fetch m.pc) with
      | true => simp only [ho, if_true, reduceCtorEq] at h
      | false => exact .inr ⟨rfl, rfl, by simpa only [ho, Bool.false_eq_true, if_false, Option.some.injEq] using h⟩

/-- What shows a machine step by step shows its runs. -/
theorem steps_of_view {α : Type} (view : α → Machine σ n) (next : α → α)
    (h : ∀ a m, step fetch unspecified (view a) = some m → view (next a) = m) {k : Nat} {a : α}
    (hk : steps fetch unspecified k (view a) = some m) : view (next^[k] a) = m := by
  induction k generalizing m with
  | zero => exact Option.some.inj hk
  | succ k ih =>
      rw [steps, Option.bind_eq_some_iff] at hk
      obtain ⟨mid, hmid, hstep⟩ := hk
      rw [← ih hmid] at hstep
      rw [Function.iterate_succ_apply']
      exact h _ _ hstep

end Execution

end VMate.IsaExec
