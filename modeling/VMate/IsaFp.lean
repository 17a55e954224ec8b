import VMate.IeeeArith
import VMate.IsaExec
import VMate.RootRounding
import Mathlib.Data.Rat.Floor

namespace VMate.IsaFp

open Bytes Isa IsaExec Rounding Ieee

section Syntax

inductive Fmt where
  | single | double
  deriving DecidableEq, Repr

inductive FusedOp where
  | madd | msub | nmsub | nmadd
  deriving DecidableEq, Repr

inductive ArithOp where
  | add | sub | mul | div
  deriving DecidableEq, Repr

inductive SignOp where
  | copy | negate | xor
  deriving DecidableEq, Repr

inductive PickOp where
  | min | max
  deriving DecidableEq, Repr

inductive CmpOp where
  | le | lt | eq
  deriving DecidableEq, Repr

/-- The operations on the FP registers. `convert` goes to the given format from
the other one; `rm` is the rounding mode field. -/
inductive FpOp where
  | fused (op : FusedOp) (fmt : Fmt) (rm : BitVec 3) (rd rs1 rs2 rs3 : Reg)
  | arith (op : ArithOp) (fmt : Fmt) (rm : BitVec 3) (rd rs1 rs2 : Reg)
  | sqrt (fmt : Fmt) (rm : BitVec 3) (rd rs1 : Reg)
  | sign (op : SignOp) (fmt : Fmt) (rd rs1 rs2 : Reg)
  | pick (op : PickOp) (fmt : Fmt) (rd rs1 rs2 : Reg)
  | convert (fmt : Fmt) (rm : BitVec 3) (rd rs1 : Reg)
  | compare (op : CmpOp) (fmt : Fmt) (rd rs1 rs2 : Reg)
  | toInt (isUnsigned : Bool) (fmt : Fmt) (rm : BitVec 3) (rd rs1 : Reg)
  | ofInt (isUnsigned : Bool) (fmt : Fmt) (rm : BitVec 3) (rd rs1 : Reg)
  | classify (fmt : Fmt) (rd rs1 : Reg)
  | moveToInt (rd rs1 : Reg)
  | moveOfInt (rd rs1 : Reg)
  deriving DecidableEq, Repr

/-- The F and D extensions of RV32. -/
inductive FpInstr where
  | load (fmt : Fmt) (rd rs1 : Reg) (offset : BitVec 12)
  | store (fmt : Fmt) (rs1 rs2 : Reg) (offset : BitVec 12)
  | op (o : FpOp)
  deriving DecidableEq, Repr

def Fmt.other : Fmt → Fmt
  | .single => .double
  | .double => .single

end Syntax

section Words

def opLoadFp : BitVec 7 := 0b0000111#7
def opStoreFp : BitVec 7 := 0b0100111#7
def opFp : BitVec 7 := 0b1010011#7

def Fmt.code : Fmt → BitVec 2
  | .single => 0b00#2
  | .double => 0b01#2

def Fmt.width : Fmt → BitVec 3
  | .single => 0b010#3
  | .double => 0b011#3

def Fmt.bytes : Fmt → Nat
  | .single => 4
  | .double => 8

def FusedOp.opcode : FusedOp → BitVec 7
  | .madd => 0b1000011#7
  | .msub => 0b1000111#7
  | .nmsub => 0b1001011#7
  | .nmadd => 0b1001111#7

def ArithOp.code : ArithOp → BitVec 5
  | .add => 0b00000#5
  | .sub => 0b00001#5
  | .mul => 0b00010#5
  | .div => 0b00011#5

def SignOp.code : SignOp → BitVec 3
  | .copy => 0b000#3
  | .negate => 0b001#3
  | .xor => 0b010#3

def PickOp.code : PickOp → BitVec 3
  | .min => 0b000#3
  | .max => 0b001#3

def CmpOp.code : CmpOp → BitVec 3
  | .le => 0b000#3
  | .lt => 0b001#3
  | .eq => 0b010#3

def unsignedCode (isUnsigned : Bool) : BitVec 5 := if isUnsigned then 0b00001#5 else 0b00000#5

def FpOp.fields : FpOp → Fields
  | .fused op fmt rm rd rs1 rs2 rs3 => ⟨rs3 ++ fmt.code, rs2, rs1, rm, rd, op.opcode⟩
  | .arith op fmt rm rd rs1 rs2 => ⟨op.code ++ fmt.code, rs2, rs1, rm, rd, opFp⟩
  | .sqrt fmt rm rd rs1 => ⟨0b01011#5 ++ fmt.code, 0b00000#5, rs1, rm, rd, opFp⟩
  | .sign op fmt rd rs1 rs2 => ⟨0b00100#5 ++ fmt.code, rs2, rs1, op.code, rd, opFp⟩
  | .pick op fmt rd rs1 rs2 => ⟨0b00101#5 ++ fmt.code, rs2, rs1, op.code, rd, opFp⟩
  | .convert fmt rm rd rs1 => ⟨0b01000#5 ++ fmt.code, 0b000#3 ++ fmt.other.code, rs1, rm, rd, opFp⟩
  | .compare op fmt rd rs1 rs2 => ⟨0b10100#5 ++ fmt.code, rs2, rs1, op.code, rd, opFp⟩
  | .toInt isUnsigned fmt rm rd rs1 => ⟨0b11000#5 ++ fmt.code, unsignedCode isUnsigned, rs1, rm, rd, opFp⟩
  | .ofInt isUnsigned fmt rm rd rs1 => ⟨0b11010#5 ++ fmt.code, unsignedCode isUnsigned, rs1, rm, rd, opFp⟩
  | .classify fmt rd rs1 => ⟨0b11100#5 ++ fmt.code, 0b00000#5, rs1, 0b001#3, rd, opFp⟩
  | .moveToInt rd rs1 => ⟨0b1110000#7, 0b00000#5, rs1, 0b000#3, rd, opFp⟩
  | .moveOfInt rd rs1 => ⟨0b1111000#7, 0b00000#5, rs1, 0b000#3, rd, opFp⟩

def FpInstr.fields : FpInstr → Fields
  | .load fmt rd rs1 offset => ⟨offset.extractLsb 11 5, offset.extractLsb 4 0, rs1, fmt.width, rd, opLoadFp⟩
  | .store fmt rs1 rs2 offset => ⟨offset.extractLsb 11 5, rs2, rs1, fmt.width, offset.extractLsb 4 0, opStoreFp⟩
  | .op o => o.fields

def encodeFp (i : FpInstr) : Word := i.fields.word

end Words

section Values

/-- A single lies in the low half of a register, below ones. -/
def boxed (x : BitVec 32) : BitVec 64 := 0xFFFFFFFF#32 ++ x

/-- The single in a register. What is not boxed counts as a quiet NaN. -/
def unboxed (x : BitVec 64) : BitVec 32 :=
  if x.extractLsb 63 32 = 0xFFFFFFFF#32 then x.extractLsb 31 0 else 0x7FC00000#32

def Fmt.canonicalNan : Fmt → BitVec 64
  | .single => boxed 0x7FC00000#32
  | .double => 0x7FF8000000000000#64

def Fmt.format : Fmt → Format
  | .single => binary32
  | .double => binary64

/-- The datum that a register holds. -/
def Fmt.value (fmt : Fmt) (x : BitVec 64) : Datum ℚ :=
  match fmt with
  | .single => binary32.ofFields ((unboxed x).getLsbD 31) ((unboxed x).extractLsb 30 23).toNat
      ((unboxed x).extractLsb 22 0).toNat
  | .double => binary64.ofFields (x.getLsbD 63) (x.extractLsb 62 52).toNat (x.extractLsb 51 0).toNat

/-- Invalid operation, division by zero, overflow, underflow and inexact. -/
def raised (nv dz of uf nx : Bool) : BitVec 5 :=
  BitVec.ofBool nv ++ BitVec.ofBool dz ++ BitVec.ofBool of ++ BitVec.ofBool uf ++ BitVec.ofBool nx

def modeTable : Table Mode (BitVec 3) where
  all := [.nearestEven, .towardZero, .down, .up, .nearestAway]
  key
    | .nearestEven => 0b000#3
    | .towardZero => 0b001#3
    | .down => 0b010#3
    | .up => 0b011#3
    | .nearestAway => 0b100#3
  complete x := by cases x <;> decide
  nodup := by decide

/-- A result register with the flags that are raised. -/
abbrev Result := BitVec 64 × BitVec 5

end Values

section Arithmetic

variable (fmt : Fmt) (mode : Mode)

def exactFused (op : FusedOp) (a b c : Datum ℚ) : Datum ℚ :=
  match op with
  | .madd => (a.mul b).add mode c
  | .msub => (a.mul b).add mode c.neg
  | .nmsub => (a.mul b).neg.add mode c
  | .nmadd => (a.mul b).neg.add mode c.neg

def exactArith (op : ArithOp) (a b : Datum ℚ) : Datum ℚ :=
  match op with
  | .add => a.add mode b
  | .sub => a.add mode b.neg
  | .mul => a.mul b
  | .div => a.div b

def Delivered (o : Outcome ℚ) (r : Result) : Prop :=
  fmt.value r.1 = o.datum ∧ r.2 = raised false false o.of o.uf o.nx

/-- The result for an exact datum: a number is rounded, NaNs are canonical. An
infinity is exact unless it comes from a division by zero. -/
def Rounded (dz : Bool) (d : Datum ℚ) (r : Result) : Prop :=
  match d with
  | .finite s x => Delivered fmt (ieee fmt.format mode s x) r
  | .inf s => fmt.value r.1 = .inf s ∧ r.2 = raised false dz false false false
  | .nan invalid => r = (fmt.canonicalNan, raised invalid false false false false)

/-- The square root of a zero is that zero, and of infinity infinity. -/
def RootOf (d : Datum ℚ) (r : Result) : Prop :=
  match d with
  | .finite s x =>
      if x = 0 then fmt.value r.1 = .finite s 0 ∧ r.2 = 0#5
      else if x < 0 then r = (fmt.canonicalNan, raised true false false false false)
      else Delivered fmt (ieeeRoot fmt.format mode x) r
  | .inf s =>
      if s then r = (fmt.canonicalNan, raised true false false false false)
      else fmt.value r.1 = .inf false ∧ r.2 = 0#5
  | .nan signaling => r = (fmt.canonicalNan, raised signaling false false false false)

def newSign (op : SignOp) (s t : Bool) : Bool :=
  match op with
  | .copy => t
  | .negate => !t
  | .xor => s ^^ t

/-- The first operand with a sign that depends on that of the second. -/
def injectSign (op : SignOp) (x y : BitVec 64) : BitVec 64 :=
  match fmt with
  | .single =>
      boxed (BitVec.ofBool (newSign op ((unboxed x).getLsbD 31) ((unboxed y).getLsbD 31)) ++
        (unboxed x).extractLsb 30 0)
  | .double => BitVec.ofBool (newSign op (x.getLsbD 63) (y.getLsbD 63)) ++ x.extractLsb 62 0

def better (op : PickOp) (d d' : Datum ℚ) : Prop :=
  match op with
  | .min => d.Below d'
  | .max => d'.Below d

/-- A NaN loses against a number, and -0 lies below +0. -/
structure Picked (op : PickOp) (x y : BitVec 64) (r : Result) : Prop where
  none : (fmt.value x).isNan = true → (fmt.value y).isNan = true → r.1 = fmt.canonicalNan
  right : (fmt.value x).isNan = true → (fmt.value y).isNan = false → r.1 = y
  left : (fmt.value x).isNan = false → (fmt.value y).isNan = true → r.1 = x
  best : (fmt.value x).isNan = false → (fmt.value y).isNan = false →
    r.1 = x ∧ ¬ better op (fmt.value y) (fmt.value x) ∨ r.1 = y ∧ ¬ better op (fmt.value x) (fmt.value y)
  flags : r.2 = raised ((fmt.value x).isSignaling || (fmt.value y).isSignaling) false false false false

def related (op : CmpOp) (a b : WithBot (WithTop ℚ)) : Prop :=
  match op with
  | .le => a ≤ b
  | .lt => a < b
  | .eq => a = b

def unordered (op : CmpOp) (d : Datum ℚ) : Bool :=
  match op with
  | .le | .lt => d.isNan
  | .eq => d.isSignaling

/-- A comparison with a NaN is false; equality is quiet. -/
structure Compared (op : CmpOp) (d d' : Datum ℚ) (r : Result) : Prop where
  holds : (∃ a b, d.value = some a ∧ d'.value = some b ∧ related op a b) → r.1 = 1#64
  fails : (¬ ∃ a b, d.value = some a ∧ d'.value = some b ∧ related op a b) → r.1 = 0#64
  flags : r.2 = raised (unordered op d || unordered op d') false false false false

def leastInt (isUnsigned : Bool) : ℤ := if isUnsigned then 0 else -2 ^ 31

def greatestInt (isUnsigned : Bool) : ℤ := if isUnsigned then 2 ^ 32 - 1 else 2 ^ 31 - 1

/-- The integer next to a datum. Out of range it is the bound on that side,
and the bound above for a NaN. -/
def nearestInt (isUnsigned : Bool) : Datum ℚ → ℤ × BitVec 5
  | .finite _ x =>
      if roundInt mode x < leastInt isUnsigned then (leastInt isUnsigned, raised true false false false false)
      else if greatestInt isUnsigned < roundInt mode x then
        (greatestInt isUnsigned, raised true false false false false)
      else (roundInt mode x, raised false false false false (decide (Int.fract x ≠ 0)))
  | .inf s => (if s then leastInt isUnsigned else greatestInt isUnsigned, raised true false false false false)
  | .nan _ => (greatestInt isUnsigned, raised true false false false false)

def intValue (isUnsigned : Bool) (x : Word) : ℤ := if isUnsigned then x.toNat else x.toInt

/-- The bit of the class of a datum, from negative infinity to positive
infinity and then the NaNs. -/
def classBit (f : Format) : Datum ℚ → Nat
  | .inf s => if s then 0 else 7
  | .finite s x =>
      if x = 0 then if s then 3 else 4
      else if |x| < 2 ^ f.emin then if s then 2 else 5
      else if s then 1 else 6
  | .nan signaling => if signaling then 8 else 9

end Arithmetic

section Execution

/-- What the FP instructions need of the CSRs on top: whether the unit is off,
the dynamic rounding mode and the accrued flags. -/
class FpCsrs (σ : Type) extends Csrs σ where
  off : σ → Bool
  rounding : σ → BitVec 3
  accrue : σ → BitVec 5 → σ

structure FpMachine (σ : Type) (n : Nat) extends Machine σ n where
  fregs : Reg → BitVec 64

variable {σ : Type} {n : Nat}

inductive Dest where
  | int (rd : Reg)
  | float (rd : Reg)

def FpOp.dest : FpOp → Dest
  | .fused _ _ _ rd _ _ _ | .arith _ _ _ rd _ _ | .sqrt _ _ rd _ | .sign _ _ rd _ _ | .pick _ _ rd _ _
  | .convert _ _ rd _ | .ofInt _ _ _ rd _ | .moveOfInt rd _ => .float rd
  | .compare _ _ rd _ _ | .toInt _ _ _ rd _ | .classify _ rd _ | .moveToInt rd _ => .int rd

/-- The rounding mode field of the operations that round. -/
def FpOp.rm : FpOp → Option (BitVec 3)
  | .fused _ _ rm _ _ _ _ | .arith _ _ rm _ _ _ | .sqrt _ rm _ _ | .convert _ rm _ _ | .toInt _ _ rm _ _
  | .ofInt _ _ rm _ _ => some rm
  | .sign .. | .pick .. | .compare .. | .classify .. | .moveToInt .. | .moveOfInt .. => none

/-- The mode that an operation rounds by; a reserved one is none. -/
def FpOp.mode (o : FpOp) (frm : BitVec 3) : Option Mode :=
  match o.rm with
  | some rm => modeTable.find (if rm = 0b111#3 then frm else rm)
  | none => some .nearestEven

/-- The results that an operation may have. -/
def FpOp.Computes (o : FpOp) (mode : Mode) (m : FpMachine σ n) (r : Result) : Prop :=
  match o with
  | .fused op fmt _ _ rs1 rs2 rs3 =>
      Rounded fmt mode false (exactFused mode op (fmt.value (m.fregs rs1)) (fmt.value (m.fregs rs2))
        (fmt.value (m.fregs rs3))) r
  | .arith op fmt _ _ rs1 rs2 =>
      Rounded fmt mode (decide (op = .div) && (fmt.value (m.fregs rs1)).divByZero (fmt.value (m.fregs rs2)))
        (exactArith mode op (fmt.value (m.fregs rs1)) (fmt.value (m.fregs rs2))) r
  | .sqrt fmt _ _ rs1 => RootOf fmt mode (fmt.value (m.fregs rs1)) r
  | .sign op fmt _ rs1 rs2 => r = (injectSign fmt op (m.fregs rs1) (m.fregs rs2), 0#5)
  | .pick op fmt _ rs1 rs2 => Picked fmt op (m.fregs rs1) (m.fregs rs2) r
  | .convert fmt _ _ rs1 => Rounded fmt mode false (fmt.other.value (m.fregs rs1)) r
  | .compare op fmt _ rs1 rs2 => Compared op (fmt.value (m.fregs rs1)) (fmt.value (m.fregs rs2)) r
  | .toInt isUnsigned fmt _ _ rs1 =>
      (r.1.extractLsb 31 0, r.2) = (nearestInt mode isUnsigned (fmt.value (m.fregs rs1))).map (BitVec.ofInt 32) id
  | .ofInt isUnsigned fmt _ _ rs1 => Rounded fmt mode false (.finite false (intValue isUnsigned (m.reg rs1))) r
  | .classify fmt _ rs1 => r = (1#64 <<< classBit fmt.format (fmt.value (m.fregs rs1)), 0#5)
  | .moveToInt _ rs1 => (r.1.extractLsb 31 0, r.2) = ((m.fregs rs1).extractLsb 31 0, 0#5)
  | .moveOfInt _ rs1 => r = (boxed (m.reg rs1), 0#5)

def loadFp (fmt : Fmt) (f : Nat → BitVec 8) : BitVec 64 :=
  match fmt with
  | .single => boxed (ofBytes f 4)
  | .double => ofBytes f 8

/-- The `k` low bytes of an FP register stored from `addr` on. -/
def storeFp (m : Machine σ n) (addr : Word) (k : Nat) (v : BitVec 64) : Machine σ n :=
  { m with mem := fun a => if (a - addr.setWidth n).toNat < k then byte v (a - addr.setWidth n).toNat else m.mem a }

/-- Where an FP instruction reads or writes memory, and how many bytes. -/
def fpAccess (i : FpInstr) (m : Machine σ n) : Option (Word × Nat) :=
  match i with
  | .load fmt _ rs1 offset | .store fmt rs1 _ offset => some (m.reg rs1 + offset.signExtend 32, fmt.bytes)
  | .op _ => none

def FpWithin (i : FpInstr) (m : Machine σ n) : Prop :=
  ∀ x ∈ fpAccess i m, (x.1.setWidth n).toNat + x.2 ≤ 2 ^ n

variable [FpCsrs σ]

def FpMachine.trap (m : FpMachine σ n) (cause value : Word) : FpMachine σ n :=
  { m with toMachine := m.toMachine.trap cause value }

/-- The destination and the accrued flags take a result. -/
def FpMachine.finish (m : FpMachine σ n) (d : Dest) (r : Result) : FpMachine σ n :=
  let m' := { m.toMachine with csr := FpCsrs.accrue m.csr r.2 }
  match d with
  | .int rd => { m with toMachine := (m'.setReg rd (r.1.extractLsb 31 0)).next }
  | .float rd => ⟨m'.next, Function.update m.fregs rd r.1⟩

/-- What an FP instruction may do. It traps while the unit is off, and with a
reserved rounding mode. -/
def FpInstr.Allows (i : FpInstr) (m m' : FpMachine σ n) : Prop :=
  if FpCsrs.off m.csr then m' = m.trap 2#32 (encodeFp i)
  else match i with
    | .load fmt rd rs1 offset =>
        m' = ⟨m.next, Function.update m.fregs rd (loadFp fmt (m.bytesAt (m.reg rs1 + offset.signExtend 32)))⟩
    | .store fmt rs1 rs2 offset =>
        m' = ⟨(storeFp m.toMachine (m.reg rs1 + offset.signExtend 32) fmt.bytes (m.fregs rs2)).next, m.fregs⟩
    | .op o =>
        match o.mode (FpCsrs.rounding m.csr) with
        | some mode => ∃ r, o.Computes mode m r ∧ m' = m.finish o.dest r
        | none => m' = m.trap 2#32 (encodeFp i)

/-- One instruction of the program `fetch`: an integer instruction does what
`step` says, an FP instruction what is allowed for it. Nothing is said of what
is left open: by `unspecified` words without an instruction, by `spared` FP
instructions in some states. -/
structure Allowed (fetch : Word → Word) (unspecified : Word → Bool) (spared : FpInstr → FpMachine σ n → Prop)
    (m m' : FpMachine σ n) : Prop where
  int : ∀ x, step fetch unspecified m.toMachine = some x → m' = ⟨x, m.fregs⟩
  fp : ∀ i, encodeFp i = fetch m.pc → FpWithin i m.toMachine → ¬ spared i m → i.Allows m m'

end Execution

end VMate.IsaFp
