import Mathlib.Data.BitVec
import Mathlib.Logic.Function.Basic

namespace VMate.RegFile

abbrev IntRegs := BitVec 5 → BitVec 32

abbrev FpRegs := BitVec 5 → BitVec 64

structure WritePort (w : Nat) where
  we : Bool
  rdAddr : BitVec 5
  rdData : BitVec w

/-- A read port of `register_file`: `x0` is zero and a write in progress to
the same register is bypassed. -/
def intRead (regs : IntRegs) (p : WritePort 32) (addr : BitVec 5) : BitVec 32 :=
  if addr = 0#5 then 0#32 else if p.we && p.rdAddr == addr then p.rdData else regs addr

def intWrite (regs : IntRegs) (p : WritePort 32) : IntRegs :=
  if p.we && p.rdAddr != 0#5 then Function.update regs p.rdAddr p.rdData else regs

def fpRead (regs : FpRegs) (p : WritePort 64) (addr : BitVec 5) : BitVec 64 :=
  if p.we && p.rdAddr == addr then p.rdData else regs addr

def fpWrite (regs : FpRegs) (p : WritePort 64) : FpRegs :=
  if p.we then Function.update regs p.rdAddr p.rdData else regs

/-- The value of a register when no write is in progress. -/
def regRead (regs : IntRegs) (addr : BitVec 5) : BitVec 32 := if addr = 0#5 then 0#32 else regs addr

theorem intRead_eq (regs : IntRegs) (p : WritePort 32) (rs : BitVec 5) :
    intRead regs p rs = regRead (intWrite regs p) rs := by
  unfold intRead regRead intWrite
  by_cases h0 : rs = 0#5
  · simp [h0]
  · by_cases hrd : p.rdAddr = rs
    · cases hw : p.we <;> simp [h0, hrd, Function.update]
    · cases hw : p.we <;> by_cases hz : p.rdAddr = 0#5 <;> simp [h0, hrd, hz, Function.update, Ne.symm hrd, Ne.symm h0]

theorem fpRead_eq (fpr : FpRegs) (p : WritePort 64) (rs : BitVec 5) : fpRead fpr p rs = fpWrite fpr p rs := by
  unfold fpRead fpWrite
  cases hw : p.we with
  | false => rfl
  | true =>
      by_cases hrd : p.rdAddr = rs
      · simp [hrd]
      · simp [hrd, Function.update, Ne.symm hrd]

theorem regRead_intWrite (regs : IntRegs) (p : WritePort 32) (rs : BitVec 5) :
    regRead (intWrite regs p) rs =
      if p.we && p.rdAddr != 0#5 && p.rdAddr == rs then p.rdData else regRead regs rs := by
  rw [← intRead_eq]
  unfold intRead regRead
  by_cases h0 : rs = 0#5
  · by_cases hz : p.rdAddr = 0#5 <;> simp [h0, hz]
  · by_cases hrd : p.rdAddr = rs
    · simp [h0, hrd]
    · simp [h0, hrd]

theorem fpWrite_apply (fpr : FpRegs) (p : WritePort 64) (rs : BitVec 5) :
    fpWrite fpr p rs = if p.we && p.rdAddr == rs then p.rdData else fpr rs := (fpRead_eq fpr p rs).symm

theorem intWrite_of_we_false {regs : IntRegs} {p : WritePort 32} (h : p.we = false) : intWrite regs p = regs := by
  simp [intWrite, h]

theorem fpWrite_of_we_false {fpr : FpRegs} {p : WritePort 64} (h : p.we = false) : fpWrite fpr p = fpr := by
  simp [fpWrite, h]

end VMate.RegFile
