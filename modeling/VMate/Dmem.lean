import Mathlib.Data.BitVec
import Mathlib.Logic.Function.Basic

namespace VMate.Dmem

/-- The array has `2 ^ 19` bytes. The map is total: what stands at an index
outside the array is the unknown byte that such a read returns, and no write
reaches it. -/
structure State where
  mem : Nat → BitVec 8
  reservationAddr : BitVec 32
  reservationValid : Bool

structure DmemIn where
  memWrite : Bool
  memRead : Bool
  amoEn : Bool
  amoOp : BitVec 5
  addr : BitVec 32
  writeData : BitVec 64
  memSize : BitVec 3

def memBytes : Nat := 524288

def maskedAddr (addr : BitVec 32) : Nat := (addr.extractLsb 18 0).toNat

def readDataReg (d : State) (i : DmemIn) : BitVec 64 :=
  let b (k : Nat) : BitVec 8 := d.mem (maskedAddr i.addr + k)
  if i.memRead || i.amoEn then
    if i.memSize = 0b000#3 then (b 0).signExtend 64
    else if i.memSize = 0b001#3 then ((b 1 ++ b 0).signExtend 32).setWidth 64
    else if i.memSize = 0b010#3 then (b 3 ++ b 2 ++ b 1 ++ b 0).setWidth 64
    else if i.memSize = 0b100#3 then (b 0).setWidth 64
    else if i.memSize = 0b101#3 then (b 1 ++ b 0).setWidth 64
    else if i.memSize = 0b011#3 then b 7 ++ b 6 ++ b 5 ++ b 4 ++ b 3 ++ b 2 ++ b 1 ++ b 0
    else 0#64
  else 0#64

def scSuccess (d : State) (i : DmemIn) : Bool := d.reservationValid && d.reservationAddr == i.addr

def readData (d : State) (i : DmemIn) : BitVec 64 :=
  if i.amoEn && i.amoOp == 0b00011#5 then if scSuccess d i then 0#64 else 1#64 else readDataReg d i

/-- The sum is formed in the 64-bit width of its target, so its carry survives. -/
def amoWriteData (amoOp : BitVec 5) (r w : BitVec 32) : BitVec 64 :=
  if amoOp = 0b00000#5 then r.setWidth 64 + w.setWidth 64
  else if amoOp = 0b00001#5 then w.setWidth 64
  else if amoOp = 0b00100#5 then (r ^^^ w).setWidth 64
  else if amoOp = 0b01000#5 then (r ||| w).setWidth 64
  else if amoOp = 0b01100#5 then (r &&& w).setWidth 64
  else if amoOp = 0b10000#5 then (if r.slt w then r else w).setWidth 64
  else if amoOp = 0b10100#5 then (if w.slt r then r else w).setWidth 64
  else if amoOp = 0b11000#5 then (if r.ult w then r else w).setWidth 64
  else if amoOp = 0b11100#5 then (if w.ult r then r else w).setWidth 64
  else w.setWidth 64

def actualWriteData (d : State) (i : DmemIn) : BitVec 64 :=
  if i.amoEn then amoWriteData i.amoOp ((readDataReg d i).extractLsb 31 0) (i.writeData.extractLsb 31 0)
  else i.writeData

def executeWrite (d : State) (i : DmemIn) : Bool :=
  if i.amoEn then
    if i.amoOp = 0b00010#5 then false else if i.amoOp = 0b00011#5 then scSuccess d i else true
  else i.memWrite

def writeByte (m : Nat → BitVec 8) (a : Nat) (b : BitVec 8) : Nat → BitVec 8 :=
  if a < memBytes then Function.update m a b else m

def writeBytes (m : Nat → BitVec 8) (a : Nat) (data : BitVec 64) : Nat → Nat → BitVec 8
  | 0 => m
  | n + 1 => writeByte (writeBytes m a data n) (a + n) (data.extractLsb' (8 * n) 8)

def storeBytes (memSize : BitVec 3) : Nat :=
  if memSize.extractLsb 1 0 = 0b00#2 then 1
  else if memSize.extractLsb 1 0 = 0b01#2 then 2
  else if memSize.extractLsb 1 0 = 0b10#2 then 4
  else 8

/-- One clock edge of `dmem` outside reset. -/
def dmemTick (d : State) (i : DmemIn) : State :=
  { mem := if executeWrite d i then
      writeBytes d.mem (maskedAddr i.addr) (actualWriteData d i) (storeBytes i.memSize) else d.mem
    reservationAddr := if i.amoEn && i.amoOp == 0b00010#5 then i.addr else d.reservationAddr
    reservationValid := if i.amoEn && i.amoOp == 0b00010#5 then true
      else if i.amoEn && i.amoOp == 0b00011#5 then false else d.reservationValid }

theorem writeBytes_apply (m : Nat → BitVec 8) (a : Nat) (data : BitVec 64) (n j : Nat) :
    writeBytes m a data n j =
      if a ≤ j ∧ j < a + n ∧ j < memBytes then data.extractLsb' (8 * (j - a)) 8 else m j := by
  induction n with
  | zero => rw [writeBytes, if_neg (by omega)]
  | succ n ih =>
      rw [writeBytes, writeByte]
      by_cases hm : a + n < memBytes
      · rw [if_pos hm]
        by_cases hj : j = a + n
        · subst hj
          rw [Function.update_self, if_pos (by omega), Nat.add_sub_cancel_left]
        · rw [Function.update_of_ne hj, ih]
          exact if_congr (by omega) rfl rfl
      · rw [if_neg hm, ih]
        exact if_congr (by omega) rfl rfl

theorem writeBytes_eq_self_iff (m : Nat → BitVec 8) (a : Nat) (data : BitVec 64) (n : Nat) :
    writeBytes m a data n = m ↔ ∀ k < n, a + k < memBytes → m (a + k) = data.extractLsb' (8 * k) 8 := by
  constructor
  · intro h k hk hm
    have hb := congrFun h (a + k)
    rw [writeBytes_apply, if_pos (by omega), Nat.add_sub_cancel_left] at hb
    exact hb.symm
  · intro h
    funext j
    rw [writeBytes_apply]
    split_ifs with hj
    · have hb := h (j - a) (by omega) (by omega)
      rw [show a + (j - a) = j by omega] at hb
      exact hb.symm
    · rfl

end VMate.Dmem
