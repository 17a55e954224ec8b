import Mathlib.Data.BitVec

namespace VMate.FpUnpack

def rne : BitVec 3 := 0b000#3
def rtz : BitVec 3 := 0b001#3
def rdn : BitVec 3 := 0b010#3
def rup : BitVec 3 := 0b011#3
def rmm : BitVec 3 := 0b100#3

structure FpUnpacked where
  sign : Bool := false
  exp : BitVec 13 := 0
  sig : BitVec 56 := 0
  isZero : Bool := false
  isInf : Bool := false
  isNan : Bool := false
  isSnan : Bool := false
  isQnan : Bool := false
  isSubnormal : Bool := false
  deriving DecidableEq, Repr

def canonicalNan32 : BitVec 64 := 0xFFFFFFFF7FC00000#64

def canonicalNan64 : BitVec 64 := 0x7FF8000000000000#64

def canonicalNan (fmt : BitVec 2) : BitVec 64 := if fmt = 0b00#2 then canonicalNan32 else canonicalNan64

def box (x : BitVec 32) : BitVec 64 := 0xFFFFFFFF#32 ++ x

def isBoxed (x : BitVec 64) : Bool := x.extractLsb 63 32 == 0xFFFFFFFF#32

/-- A single read from a register that is not NaN-boxed is the canonical NaN. -/
def effIn (x : BitVec 64) (fmt : BitVec 2) : BitVec 64 :=
  if fmt = 0b00#2 ∧ isBoxed x = false then canonicalNan32 else x

/-- Position of the highest set bit below `n`, the search loop that the FP
units spell out for their leading zero counts. -/
def leadIndex {w : Nat} (x : BitVec w) : Nat → Option Nat
  | 0 => none
  | i + 1 => if x.getLsbD i then some i else leadIndex x i

def signRaw (x : BitVec 64) (fmt : BitVec 2) : Bool :=
  if fmt = 0b00#2 then (effIn x fmt).getLsbD 31 else (effIn x fmt).getLsbD 63

def expRaw (x : BitVec 64) (fmt : BitVec 2) : BitVec 11 :=
  if fmt = 0b00#2 then 0#3 ++ (effIn x fmt).extractLsb 30 23 else (effIn x fmt).extractLsb 62 52

def fracRaw (x : BitVec 64) (fmt : BitVec 2) : BitVec 52 :=
  if fmt = 0b00#2 then (effIn x fmt).extractLsb 22 0 ++ 0#29 else (effIn x fmt).extractLsb 51 0

def expZero (e : BitVec 11) (fmt : BitVec 2) : Bool :=
  if fmt = 0b00#2 then e.extractLsb 7 0 == 0x00#8 else e == 0x000#11

def expMax (e : BitVec 11) (fmt : BitVec 2) : Bool :=
  if fmt = 0b00#2 then e.extractLsb 7 0 == 0xFF#8 else e == 0x7FF#11

def sigOf (hidden : BitVec 1) (f : BitVec 52) (fmt : BitVec 2) : BitVec 56 :=
  if fmt = 0b00#2 then hidden ++ f.extractLsb 51 29 ++ 0#32 else hidden ++ f ++ 0#3

def fpUnpack (x : BitVec 64) (fmt : BitVec 2) : FpUnpacked :=
  let e := expRaw x fmt
  let f := fracRaw x fmt
  let fracZero := f == 0#52
  let isZero := expZero e fmt && fracZero
  let isInf := expMax e fmt && fracZero
  let isNan := expMax e fmt && !fracZero
  let isSubnormal := expZero e fmt && !fracZero
  { sign := signRaw x fmt
    isZero, isInf, isNan, isSubnormal
    isQnan := isNan && f.getLsbD 51
    isSnan := isNan && !f.getLsbD 51
    exp := if isZero then 0#13
      else if isSubnormal then if fmt = 0b00#2 then 1#13 - 127#13 else 1#13 - 1023#13
      else if isInf || isNan then 0#13
      else if fmt = 0b00#2 then (0#2 ++ e) - 127#13 else (0#2 ++ e) - 1023#13
    sig := if isZero then 0#56
      else if isSubnormal then sigOf 0#1 f fmt
      else sigOf 1#1 f fmt }

end VMate.FpUnpack
