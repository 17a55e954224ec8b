import VMate.IeeeOrder

namespace VMate.Ieee

open Rounding

section Arithmetic

variable {K : Type*} [Field K]

/-- The exact results of the operations on data. A NaN that results is marked
signaling when the operation is invalid. -/
def Datum.neg : Datum K → Datum K
  | .finite s x => .finite (!s) (-x)
  | .inf s => .inf (!s)
  | .nan s => .nan s

def Datum.negIf (n : Bool) (d : Datum K) : Datum K := if n then d.neg else d

theorem Datum.negIf_finite (n s : Bool) (x : K) : (Datum.finite s x).negIf n = .finite (s ^^ n) (signed n x) := by
  cases n <;> simp [Datum.negIf, Datum.neg, signed]

theorem Datum.negIf_inf (n s : Bool) : (Datum.inf s : Datum K).negIf n = .inf (s ^^ n) := by
  cases n <;> simp [Datum.negIf, Datum.neg]

theorem Datum.negIf_nan (n s : Bool) : (Datum.nan s : Datum K).negIf n = .nan s := by
  cases n <;> rfl

/-- The sign of an exact zero sum counts for zero sums only. -/
def Datum.add (m : Mode) : Datum K → Datum K → Datum K
  | .nan s, d => .nan (s || d.isSignaling)
  | d, .nan s => .nan (d.isSignaling || s)
  | .finite s x, .finite t y => .finite (if s = t then s else decide (m = .down)) (x + y)
  | .finite _ _, .inf t => .inf t
  | .inf s, .finite _ _ => .inf s
  | .inf s, .inf t => if s = t then .inf s else .nan true

variable [DecidableEq K]

def Datum.mul : Datum K → Datum K → Datum K
  | .nan s, d => .nan (s || d.isSignaling)
  | d, .nan s => .nan (d.isSignaling || s)
  | .finite s x, .finite t y => .finite (s ^^ t) (x * y)
  | .finite s x, .inf t => if x = 0 then .nan true else .inf (s ^^ t)
  | .inf s, .finite t y => if y = 0 then .nan true else .inf (s ^^ t)
  | .inf s, .inf t => .inf (s ^^ t)

/-- A quotient by zero is infinite; `divByZero` tells when that is an
exception of its own. -/
def Datum.div : Datum K → Datum K → Datum K
  | .nan s, d => .nan (s || d.isSignaling)
  | d, .nan s => .nan (d.isSignaling || s)
  | .finite s x, .finite t y =>
      if y = 0 then if x = 0 then .nan true else .inf (s ^^ t) else .finite (s ^^ t) (x / y)
  | .finite s _, .inf t => .finite (s ^^ t) 0
  | .inf s, .finite t _ => .inf (s ^^ t)
  | .inf _, .inf _ => .nan true

def Datum.divByZero : Datum K → Datum K → Bool
  | .finite _ x, .finite _ y => decide (y = 0 ∧ x ≠ 0)
  | _, _ => false

def Datum.isInf : Datum K → Bool
  | .inf _ => true
  | _ => false

def Datum.isZero : Datum K → Bool
  | .finite _ x => decide (x = 0)
  | _ => false

section Classes

variable (s : Bool) (x : K)

omit [Field K] [DecidableEq K] in
@[simp] theorem Datum.isInf_finite : (Datum.finite s x).isInf = false := rfl

omit [Field K] [DecidableEq K] in
@[simp] theorem Datum.isInf_inf : (Datum.inf s : Datum K).isInf = true := rfl

omit [Field K] [DecidableEq K] in
@[simp] theorem Datum.isInf_nan : (Datum.nan s : Datum K).isInf = false := rfl

@[simp] theorem Datum.isZero_finite : (Datum.finite s x).isZero = decide (x = 0) := rfl

@[simp] theorem Datum.isZero_inf : (Datum.inf s : Datum K).isZero = false := rfl

@[simp] theorem Datum.isZero_nan : (Datum.nan s : Datum K).isZero = false := rfl

end Classes

section Finite

variable {d d' : Datum K} {s : Bool} {x : K}

omit [DecidableEq K] in
theorem Datum.finite_of_negIf {n : Bool} (h : d.negIf n = .finite s x) : ∃ t y, d = .finite t y := by
  cases d with
  | finite t y => exact ⟨t, y, rfl⟩
  | inf t =>
      rw [Datum.negIf_inf] at h
      cases h
  | nan t =>
      rw [Datum.negIf_nan] at h
      cases h

omit [DecidableEq K] in
theorem Datum.finite_of_add {m : Mode} (h : d.add m d' = .finite s x) :
    ∃ t y t' y', d = .finite t y ∧ d' = .finite t' y' := by
  cases d with
  | finite t y =>
      cases d' with
      | finite t' y' => exact ⟨t, y, t', y', rfl, rfl⟩
      | inf t' => cases h
      | nan t' => cases h
  | inf t =>
      cases d' with
      | inf t' =>
          rw [Datum.add] at h
          split_ifs at h
      | _ => cases h
  | nan t => cases h

theorem Datum.finite_of_mul (h : d.mul d' = .finite s x) : ∃ t y t' y', d = .finite t y ∧ d' = .finite t' y' := by
  cases d with
  | finite t y =>
      cases d' with
      | finite t' y' => exact ⟨t, y, t', y', rfl, rfl⟩
      | inf t' =>
          rw [Datum.mul] at h
          split_ifs at h
      | nan t' => cases h
  | inf t =>
      cases d' with
      | finite t' y' =>
          rw [Datum.mul] at h
          split_ifs at h
      | _ => cases h
  | nan t => cases h

end Finite

theorem Datum.mul_finite_one (d : Datum K) : d.mul (.finite false 1) = d := by
  cases d with
  | finite s x => rw [Datum.mul, Bool.xor_false, mul_one]
  | inf s => rw [Datum.mul, if_neg one_ne_zero, Bool.xor_false]
  | nan s => exact congrArg Datum.nan (Bool.or_false s)

theorem Datum.div_nan (d : Datum K) (t : Bool) : d.div (.nan t) = .nan (d.isSignaling || t) := by
  cases d <;> rfl

/-- A product with a zero of its own sign added. -/
theorem Datum.mul_add_zero (m : Mode) (d d' : Datum K) {s : Bool}
    (h : ∀ t x t' y, d = .finite t x → d' = .finite t' y → s = (t ^^ t')) :
    (d.mul d').add m (.finite s 0) = d.mul d' := by
  cases d with
  | finite t x =>
      cases d' with
      | finite t' y => simp [Datum.mul, Datum.add, h t x t' y rfl rfl]
      | inf t' =>
          rw [Datum.mul]
          split_ifs <;> rfl
      | nan t' => simp [Datum.mul, Datum.add]
  | inf t =>
      cases d' with
      | finite t' y =>
          rw [Datum.mul]
          split_ifs <;> rfl
      | inf t' => rfl
      | nan t' => simp [Datum.mul, Datum.add]
  | nan t => simp [Datum.mul, Datum.add]

end Arithmetic

end VMate.Ieee
