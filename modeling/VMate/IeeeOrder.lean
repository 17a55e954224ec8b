import VMate.Ieee
import Mathlib.Order.WithBot

namespace VMate.Ieee

open Rounding

/-- The value of a datum among the extended numbers; a NaN has none. -/
def Datum.value {K : Type*} : Datum K → Option (WithBot (WithTop K))
  | .finite _ x => some (x : WithTop K)
  | .inf false => some (⊤ : WithTop K)
  | .inf true => some ⊥
  | .nan _ => none

def Datum.sign {K : Type*} : Datum K → Bool
  | .finite neg _ => neg
  | .inf neg => neg
  | .nan _ => false

def Datum.isNan {K : Type*} : Datum K → Bool
  | .nan _ => true
  | _ => false

def Datum.isSignaling {K : Type*} : Datum K → Bool
  | .nan s => s
  | _ => false

section Classes

variable {K : Type*} (s : Bool) (x : K)

@[simp] theorem Datum.sign_finite : (Datum.finite s x).sign = s := rfl

@[simp] theorem Datum.sign_inf : (Datum.inf s : Datum K).sign = s := rfl

@[simp] theorem Datum.isNan_finite : (Datum.finite s x).isNan = false := rfl

@[simp] theorem Datum.isNan_inf : (Datum.inf s : Datum K).isNan = false := rfl

@[simp] theorem Datum.isNan_nan : (Datum.nan s : Datum K).isNan = true := rfl

@[simp] theorem Datum.isSignaling_finite : (Datum.finite s x).isSignaling = false := rfl

@[simp] theorem Datum.isSignaling_inf : (Datum.inf s : Datum K).isSignaling = false := rfl

@[simp] theorem Datum.isSignaling_nan : (Datum.nan s : Datum K).isSignaling = s := rfl

end Classes

/-- The order of the minimum and maximum operations: by value, and -0 below
+0. -/
def Datum.Below {K : Type*} [LT K] (d d' : Datum K) : Prop :=
  ∃ a b, d.value = some a ∧ d'.value = some b ∧ (a < b ∨ a = b ∧ d.sign = true ∧ d'.sign = false)

namespace Format

variable (f : Format)

/-- A finite magnitude counted in units of the smallest subnormal number. -/
def units (e frac : ℕ) : ℕ := if e = 0 then frac else (2 ^ f.fracBits + frac) * 2 ^ (e - 1)

/-- The two fields read as one number. -/
def magnitude (e frac : ℕ) : ℕ := e * 2 ^ f.fracBits + frac

/-- The sign and the two fields as one integer, which orders the encodings. -/
def key (neg : Bool) (e frac : ℕ) : ℤ := signed neg (f.magnitude e frac : ℤ)

variable {f} {e frac e' frac' : ℕ}

theorem units_lt (h : frac < 2 ^ f.fracBits) : f.units e frac < 2 ^ f.fracBits * 2 ^ e := by
  rw [units]
  split_ifs with he
  · rw [he, pow_zero, Nat.mul_one]
    exact h
  · have hsplit : 2 ^ f.fracBits * 2 ^ e = (2 ^ f.fracBits + 2 ^ f.fracBits) * 2 ^ (e - 1) := by
      rw [← two_mul, mul_comm 2, mul_assoc, ← pow_succ']
      congr 2
      omega
    rw [hsplit]
    exact Nat.mul_lt_mul_of_pos_right (by omega) (Nat.two_pow_pos _)

theorem le_units (he : e ≠ 0) : 2 ^ f.fracBits * 2 ^ (e - 1) ≤ f.units e frac := by
  rw [units, if_neg he]
  exact Nat.mul_le_mul_right _ (Nat.le_add_right _ _)

theorem units_lt_of_lt (h : frac < 2 ^ f.fracBits) (he : e < e') : f.units e frac < f.units e' frac' := by
  refine lt_of_lt_of_le (units_lt h) (le_trans ?_ (le_units (by omega)))
  exact Nat.mul_le_mul_left _ (Nat.pow_le_pow_right two_pos (by omega))

theorem units_lt_iff_same : f.units e frac < f.units e frac' ↔ frac < frac' := by
  rw [units, units]
  split_ifs
  · exact Iff.rfl
  · rw [Nat.mul_lt_mul_right (Nat.two_pow_pos _)]
    omega

/-- The order of the magnitudes is that of the bit patterns. -/
theorem units_lt_iff (h : frac < 2 ^ f.fracBits) (h' : frac' < 2 ^ f.fracBits) :
    f.units e frac < f.units e' frac' ↔ f.magnitude e frac < f.magnitude e' frac' := by
  have hmag {a b c d : ℕ} (hc : c < 2 ^ f.fracBits) (hab : a < b) : f.magnitude a c < f.magnitude b d := by
    have hle : (a + 1) * 2 ^ f.fracBits ≤ b * 2 ^ f.fracBits := Nat.mul_le_mul_right _ hab
    rw [magnitude, magnitude]
    rw [add_mul] at hle
    omega
  rcases lt_trichotomy e e' with he | rfl | he
  · exact iff_of_true (units_lt_of_lt h he) (hmag h he)
  · rw [units_lt_iff_same, magnitude, magnitude]
    omega
  · exact iff_of_false (units_lt_of_lt h' he).asymm (hmag h' he).asymm

theorem units_eq_zero_iff : f.units e frac = 0 ↔ f.magnitude e frac = 0 := by
  have hpos := Nat.two_pow_pos f.fracBits
  rw [magnitude]
  by_cases he : e = 0
  · rw [units, if_pos he, he, Nat.zero_mul, Nat.zero_add]
  · have hle : 2 ^ f.fracBits * 2 ^ (e - 1) ≤ f.units e frac := le_units he
    have hmul := Nat.mul_pos hpos (Nat.two_pow_pos (e - 1))
    have hmul' := Nat.mul_pos (Nat.pos_of_ne_zero he) hpos
    omega

/-- Signed magnitudes are ordered like the keys of their encodings. -/
theorem signed_units_lt_iff (e e' : ℕ) (h : frac < 2 ^ f.fracBits) (h' : frac' < 2 ^ f.fracBits) (neg neg' : Bool) :
    signed neg (f.units e frac : ℤ) < signed neg' (f.units e' frac' : ℤ) ↔ f.key neg e frac < f.key neg' e' frac' := by
  have hlt : f.units e frac < f.units e' frac' ↔ f.magnitude e frac < f.magnitude e' frac' := units_lt_iff h h'
  have hgt : f.units e' frac' < f.units e frac ↔ f.magnitude e' frac' < f.magnitude e frac := units_lt_iff h' h
  have hz : f.units e frac = 0 ↔ f.magnitude e frac = 0 := units_eq_zero_iff
  have hz' : f.units e' frac' = 0 ↔ f.magnitude e' frac' = 0 := units_eq_zero_iff
  rw [key, key]
  generalize f.units e frac = u at *
  generalize f.units e' frac' = u' at *
  generalize f.magnitude e frac = k at *
  generalize f.magnitude e' frac' = k' at *
  cases neg <;> cases neg' <;> simp only [signed, if_true, Bool.false_eq_true, if_false] <;> omega

end Format

section Value

variable {K : Type*} [Field K] [LinearOrder K] [IsStrictOrderedRing K] {f : Format} {neg neg' : Bool}
  {e frac e' frac' : ℕ}

theorem ofFields_finite (he : e ≠ 2 ^ f.expBits - 1) :
    (f.ofFields neg e frac : Datum K) =
      .finite neg (((signed neg (f.units e frac : ℤ) : ℤ) : K) * 2 ^ (f.emin - f.fracBits)) := by
  have hmin : f.emin = 1 - f.emax := rfl
  rw [Format.ofFields, if_neg he, cast_signed, ← signed_mul, Int.cast_natCast, Format.units]
  split_ifs with h0
  · rfl
  · have hsplit : (e : ℤ) - f.emax - f.fracBits = f.emin - f.fracBits + (e - 1 : ℕ) := by omega
    rw [hsplit, two_zpow_add, ← mul_assoc, ← Nat.cast_mul]

theorem magnitude_lt_inf (he : e < 2 ^ f.expBits - 1) (hf : frac < 2 ^ f.fracBits) :
    f.magnitude e frac < f.magnitude (2 ^ f.expBits - 1) 0 := by
  have hle : (e + 1) * 2 ^ f.fracBits ≤ (2 ^ f.expBits - 1) * 2 ^ f.fracBits := Nat.mul_le_mul_right _ he
  rw [add_mul] at hle
  rw [Format.magnitude, Format.magnitude]
  omega

theorem key_bounds (f : Format) (neg : Bool) (e frac : ℕ) :
    -(f.magnitude e frac : ℤ) ≤ f.key neg e frac ∧ f.key neg e frac ≤ f.magnitude e frac := by
  rw [Format.key]
  cases neg <;> simp only [signed, if_true, Bool.false_eq_true, if_false] <;> omega

/-- The encodings of the numbers and infinities are ordered by value as their
keys are; only the two zeros share a key. -/
theorem value_compare (neg neg' : Bool) (he : e < 2 ^ f.expBits) (he' : e' < 2 ^ f.expBits) (hf : frac < 2 ^ f.fracBits)
    (hf' : frac' < 2 ^ f.fracBits) (hn : e = 2 ^ f.expBits - 1 → frac = 0) (hn' : e' = 2 ^ f.expBits - 1 → frac' = 0) :
    ∃ a b, (f.ofFields neg e frac : Datum K).value = some a ∧ (f.ofFields neg' e' frac' : Datum K).value = some b ∧
      (a < b ↔ f.key neg e frac < f.key neg' e' frac') ∧ (a = b ↔ f.key neg e frac = f.key neg' e' frac') := by
  have hinf {neg : Bool} {e frac : ℕ} (h : e = 2 ^ f.expBits - 1) (hn : e = 2 ^ f.expBits - 1 → frac = 0) :
      (f.ofFields neg e frac : Datum K) = .inf neg := by rw [hn h, h, ofFields_inf]
  have hkeyInf (neg : Bool) : f.key neg (2 ^ f.expBits - 1) 0 =
      signed neg (f.magnitude (2 ^ f.expBits - 1) 0 : ℤ) := rfl
  have hpos : 0 < f.magnitude (2 ^ f.expBits - 1) 0 := by
    have hexp := f.two_pow_expBits
    have hemax := f.one_le_emax
    exact Nat.mul_pos (by omega) (Nat.two_pow_pos _)
  by_cases h : e = 2 ^ f.expBits - 1 <;> by_cases h' : e' = 2 ^ f.expBits - 1
  · rw [hinf h hn, hinf h' hn', hn h, hn' h', h, h', hkeyInf, hkeyInf]
    generalize f.magnitude (2 ^ f.expBits - 1) 0 = k at hpos
    cases neg <;> cases neg' <;> refine ⟨_, _, rfl, rfl, ?_⟩ <;> simp [signed] <;> omega
  · have hmag := magnitude_lt_inf (f := f) (show e' < 2 ^ f.expBits - 1 by omega) hf'
    have hkey := key_bounds f neg' e' frac'
    rw [hinf h hn, ofFields_finite h', hn h, h, hkeyInf]
    generalize ((signed neg' (f.units e' frac' : ℤ) : ℤ) : K) * 2 ^ (f.emin - f.fracBits) = x
    generalize f.magnitude (2 ^ f.expBits - 1) 0 = k at hmag
    cases neg <;> refine ⟨_, _, rfl, rfl, ?_⟩ <;> simp [signed] <;> omega
  · have hmag := magnitude_lt_inf (f := f) (show e < 2 ^ f.expBits - 1 by omega) hf
    have hkey := key_bounds f neg e frac
    rw [ofFields_finite h, hinf h' hn', hn' h', h', hkeyInf]
    generalize ((signed neg (f.units e frac : ℤ) : ℤ) : K) * 2 ^ (f.emin - f.fracBits) = x
    generalize f.magnitude (2 ^ f.expBits - 1) 0 = k at hmag
    cases neg' with
    | false =>
        have hx : ((x : WithTop K) : WithBot (WithTop K)) < (⊤ : WithTop K) :=
          WithBot.coe_lt_coe.mpr (WithTop.coe_lt_top x)
        have hk : f.key neg e frac < signed false (k : ℤ) := by
          rw [signed, if_neg Bool.false_ne_true]
          omega
        exact ⟨_, _, rfl, rfl, iff_of_true hx hk, iff_of_false hx.ne hk.ne⟩
    | true =>
        refine ⟨_, _, rfl, rfl, ?_⟩
        simp [signed]
        omega
  · rw [ofFields_finite h, ofFields_finite h']
    have hlt := Format.signed_units_lt_iff e e' hf hf' neg neg'
    have hgt := Format.signed_units_lt_iff e' e hf' hf neg' neg
    refine ⟨_, _, rfl, rfl, ?_, ?_⟩
    · rw [WithBot.coe_lt_coe, WithTop.coe_lt_coe, mul_lt_mul_iff_left₀ (two_zpow_pos _), Int.cast_lt]
      exact hlt
    · rw [WithBot.coe_inj, WithTop.coe_inj, mul_left_inj' (two_zpow_pos _).ne', Int.cast_inj]
      omega

theorem ofFields_sign (hn : e = 2 ^ f.expBits - 1 → frac = 0) : (f.ofFields neg e frac : Datum K).sign = neg := by
  by_cases h : e = 2 ^ f.expBits - 1
  · rw [hn h, h, ofFields_inf]
    rfl
  · rw [ofFields_finite h]
    rfl

theorem magnitude_inj (hf : frac < 2 ^ f.fracBits) (hf' : frac' < 2 ^ f.fracBits)
    (h : f.magnitude e frac = f.magnitude e' frac') : e = e' ∧ frac = frac' := by
  have hdiv (a : ℕ) {b : ℕ} (hb : b < 2 ^ f.fracBits) : f.magnitude a b / 2 ^ f.fracBits = a := by
    rw [Format.magnitude, mul_comm, Nat.mul_add_div (Nat.two_pow_pos _), Nat.div_eq_of_lt hb, Nat.add_zero]
  obtain rfl : e = e' := by rw [← hdiv e hf, h, hdiv e' hf']
  exact ⟨rfl, Nat.add_left_cancel h⟩

/-- A datum that is not a NaN has one encoding. -/
theorem ofFields_inj (he : e < 2 ^ f.expBits) (he' : e' < 2 ^ f.expBits) (hf : frac < 2 ^ f.fracBits)
    (hf' : frac' < 2 ^ f.fracBits) (hn : e = 2 ^ f.expBits - 1 → frac = 0) (hn' : e' = 2 ^ f.expBits - 1 → frac' = 0)
    (h : (f.ofFields neg e frac : Datum K) = f.ofFields neg' e' frac') : neg = neg' ∧ e = e' ∧ frac = frac' := by
  obtain ⟨a, b, ha, hb, -, heq⟩ := value_compare (K := K) neg neg' he he' hf hf' hn hn'
  have hsign : neg = neg' := (ofFields_sign (K := K) hn).symm.trans ((congrArg Datum.sign h).trans (ofFields_sign hn'))
  have hkey : f.key neg e frac = f.key neg' e' frac' := by
    rw [← heq]
    rw [h, hb] at ha
    exact (Option.some.inj ha).symm
  refine ⟨hsign, magnitude_inj hf hf' ?_⟩
  rw [hsign, Format.key, Format.key] at hkey
  cases neg' <;> simp only [signed, if_true, Bool.false_eq_true, if_false] at hkey <;> omega

end Value

end VMate.Ieee
