import VMate.Rounding

namespace VMate.Ieee

open Rounding

/-- A binary interchange format: the widths of its two fields. -/
structure Format where
  expBits : ℕ
  fracBits : ℕ
  two_le_expBits : 2 ≤ expBits

def binary32 : Format := ⟨8, 23, by decide⟩

def binary64 : Format := ⟨11, 52, by decide⟩

namespace Format

variable (f : Format)

/-- The largest exponent, which is also the bias of the exponent field. -/
def emax : ℤ := 2 ^ (f.expBits - 1) - 1

def emin : ℤ := 1 - f.emax

theorem one_le_emax : 1 ≤ f.emax := by
  have hbits := f.two_le_expBits
  have hpow : 2 ^ 1 ≤ 2 ^ (f.expBits - 1) := Nat.pow_le_pow_right two_pos (by omega)
  have hcast : ((2 ^ (f.expBits - 1) : ℕ) : ℤ) = 2 ^ (f.expBits - 1) := by push_cast; rfl
  rw [emax]
  omega

theorem emin_le_emax : f.emin ≤ f.emax := by
  have := f.one_le_emax
  rw [emin]
  omega

/-- The exponent field holds the biased exponents and two further values. -/
theorem two_pow_expBits : ((2 ^ f.expBits : ℕ) : ℤ) = 2 * f.emax + 2 := by
  have hbits := f.two_le_expBits
  have hpow : (2 : ℤ) ^ f.expBits = 2 * 2 ^ (f.expBits - 1) := by
    rw [← pow_succ']
    congr 1
    omega
  rw [Nat.cast_pow, Nat.cast_ofNat, hpow, emax]
  ring

end Format

/-- What an encoding stands for. The sign of a finite datum matters for the
zeros only. -/
inductive Datum (K : Type*) where
  | finite (neg : Bool) (x : K)
  | inf (neg : Bool)
  | nan (signaling : Bool)

structure Outcome (K : Type*) where
  datum : Datum K
  of : Bool
  uf : Bool
  nx : Bool

section Definitions

variable {K : Type*} [Field K]

/-- The datum with the given sign, exponent field and fraction field. -/
def Format.ofFields (f : Format) (neg : Bool) (e frac : ℕ) : Datum K :=
  if e = 2 ^ f.expBits - 1 then if frac = 0 then .inf neg else .nan (decide (frac < 2 ^ (f.fracBits - 1)))
  else if e = 0 then .finite neg (signed neg (frac * 2 ^ (f.emin - f.fracBits)))
  else .finite neg (signed neg ((2 ^ f.fracBits + frac : ℕ) * 2 ^ (e - f.emax - f.fracBits)))

def Format.maxFinite (f : Format) : K := (2 ^ (f.fracBits + 1) - 1 : ℕ) * 2 ^ (f.emax - f.fracBits)

/-- Overflow goes to infinity where rounding goes away from zero. -/
def toInfinity (m : Mode) (neg : Bool) : Bool :=
  match m with
  | .nearestEven => true
  | .towardZero => false
  | .down => neg
  | .up => !neg
  | .nearestAway => true

theorem ofFields_inf (f : Format) (neg : Bool) : (f.ofFields neg (2 ^ f.expBits - 1) 0 : Datum K) = .inf neg := by
  rw [Format.ofFields, if_pos rfl, if_pos rfl]

theorem ofFields_max (f : Format) (neg : Bool) :
    (f.ofFields neg (2 ^ f.expBits - 2) (2 ^ f.fracBits - 1) : Datum K) = .finite neg (signed neg f.maxFinite) := by
  have hexp := f.two_pow_expBits
  have hemax := f.one_le_emax
  have hpos := Nat.two_pow_pos f.fracBits
  have hsig : 2 ^ f.fracBits + (2 ^ f.fracBits - 1) = 2 ^ (f.fracBits + 1) - 1 := by
    rw [pow_succ]
    omega
  have he : ((2 ^ f.expBits - 2 : ℕ) : ℤ) - f.emax = f.emax := by omega
  rw [Format.ofFields, if_neg (by omega), if_neg (by omega), hsig, he]
  rfl

/-- The largest subnormal number is followed by the smallest normal one in
the fields as well. -/
theorem ofFields_subnormal (f : Format) (neg : Bool) {s : ℕ} (hs : s ≤ 2 ^ f.fracBits) :
    (f.ofFields neg (if 2 ^ f.fracBits ≤ s then 1 else 0) (s % 2 ^ f.fracBits) : Datum K) =
      .finite neg (signed neg ((s : K) * 2 ^ (f.emin - f.fracBits))) := by
  have hexp := f.two_pow_expBits
  have hemax := f.one_le_emax
  split_ifs with h
  · obtain rfl : s = 2 ^ f.fracBits := le_antisymm hs h
    rw [Format.ofFields, if_neg (by omega), if_neg one_ne_zero, Nat.mod_self, Nat.add_zero]
    rfl
  · rw [Format.ofFields, if_neg (by omega), if_pos rfl, Nat.mod_eq_of_lt (by omega)]

theorem ofFields_normal (f : Format) (neg : Bool) {s e : ℕ} {E : ℤ} (hs : 2 ^ f.fracBits ≤ s)
    (hs' : s < 2 ^ (f.fracBits + 1)) (he : (e : ℤ) = E + f.emax) (hlow : -f.emax < E) (hhigh : E ≤ f.emax) :
    (f.ofFields neg e (s % 2 ^ f.fracBits) : Datum K) = .finite neg (signed neg ((s : K) * 2 ^ (E - f.fracBits))) := by
  have hexp := f.two_pow_expBits
  have hmod : s % 2 ^ f.fracBits = s - 2 ^ f.fracBits := by
    rw [Nat.mod_eq_sub_mod hs, Nat.mod_eq_of_lt]
    rw [pow_succ] at hs'
    omega
  rw [Format.ofFields, if_neg (by omega), if_neg (by omega), hmod, Nat.add_sub_cancel' hs, he, add_sub_cancel_right]

variable [LinearOrder K] [FloorRing K] [IsStrictOrderedRing K]

/-- The distance of the neighbours of `x` in the format. -/
def Format.quantum (f : Format) (x : K) : K := 2 ^ (max (Int.log 2 |x|) f.emin - f.fracBits)

/-- The same with the exponent unbounded below. -/
def Format.quantumUnbounded (f : Format) (x : K) : K := 2 ^ (Int.log 2 |x| - f.fracBits)

def roundTo (m : Mode) (q x : K) : K := roundInt m (x / q) * q

/-- The IEEE result of an operation whose exact value is `x`, with its
overflow, underflow and inexact flags. Tininess is detected after rounding. -/
def ieee (f : Format) (m : Mode) (zeroNeg : Bool) (x : K) : Outcome K :=
  let neg := decide (x < 0)
  let y := roundTo m (f.quantum x) x
  let u := roundTo m (f.quantumUnbounded x) x
  if x = 0 then ⟨.finite zeroNeg 0, false, false, false⟩
  else if f.maxFinite < |u| then
    ⟨if toInfinity m neg then .inf neg else .finite neg (signed neg f.maxFinite), true, false, true⟩
  else ⟨.finite neg y, false, decide (|u| < 2 ^ f.emin) && decide (y ≠ x), decide (y ≠ x)⟩

end Definitions

section Powers

variable {K : Type*} [Field K] [LinearOrder K] [IsStrictOrderedRing K]

theorem two_zpow_pos (e : ℤ) : (0 : K) < 2 ^ e := zpow_pos two_pos e

theorem two_zpow_le {d d' : ℤ} (h : d ≤ d') : (2 : K) ^ d ≤ 2 ^ d' := zpow_le_zpow_right₀ one_le_two h

theorem two_zpow_add (d : ℤ) (j : ℕ) : (2 : K) ^ (d + j) = ((2 ^ j : ℕ) : K) * 2 ^ d := by
  rw [zpow_add₀ two_ne_zero, zpow_natCast, mul_comm, Nat.cast_pow, Nat.cast_ofNat]

/-- The ends of the binade of exponent `E`, counted in units of `b` bits. -/
theorem binade_low (E : ℤ) (b : ℕ) : (2 : K) ^ E = (2 ^ b : ℕ) * 2 ^ (E - b) := by
  rw [← two_zpow_add, sub_add_cancel]

theorem binade_high (E : ℤ) (b : ℕ) : (2 : K) ^ (E + 1) = (2 ^ (b + 1) : ℕ) * 2 ^ (E - b) := by
  rw [← two_zpow_add]
  congr 1
  omega

theorem scale_le {a b : ℕ} (d : ℤ) (h : a ≤ b) : (a : K) * 2 ^ d ≤ b * 2 ^ d :=
  mul_le_mul_of_nonneg_right (Nat.cast_le.mpr h) (two_zpow_pos d).le

theorem scale_lt {a b : ℕ} (d : ℤ) (h : a < b) : (a : K) * 2 ^ d < b * 2 ^ d :=
  mul_lt_mul_of_pos_right (Nat.cast_lt.mpr h) (two_zpow_pos d)

theorem abs_dyadic (neg : Bool) (n : ℕ) (e : ℤ) : |signed neg ((n : K) * 2 ^ e)| = n * 2 ^ e := by
  rw [abs_signed, abs_of_nonneg (mul_nonneg (Nat.cast_nonneg n) (two_zpow_pos e).le)]

theorem two_zpow_emax_le (f : Format) : (2 : K) ^ f.emax ≤ f.maxFinite := by
  have hpow : 2 ^ (f.fracBits + 1) = 2 * 2 ^ f.fracBits := pow_succ' 2 f.fracBits
  have hone := Nat.two_pow_pos f.fracBits
  rw [binade_low f.emax f.fracBits]
  exact scale_le _ (by omega)

/-- A significand of `fracBits + 1` bits fits below the largest finite number
unless its exponent is too large, or the next one is and the rounding
carries. -/
theorem maxFinite_lt_iff (f : Format) {q : ℕ} (hlow : 2 ^ f.fracBits ≤ q) (hhigh : q ≤ 2 ^ (f.fracBits + 1)) (E : ℤ) :
    (f.maxFinite : K) < q * 2 ^ (E - f.fracBits) ↔ f.emax < E + if q = 2 ^ (f.fracBits + 1) then 1 else 0 := by
  have hpow : 2 ^ (f.fracBits + 1) = 2 * 2 ^ f.fracBits := pow_succ' 2 f.fracBits
  have hone := Nat.two_pow_pos f.fracBits
  rcases lt_trichotomy E f.emax with hE | rfl | hE
  · have hle : (q : K) * 2 ^ (E - f.fracBits) ≤ f.maxFinite := by
      calc (q : K) * 2 ^ (E - f.fracBits)
          ≤ (2 ^ (f.fracBits + 1) : ℕ) * 2 ^ (E - f.fracBits) := scale_le _ hhigh
        _ = 2 ^ (E + 1) := (binade_high _ _).symm
        _ ≤ 2 ^ f.emax := two_zpow_le (by omega)
        _ ≤ f.maxFinite := two_zpow_emax_le f
    rw [iff_false_left (not_lt.mpr hle)]
    split_ifs <;> omega
  · rw [Format.maxFinite, mul_lt_mul_iff_left₀ (two_zpow_pos _), Nat.cast_lt]
    split_ifs <;> omega
  · have hlt : (f.maxFinite : K) < q * 2 ^ (E - f.fracBits) := by
      calc (f.maxFinite : K) < (2 ^ (f.fracBits + 1) : ℕ) * 2 ^ (f.emax - f.fracBits) := scale_lt _ (by omega)
        _ = 2 ^ (f.emax + 1) := (binade_high _ _).symm
        _ ≤ 2 ^ E := two_zpow_le (by omega)
        _ = (2 ^ f.fracBits : ℕ) * 2 ^ (E - f.fracBits) := binade_low _ _
        _ ≤ q * 2 ^ (E - f.fracBits) := scale_le _ hlow
    rw [iff_true_left hlt]
    split_ifs <;> omega

end Powers

section Dyadic

variable {K : Type*} [Field K] [LinearOrder K] [FloorRing K] [IsStrictOrderedRing K]

theorem roundTo_dyadic (m : Mode) (neg : Bool) (n k : ℕ) {e q : ℤ} (hq : q = e + k) :
    roundTo m (2 ^ q) (signed neg ((n : K) * 2 ^ e)) = signed neg ((roundNat m neg n k : K) * 2 ^ q) := by
  have hscale : (n : K) * 2 ^ e / 2 ^ q = n / 2 ^ k := by
    rw [hq, zpow_add₀ two_ne_zero, zpow_natCast, mul_comm ((2 : K) ^ e), mul_div_mul_right _ _ (two_zpow_pos e).ne']
  rw [roundTo, ← signed_div, hscale, roundInt_signed, cast_signed, Int.cast_natCast, signed_mul]

theorem dyadic_eq_iff (m : Mode) (neg : Bool) (n k : ℕ) {e q : ℤ} (hq : q = e + k) :
    signed neg ((roundNat m neg n k : K) * 2 ^ q) = signed neg ((n : K) * 2 ^ e) ↔ n % 2 ^ k = 0 := by
  have hsigned (a b : K) : signed neg a = signed neg b ↔ a = b := by
    cases neg with
    | false => exact Iff.rfl
    | true => exact neg_inj
  rw [hsigned, ← roundNat_mul_eq_iff m neg, hq, zpow_add₀ two_ne_zero, zpow_natCast, mul_comm ((2 : K) ^ e),
    ← mul_assoc, mul_left_inj' (two_zpow_pos e).ne']
  norm_cast

theorem log_scaled {n L : ℕ} (e : ℤ) (hlow : 2 ^ L ≤ n) (hhigh : n < 2 ^ (L + 1)) :
    Int.log 2 ((n : K) * 2 ^ e) = L + e := by
  have hn : (0 : K) < n := Nat.cast_pos.mpr (lt_of_lt_of_le (Nat.two_pow_pos L) hlow)
  have hpos : (0 : K) < n * 2 ^ e := mul_pos hn (two_zpow_pos e)
  have hle : ((2 : ℕ) : K) ^ (L + e) ≤ n * 2 ^ e := by
    rw [Nat.cast_ofNat, add_comm, two_zpow_add]
    exact scale_le e hlow
  have hlt : (n : K) * 2 ^ e < ((2 : ℕ) : K) ^ (L + e + 1) := by
    rw [Nat.cast_ofNat, add_right_comm, ← Nat.cast_succ, add_comm, two_zpow_add]
    exact scale_lt e hhigh
  apply le_antisymm
  · exact Int.lt_add_one_iff.mp ((Int.lt_zpow_iff_log_lt one_lt_two hpos).mp hlt)
  · exact (Int.zpow_le_iff_le_log one_lt_two hpos).mp hle

theorem log_dyadic (neg : Bool) {n L : ℕ} (e : ℤ) (hlow : 2 ^ L ≤ n) (hhigh : n < 2 ^ (L + 1)) :
    Int.log 2 |signed neg ((n : K) * 2 ^ e)| = L + e := by
  rw [abs_dyadic, log_scaled e hlow hhigh]

theorem quantum_dyadic (f : Format) (neg : Bool) {n L : ℕ} (e : ℤ) (hlow : 2 ^ L ≤ n) (hhigh : n < 2 ^ (L + 1)) :
    f.quantum (signed neg ((n : K) * 2 ^ e)) = 2 ^ (max (L + e) f.emin - f.fracBits) ∧
      f.quantumUnbounded (signed neg ((n : K) * 2 ^ e)) = 2 ^ (L + e - f.fracBits) := by
  rw [Format.quantum, Format.quantumUnbounded, log_dyadic neg e hlow hhigh]
  exact ⟨rfl, rfl⟩

theorem log2_spec {n : ℕ} (hn : n ≠ 0) : 2 ^ Nat.log2 n ≤ n ∧ n < 2 ^ (Nat.log2 n + 1) :=
  (Nat.log2_eq_iff hn).mp rfl

section Cases

variable (f : Format) (m : Mode) (zeroNeg neg : Bool) {n L : ℕ} (e : ℤ) (hlow : 2 ^ L ≤ n) (hhigh : n < 2 ^ (L + 1))
  (hL : f.fracBits ≤ L)

include hlow hhigh hL

/-- The rounding with unbounded exponent. -/
theorem roundTo_unbounded :
    roundTo m (f.quantumUnbounded (signed neg ((n : K) * 2 ^ e))) (signed neg ((n : K) * 2 ^ e)) =
      signed neg ((roundNat m neg n (L - f.fracBits) : K) * 2 ^ (L + e - f.fracBits)) := by
  rw [(quantum_dyadic f neg e hlow hhigh).2]
  exact roundTo_dyadic m neg n (L - f.fracBits) (by omega)

theorem overflow_iff :
    f.maxFinite < |roundTo m (f.quantumUnbounded (signed neg ((n : K) * 2 ^ e))) (signed neg ((n : K) * 2 ^ e))| ↔
      f.emax < L + e + if roundNat m neg n (L - f.fracBits) = 2 ^ (f.fracBits + 1) then 1 else 0 := by
  obtain ⟨hq, hq'⟩ := roundNat_bounds hlow hhigh hL m neg
  rw [roundTo_unbounded f m neg e hlow hhigh hL, abs_dyadic, maxFinite_lt_iff f hq hq']

theorem tiny_iff :
    |roundTo m (f.quantumUnbounded (signed neg ((n : K) * 2 ^ e))) (signed neg ((n : K) * 2 ^ e))| < 2 ^ f.emin ↔
      L + e + (if roundNat m neg n (L - f.fracBits) = 2 ^ (f.fracBits + 1) then 1 else 0) < f.emin := by
  obtain ⟨hq, hq'⟩ := roundNat_bounds hlow hhigh hL m neg
  rw [roundTo_unbounded f m neg e hlow hhigh hL, abs_dyadic]
  generalize roundNat m neg n (L - f.fracBits) = q at hq hq'
  have hbottom := binade_low (K := K) (L + e) f.fracBits
  have htop := binade_high (K := K) (L + e) f.fracBits
  split_ifs with hc
  · rw [hc, ← htop, zpow_lt_zpow_iff_right₀ one_lt_two]
  · rw [add_zero]
    constructor
    · intro h
      have hlt : (2 : K) ^ (L + e) < 2 ^ f.emin := lt_of_le_of_lt (hbottom ▸ scale_le _ hq) h
      exact (zpow_lt_zpow_iff_right₀ one_lt_two).mp hlt
    · intro h
      have hlt : (q : K) * 2 ^ (L + e - f.fracBits) < 2 ^ (L + e + 1) := htop ▸ scale_lt _ (lt_of_le_of_ne hq' hc)
      exact lt_of_lt_of_le hlt (two_zpow_le (by omega))

theorem ieee_normal (hE : f.emin ≤ L + e) :
    ieee f m zeroNeg (signed neg ((n : K) * 2 ^ e)) =
      if f.emax < L + e + if roundNat m neg n (L - f.fracBits) = 2 ^ (f.fracBits + 1) then 1 else 0 then
        ⟨if toInfinity m neg then .inf neg else .finite neg (signed neg f.maxFinite), true, false, true⟩
      else
        ⟨.finite neg (signed neg ((roundNat m neg n (L - f.fracBits) : K) * 2 ^ (L + e - f.fracBits))), false, false,
          decide (n % 2 ^ (L - f.fracBits) ≠ 0)⟩ := by
  have hpos : (0 : K) < n * 2 ^ e :=
    mul_pos (Nat.cast_pos.mpr (lt_of_lt_of_le (Nat.two_pow_pos L) hlow)) (two_zpow_pos e)
  have hquantum := (quantum_dyadic (K := K) f neg e hlow hhigh).1
  rw [max_eq_left hE] at hquantum
  have hq : (L : ℤ) + e - f.fracBits = e + (L - f.fracBits : ℕ) := by omega
  have htiny : ¬ L + e + (if roundNat m neg n (L - f.fracBits) = 2 ^ (f.fracBits + 1) then 1 else 0) < f.emin := by
    split_ifs <;> omega
  simp only [ieee, signed_lt_zero neg hpos, signed_ne_zero neg hpos, if_false, overflow_iff f m neg e hlow hhigh hL,
    tiny_iff f m neg e hlow hhigh hL, htiny, hquantum, dyadic_eq_iff m neg n _ hq, roundTo_dyadic m neg n _ hq,
    ne_eq, decide_false, Bool.false_and]

theorem ieee_subnormal (hE : L + e < f.emin) {k : ℕ} (hk : f.emin - f.fracBits = e + k) :
    ieee f m zeroNeg (signed neg ((n : K) * 2 ^ e)) =
      ⟨.finite neg (signed neg ((roundNat m neg n k : K) * 2 ^ (f.emin - f.fracBits))), false,
        decide (L + e + (if roundNat m neg n (L - f.fracBits) = 2 ^ (f.fracBits + 1) then 1 else 0) < f.emin) &&
          decide (n % 2 ^ k ≠ 0), decide (n % 2 ^ k ≠ 0)⟩ := by
  have hpos : (0 : K) < n * 2 ^ e :=
    mul_pos (Nat.cast_pos.mpr (lt_of_lt_of_le (Nat.two_pow_pos L) hlow)) (two_zpow_pos e)
  have hquantum := (quantum_dyadic (K := K) f neg e hlow hhigh).1
  rw [max_eq_right hE.le] at hquantum
  have hover : ¬ f.emax < L + e + if roundNat m neg n (L - f.fracBits) = 2 ^ (f.fracBits + 1) then 1 else 0 := by
    have := f.emin_le_emax
    split_ifs <;> omega
  simp only [ieee, signed_lt_zero neg hpos, signed_ne_zero neg hpos, if_false, overflow_iff f m neg e hlow hhigh hL,
    tiny_iff f m neg e hlow hhigh hL, hover, hquantum, dyadic_eq_iff m neg n _ hk, roundTo_dyadic m neg n _ hk,
    ne_eq]

end Cases

end Dyadic

section Congruence

variable {K : Type*} [Field K] [LinearOrder K] [FloorRing K] [IsStrictOrderedRing K] {x y : K}

omit [FloorRing K] in
theorem SameCell.scale_two (h : SameCell 2 x y) (e : ℤ) : SameCell (2 ^ (e + 1)) (x * 2 ^ e) (y * 2 ^ e) := by
  rw [add_comm, zpow_one_add₀ two_ne_zero]
  exact h.scale (two_zpow_pos e)

/-- Rounding to multiples of `2 ^ q` looks only at the multiples of half that
quantum. -/
theorem roundTo_congr (m : Mode) {q : ℤ} (h : SameCell (2 ^ (q - 1)) x y) :
    roundTo m (2 ^ q) x = roundTo m (2 ^ q) y ∧ (roundTo m (2 ^ q) y = x ↔ roundTo m (2 ^ q) y = y) := by
  have hq := two_zpow_pos (K := K) q
  have hhalf : SameCell (1 / 2) (x / 2 ^ q) (y / 2 ^ q) := by
    have hscaled := h.scale (inv_pos.mpr hq)
    rwa [zpow_sub_one₀ two_ne_zero, mul_comm, inv_mul_cancel_left₀ hq.ne', inv_eq_one_div, ← div_eq_mul_inv,
      ← div_eq_mul_inv] at hscaled
  have hround : roundTo m (2 ^ q) x = roundTo m (2 ^ q) y := by rw [roundTo, roundTo, roundInt_congr m hhalf]
  have hexact := (h.two_zpow (sub_one_lt q).le).eq_iff (roundInt m (y / 2 ^ q))
  refine ⟨hround, ?_⟩
  rw [eq_comm, roundTo, hexact, eq_comm]

theorem abs_roundTo_le (m : Mode) {q : K} (hq : 0 < q) {j : ℤ} (h : |x| ≤ j * q) : |roundTo m q x| ≤ j * q := by
  have hscaled : |x / q| ≤ j := by rwa [abs_div, abs_of_pos hq, div_le_iff₀ hq]
  rw [roundTo, abs_mul, abs_of_pos hq]
  refine mul_le_mul_of_nonneg_right ?_ hq.le
  exact_mod_cast abs_roundInt_le m hscaled

theorem SameCell.log_eq (hx : 0 < x) (hy : 0 < y) (h : SameCell (2 ^ Int.log 2 x) x y) :
    Int.log 2 y = Int.log 2 x := by
  have hlow := (h.le_iff 1).mp (by rw [Int.cast_one, one_mul]; exact_mod_cast Int.zpow_log_le_self one_lt_two hx)
  have hhigh := (h 2).1.mp (by
    rw [Int.cast_ofNat, ← zpow_one_add₀ two_ne_zero, add_comm]
    exact_mod_cast Int.lt_zpow_succ_log_self one_lt_two x)
  rw [Int.cast_one, one_mul] at hlow
  rw [Int.cast_ofNat, ← zpow_one_add₀ two_ne_zero, add_comm] at hhigh
  apply le_antisymm
  · exact Int.lt_add_one_iff.mp ((Int.lt_zpow_iff_log_lt one_lt_two hy).mp (by exact_mod_cast hhigh))
  · exact (Int.zpow_le_iff_le_log one_lt_two hy).mp (by exact_mod_cast hlow)

/-- A positive number below half of the smallest normal one is tiny and does
not overflow, whatever its last bits are. -/
theorem roundTo_tiny (f : Format) (m : Mode) (neg : Bool) (hx : 0 < x) (hlog : Int.log 2 x < f.emin - 1) :
    |roundTo m (f.quantumUnbounded (signed neg x)) (signed neg x)| < 2 ^ f.emin ∧
      ¬ f.maxFinite < |roundTo m (f.quantumUnbounded (signed neg x)) (signed neg x)| := by
  have habs : |signed neg x| = x := by rw [abs_signed, abs_of_pos hx]
  have htop := binade_high (K := K) (Int.log 2 x) f.fracBits
  have hx' : |signed neg x| ≤ ((2 ^ (f.fracBits + 1) : ℕ) : ℤ) * 2 ^ (Int.log 2 x - f.fracBits) := by
    rw [habs, Int.cast_natCast, ← htop]
    exact_mod_cast (Int.lt_zpow_succ_log_self one_lt_two x).le
  have hu := abs_roundTo_le m (two_zpow_pos _) hx'
  rw [Int.cast_natCast, ← htop] at hu
  rw [Format.quantumUnbounded, habs, not_lt]
  constructor
  · exact lt_of_le_of_lt hu ((zpow_lt_zpow_iff_right₀ one_lt_two).mpr (by omega))
  · have := f.emin_le_emax
    exact le_trans hu (le_trans (two_zpow_le (by omega)) (two_zpow_emax_le f))

/-- The IEEE result depends on a number only through its position among the
multiples of half the quantum, one binade below the normal numbers included. -/
theorem ieee_congr (f : Format) (m : Mode) (zeroNeg neg : Bool) (hx : 0 < x) (hy : 0 < y) {k : ℤ}
    (hk : k ≤ max (Int.log 2 x) (f.emin - 1) - f.fracBits - 1) (h : SameCell (2 ^ k) x y) :
    ieee f m zeroNeg (signed neg x) = ieee f m zeroNeg (signed neg y) := by
  have habs {z : K} (hz : 0 < z) : |signed neg z| = z := by rw [abs_signed, abs_of_pos hz]
  have hsigned := h.signed neg
  -- the bounded rounding, whose quantum the two numbers share
  have hbounded (hmax : max (Int.log 2 y) f.emin = max (Int.log 2 x) f.emin) :
      roundTo m (f.quantum (signed neg x)) (signed neg x) = roundTo m (f.quantum (signed neg y)) (signed neg y) ∧
        (roundTo m (f.quantum (signed neg y)) (signed neg y) = signed neg x ↔
          roundTo m (f.quantum (signed neg y)) (signed neg y) = signed neg y) := by
    rw [Format.quantum, Format.quantum, habs hx, habs hy, hmax]
    exact roundTo_congr m (hsigned.two_zpow (by omega))
  rcases le_or_gt (f.emin - 1) (Int.log 2 x) with hlog | hlog
  · have hlogy : Int.log 2 y = Int.log 2 x := SameCell.log_eq hx hy (h.two_zpow (by omega))
    obtain ⟨hround, hexact⟩ := hbounded (by rw [hlogy])
    have hunbounded : roundTo m (f.quantumUnbounded (signed neg x)) (signed neg x) =
        roundTo m (f.quantumUnbounded (signed neg y)) (signed neg y) := by
      rw [Format.quantumUnbounded, Format.quantumUnbounded, habs hx, habs hy, hlogy]
      exact (roundTo_congr m (hsigned.two_zpow (by omega))).1
    simp only [ieee, signed_lt_zero neg hx, signed_lt_zero neg hy, signed_ne_zero neg hx, signed_ne_zero neg hy,
      if_false, hunbounded, ne_eq, hexact, hround]
  · have hlogy : Int.log 2 y < f.emin - 1 := by
      have hlt := ((h.two_zpow (show k ≤ f.emin - 1 by omega)) 1).1.mp (by
        rw [Int.cast_one, one_mul]
        exact_mod_cast (Int.lt_zpow_iff_log_lt one_lt_two hx).mpr hlog)
      rw [Int.cast_one, one_mul] at hlt
      exact (Int.lt_zpow_iff_log_lt one_lt_two hy).mp (by exact_mod_cast hlt)
    obtain ⟨hround, hexact⟩ := hbounded (by omega)
    obtain ⟨htx, hmx⟩ := roundTo_tiny f m neg hx hlog
    obtain ⟨hty, hmy⟩ := roundTo_tiny f m neg hy hlogy
    simp only [ieee, signed_lt_zero neg hx, signed_lt_zero neg hy, signed_ne_zero neg hx, signed_ne_zero neg hy,
      if_false, htx, hty, hmx, hmy, ne_eq, hexact, hround]

end Congruence

section Exact

variable {K : Type*} [Field K] [LinearOrder K] [FloorRing K] (f : Format) (m : Mode) (zeroNeg neg : Bool)

theorem ieee_zero : ieee f m zeroNeg (0 : K) = ⟨.finite zeroNeg 0, false, false, false⟩ := by rw [ieee, if_pos rfl]

/-- The sign asked for a zero counts for a zero only. -/
theorem ieee_of_ne_zero {x : K} (hx : x ≠ 0) : ieee f m zeroNeg x = ieee f m neg x := by
  rw [ieee, ieee, if_neg hx, if_neg hx]

variable [IsStrictOrderedRing K]

theorem roundTo_of_multiple {q x : K} (hq : 0 < q) {j : ℤ} (hx : x = j * q) : roundTo m q x = x := by
  rw [roundTo, hx, mul_div_cancel_right₀ _ hq.ne', roundInt_of_fract_eq_zero (Int.fract_intCast j), Int.floor_intCast]

/-- A number of the format rounds to itself. -/
theorem ieee_exact {n : ℕ} {e : ℤ} (hn : n < 2 ^ (f.fracBits + 1)) (hlow : f.emin - f.fracBits ≤ e)
    (hhigh : e ≤ f.emax - f.fracBits) (hn0 : n ≠ 0) :
    ieee f m zeroNeg (signed neg ((n : K) * 2 ^ e)) =
      ⟨.finite neg (signed neg ((n : K) * 2 ^ e)), false, false, false⟩ := by
  have hL := log2_spec hn0
  have hLb : Nat.log2 n < f.fracBits + 1 := (Nat.log2_lt hn0).mpr hn
  have hpos : (0 : K) < n * 2 ^ e := mul_pos (Nat.cast_pos.mpr (Nat.pos_of_ne_zero hn0)) (two_zpow_pos e)
  obtain ⟨hq, hqu⟩ := quantum_dyadic (K := K) f neg e hL.1 hL.2
  have hmultiple {q : ℤ} (h : q ≤ e) : roundTo m (2 ^ q) (signed neg ((n : K) * 2 ^ e)) =
      signed neg ((n : K) * 2 ^ e) := by
    refine roundTo_of_multiple m (two_zpow_pos q) (j := signed neg ((n * 2 ^ (e - q).toNat : ℕ) : ℤ)) ?_
    have hsplit : e = q + (e - q).toNat := by omega
    rw [cast_signed, ← signed_mul, Int.cast_natCast, Nat.cast_mul, mul_assoc, ← two_zpow_add, ← hsplit]
  have hmax : ¬ f.maxFinite < (n : K) * 2 ^ e := by
    rw [not_lt, Format.maxFinite]
    refine le_trans (scale_le e (show n ≤ 2 ^ (f.fracBits + 1) - 1 by omega)) ?_
    exact mul_le_mul_of_nonneg_left (two_zpow_le hhigh) (Nat.cast_nonneg _)
  have hround : roundTo m (f.quantum (signed neg ((n : K) * 2 ^ e))) (signed neg ((n : K) * 2 ^ e)) =
      signed neg ((n : K) * 2 ^ e) := by
    rw [hq]
    exact hmultiple (by omega)
  have hunbounded : roundTo m (f.quantumUnbounded (signed neg ((n : K) * 2 ^ e))) (signed neg ((n : K) * 2 ^ e)) =
      signed neg ((n : K) * 2 ^ e) := by
    rw [hqu]
    exact hmultiple (by omega)
  simp only [ieee, signed_lt_zero neg hpos, signed_ne_zero neg hpos, if_false, hround, hunbounded, abs_dyadic, hmax,
    ne_eq, not_true_eq_false, decide_false, Bool.and_false]

end Exact

end VMate.Ieee
