import Mathlib.Analysis.Real.Sqrt
import VMate.Ieee

namespace VMate.Ieee

open Rounding

section Cell

variable {K : Type*} [Field K] [LinearOrder K]

/-- The number `x` compares with the multiples of `h` as the square root of
`w` does. -/
def RootCell (h x w : K) : Prop := ∀ n : ℕ, (x < n * h ↔ w < (n * h) ^ 2) ∧ (n * h < x ↔ (n * h) ^ 2 < w)

variable {h x w : K}

theorem RootCell.le_iff (hxw : RootCell h x w) (n : ℕ) : n * h ≤ x ↔ (n * h) ^ 2 ≤ w := by
  rw [← not_lt, ← not_lt, (hxw n).1]

theorem RootCell.eq_iff (hxw : RootCell h x w) (n : ℕ) : x = n * h ↔ w = (n * h) ^ 2 := by
  have hle : x ≤ n * h ↔ w ≤ (n * h) ^ 2 := by rw [← not_lt, (hxw n).2, not_lt]
  rw [le_antisymm_iff, le_antisymm_iff, hxw.le_iff, hle]

theorem RootCell.coarsen (hxw : RootCell h x w) (j : ℕ) : RootCell (j * h) x w := by
  intro n
  have hnj := hxw (n * j)
  rwa [Nat.cast_mul, mul_assoc] at hnj

variable [IsStrictOrderedRing K]

theorem RootCell.scale (hxw : RootCell h x w) {c : K} (hc : 0 < c) : RootCell (h * c) (x * c) (w * c ^ 2) := by
  intro n
  have hc2 : 0 < c ^ 2 := pow_pos hc 2
  rw [← mul_assoc, mul_pow, mul_lt_mul_iff_left₀ hc, mul_lt_mul_iff_left₀ hc, mul_lt_mul_iff_left₀ hc2,
    mul_lt_mul_iff_left₀ hc2]
  exact hxw n

theorem RootCell.two_zpow {k k' : ℤ} (hxw : RootCell (2 ^ k) x w) (hk : k ≤ k') : RootCell (2 ^ k') x w := by
  have hsplit : (2 : K) ^ k' = ((2 ^ (k' - k).toNat : ℕ) : K) * 2 ^ k := by
    rw [← two_zpow_add]
    congr 1
    omega
  rw [hsplit]
  exact hxw.coarsen _

theorem RootCell.scale_two (hxw : RootCell 2 x w) (e : ℤ) :
    RootCell (2 ^ (e + 1)) (x * 2 ^ e) (w * (2 ^ e) ^ 2) := by
  rw [add_comm, zpow_one_add₀ two_ne_zero]
  exact hxw.scale (two_zpow_pos e)

/-- A root cut to an integer with what is cut off kept in the last bit. -/
theorem rootCell_sticky {p : ℕ} {sticky : Bool} (hlow : (p : K) ^ 2 ≤ w) (hhigh : w < (p + 1 : K) ^ 2)
    (hs : sticky = true ↔ w ≠ (p : K) ^ 2) : RootCell 2 ((p ||| sticky.toNat : ℕ) : K) w := by
  intro n
  have hn : (n : K) * 2 = ((n * 2 : ℕ) : K) := by push_cast; rfl
  have hmono {a b : ℕ} (hab : a ≤ b) : (a : K) ^ 2 ≤ (b : K) ^ 2 :=
    pow_le_pow_left₀ (Nat.cast_nonneg a) (Nat.cast_le.mpr hab) 2
  rw [hn, Nat.cast_lt, Nat.cast_lt]
  cases sticky with
  | false =>
      have hw : w = (p : K) ^ 2 := by
        by_contra hne
        exact Bool.false_ne_true (hs.mpr hne)
      have hlt (a b : ℕ) : (a : K) ^ 2 < (b : K) ^ 2 ↔ a < b := by
        rw [pow_lt_pow_iff_left₀ (Nat.cast_nonneg a) (Nat.cast_nonneg b) two_ne_zero, Nat.cast_lt]
      rw [Bool.toNat_false, Nat.or_zero, hw, hlt, hlt]
      exact ⟨Iff.rfl, Iff.rfl⟩
  | true =>
      have hlt : (p : K) ^ 2 < w := lt_of_le_of_ne hlow (Ne.symm (hs.mp rfl))
      have hodd := or_one_eq p
      rw [Bool.toNat_true]
      rcases Nat.lt_or_ge p (n * 2) with hp | hp
      · have hle := hmono (show p + 1 ≤ n * 2 by omega)
        push_cast at hle ⊢
        constructor
        · exact iff_of_true (by omega) (lt_of_lt_of_le hhigh hle)
        · exact iff_of_false (by omega) (not_lt.mpr (hhigh.trans_le hle).le)
      · have hle := hmono hp
        constructor
        · exact iff_of_false (by omega) (not_lt.mpr (hle.trans hlt.le))
        · exact iff_of_true (by omega) (lt_of_le_of_lt hle hlt)

end Cell

section RoundRoot

variable {K : Type*} [Field K] [LinearOrder K] [FloorRing K]

/-- The square root of `w` rounded to an integer, the neighbours and their
midpoint compared with `w` by their squares. -/
def roundRoot (m : Mode) (w : K) : ℕ :=
  let n := Nat.sqrt ⌊w⌋.toNat
  match m with
  | .nearestEven =>
      if w < (n + 1 / 2 : K) ^ 2 then n
      else if (n + 1 / 2 : K) ^ 2 < w then n + 1
      else if Even n then n else n + 1
  | .towardZero => n
  | .down => n
  | .up => if w = (n : K) ^ 2 then n else n + 1
  | .nearestAway => if w < (n + 1 / 2 : K) ^ 2 then n else n + 1

variable [IsStrictOrderedRing K] {x w : K}

omit [IsStrictOrderedRing K] in
theorem sqrt_floor_spec (hw : 0 ≤ w) :
    (Nat.sqrt ⌊w⌋.toNat : K) ^ 2 ≤ w ∧ w < ((Nat.sqrt ⌊w⌋.toNat + 1 : ℕ) : K) ^ 2 := by
  have hfloor : ((⌊w⌋.toNat : ℤ) : ℤ) = ⌊w⌋ := Int.toNat_of_nonneg (Int.floor_nonneg.mpr hw)
  constructor
  · have hle : ((Nat.sqrt ⌊w⌋.toNat ^ 2 : ℕ) : ℤ) ≤ ⌊w⌋ := by
      rw [← hfloor]
      exact_mod_cast Nat.sqrt_le' ⌊w⌋.toNat
    have hcast := Int.le_floor.mp hle
    push_cast at hcast
    exact hcast
  · have hlt : ⌊w⌋ < (((Nat.sqrt ⌊w⌋.toNat + 1) ^ 2 : ℕ) : ℤ) := by
      rw [← hfloor]
      exact_mod_cast Nat.lt_succ_sqrt' ⌊w⌋.toNat
    have hcast := Int.floor_lt.mp hlt
    push_cast at hcast ⊢
    exact hcast

theorem roundInt_eq_roundRoot (m : Mode) (hx : 0 ≤ x) (hw : 0 ≤ w) (hcell : RootCell (1 / 2) x w) :
    roundInt m x = roundRoot m w := by
  obtain ⟨hlow, hhigh⟩ := sqrt_floor_spec hw
  generalize hroot : Nat.sqrt ⌊w⌋.toNat = n at hlow hhigh
  have hone : RootCell 1 x w := by
    have h2 := hcell.coarsen 2
    rwa [Nat.cast_ofNat, mul_one_div_cancel two_ne_zero] at h2
  have hn := hone.le_iff n
  have hn1 := (hone (n + 1)).1
  have heq := hone.eq_iff n
  have hhalf := hcell (2 * n + 1)
  have hmid : ((2 * n + 1 : ℕ) : K) * (1 / 2) = n + 1 / 2 := by
    push_cast
    ring
  rw [mul_one] at hn hn1 heq
  rw [hmid] at hhalf
  have hfloor : ⌊x⌋ = n := by
    have hlt := hn1.mpr hhigh
    rw [Int.floor_eq_iff, Int.cast_natCast]
    push_cast at hlt
    exact ⟨hn.mpr hlow, hlt⟩
  have hfract : Int.fract x = x - n := by rw [Int.fract, hfloor, Int.cast_natCast]
  have hbelow : 2 * Int.fract x < 1 ↔ w < (n + 1 / 2 : K) ^ 2 := by
    rw [← hhalf.1, hfract]
    constructor <;> intro <;> linarith
  have habove : 1 < 2 * Int.fract x ↔ (n + 1 / 2 : K) ^ 2 < w := by
    rw [← hhalf.2, hfract]
    constructor <;> intro <;> linarith
  have hexact : Int.fract x = 0 ↔ w = (n : K) ^ 2 := by rw [hfract, sub_eq_zero, heq]
  cases m with
  | nearestEven =>
      simp only [roundInt, roundRoot, hroot, hfloor, hbelow, habove, Int.even_coe_nat]
      split_ifs <;> rfl
  | towardZero => simp only [roundInt, roundRoot, hroot, hx, if_true, hfloor]
  | down => simp only [roundInt, roundRoot, hroot, hfloor]
  | up =>
      simp only [roundInt, roundRoot, hroot, ceil_eq_floor_add, hfloor, hexact]
      split_ifs
      · exact add_zero _
      · rfl
  | nearestAway =>
      simp only [roundInt, roundRoot, hroot, hfloor, hbelow, hx, if_true]
      split_ifs <;> rfl

end RoundRoot

section IeeeRoot

variable {K : Type*} [Field K] [LinearOrder K] [FloorRing K] [IsStrictOrderedRing K]

/-- The distance of the neighbours of the square root of `w` in the format. -/
def Format.rootQuantum (f : Format) (w : K) : K := 2 ^ (max (Int.log 2 w / 2) f.emin - f.fracBits)

/-- The IEEE result of the square root of a positive number, within the range
of the normal numbers. -/
def ieeeRoot (f : Format) (m : Mode) (w : K) : Outcome K :=
  let q := f.rootQuantum w
  let y := roundRoot m (w / q ^ 2) * q
  ⟨.finite false y, false, false, decide (y ^ 2 ≠ w)⟩

variable (f : Format) (m : Mode) (zeroNeg : Bool) {x w : K}

theorem le_roundTo {q : K} (hq : 0 < q) {j : ℤ} (h : j * q ≤ x) : j * q ≤ roundTo m q x := by
  have hscaled : (j : K) ≤ x / q := by rwa [le_div_iff₀ hq]
  have hround : (j : K) ≤ (roundInt m (x / q) : ℤ) := by
    rw [Int.cast_le]
    exact le_roundInt m hscaled
  exact mul_le_mul_of_nonneg_right hround hq.le

/-- Away from both ends of the exponent range only inexactness can be
raised. -/
theorem ieee_in_range (hx : 0 < x) (hlow : f.emin ≤ Int.log 2 x) (hhigh : Int.log 2 x < f.emax) :
    ieee f m zeroNeg x =
      ⟨.finite false (roundTo m (2 ^ (Int.log 2 x - f.fracBits)) x), false, false,
        decide (roundTo m (2 ^ (Int.log 2 x - f.fracBits)) x ≠ x)⟩ := by
  have hq := two_zpow_pos (K := K) (Int.log 2 x - f.fracBits)
  have hquantum : f.quantum x = 2 ^ (Int.log 2 x - f.fracBits) := by
    rw [Format.quantum, abs_of_pos hx, max_eq_left hlow]
  have hunbounded : f.quantumUnbounded x = 2 ^ (Int.log 2 x - f.fracBits) := by
    rw [Format.quantumUnbounded, abs_of_pos hx]
  have hbottom := binade_low (K := K) (Int.log 2 x) f.fracBits
  have htop := binade_high (K := K) (Int.log 2 x) f.fracBits
  have hle : (2 : K) ^ Int.log 2 x ≤ roundTo m (2 ^ (Int.log 2 x - f.fracBits)) x := by
    have hself : ((2 ^ f.fracBits : ℕ) : ℤ) * (2 : K) ^ (Int.log 2 x - f.fracBits) ≤ x := by
      rw [Int.cast_natCast, ← hbottom]
      exact_mod_cast Int.zpow_log_le_self one_lt_two hx
    have hround := le_roundTo m hq hself
    rwa [Int.cast_natCast, ← hbottom] at hround
  have hge : |roundTo m (2 ^ (Int.log 2 x - f.fracBits)) x| ≤ (2 : K) ^ (Int.log 2 x + 1) := by
    have hself : |x| ≤ ((2 ^ (f.fracBits + 1) : ℕ) : ℤ) * (2 : K) ^ (Int.log 2 x - f.fracBits) := by
      rw [Int.cast_natCast, ← htop, abs_of_pos hx]
      exact_mod_cast (Int.lt_zpow_succ_log_self one_lt_two x).le
    have hround := abs_roundTo_le m hq hself
    rwa [Int.cast_natCast, ← htop] at hround
  have hover : ¬ f.maxFinite < |roundTo m (2 ^ (Int.log 2 x - f.fracBits)) x| := by
    rw [not_lt]
    exact hge.trans ((two_zpow_le (by omega)).trans (two_zpow_emax_le f))
  have htiny : ¬ |roundTo m (2 ^ (Int.log 2 x - f.fracBits)) x| < 2 ^ f.emin := by
    rw [not_lt]
    exact (two_zpow_le hlow).trans (hle.trans (le_abs_self _))
  simp only [ieee, hx.ne', if_false, not_lt.mpr hx.le, decide_false, hquantum, hunbounded, hover, htiny,
    Bool.false_and]

theorem RootCell.log_eq (hx : 0 < x) (hw : 0 < w) (h : RootCell (2 ^ Int.log 2 x) x w) :
    Int.log 2 w / 2 = Int.log 2 x := by
  have hsq (e : ℤ) : ((2 : K) ^ e) ^ 2 = 2 ^ (e * 2) := by
    rw [zpow_mul]
    exact_mod_cast rfl
  have hlow := (h.le_iff 1).mp (by
    rw [Nat.cast_one, one_mul]
    exact_mod_cast Int.zpow_log_le_self one_lt_two hx)
  have hhigh := (h 2).1.mp (by
    rw [Nat.cast_ofNat, ← zpow_one_add₀ two_ne_zero, add_comm]
    exact_mod_cast Int.lt_zpow_succ_log_self one_lt_two x)
  rw [Nat.cast_one, one_mul, hsq] at hlow
  rw [Nat.cast_ofNat, ← zpow_one_add₀ two_ne_zero, add_comm, hsq] at hhigh
  have hle := (Int.zpow_le_iff_le_log one_lt_two hw).mp (by exact_mod_cast hlow)
  have hlt := (Int.lt_zpow_iff_log_lt one_lt_two hw).mp (by exact_mod_cast hhigh)
  omega

/-- A number that compares as the root of `w` does rounds as that root. -/
theorem ieee_root (hx : 0 < x) (hw : 0 < w) (hlow : f.emin ≤ Int.log 2 x) (hhigh : Int.log 2 x < f.emax)
    (hcell : RootCell (2 ^ (Int.log 2 x - f.fracBits - 1)) x w) : ieee f m zeroNeg x = ieeeRoot f m w := by
  have hlog := RootCell.log_eq hx hw (hcell.two_zpow (by omega))
  have hq := two_zpow_pos (K := K) (Int.log 2 x - f.fracBits)
  have hquantum : f.rootQuantum w = 2 ^ (Int.log 2 x - f.fracBits) := by
    rw [Format.rootQuantum, hlog, max_eq_left hlow]
  have hhalf : RootCell (1 / 2) (x / 2 ^ (Int.log 2 x - f.fracBits)) (w / (2 ^ (Int.log 2 x - f.fracBits)) ^ 2) := by
    have hscaled := hcell.scale (inv_pos.mpr hq)
    rwa [zpow_sub_one₀ two_ne_zero, mul_comm, inv_mul_cancel_left₀ hq.ne', inv_eq_one_div, inv_pow, ← div_eq_mul_inv,
      ← div_eq_mul_inv] at hscaled
  have hround : roundTo m (2 ^ (Int.log 2 x - f.fracBits)) x =
      roundRoot m (w / (2 ^ (Int.log 2 x - f.fracBits)) ^ 2) * 2 ^ (Int.log 2 x - f.fracBits) := by
    rw [roundTo, roundInt_eq_roundRoot m (div_pos hx hq).le (div_pos hw (pow_pos hq 2)).le hhalf, Int.cast_natCast]
  have hexact := (hcell.two_zpow (sub_one_lt _).le).eq_iff
    (roundRoot m (w / ((2 : K) ^ (Int.log 2 x - f.fracBits)) ^ 2))
  rw [ieee_in_range f m zeroNeg hx hlow hhigh, ieeeRoot, hquantum, hround]
  simp only [ne_eq, eq_comm (b := x), eq_comm (b := w), hexact]

end IeeeRoot

section Real

theorem rootCell_sqrt {h w : ℝ} (hh : 0 ≤ h) (hw : 0 ≤ w) : RootCell h (√w) w := by
  intro n
  have hn : 0 ≤ n * h := mul_nonneg (Nat.cast_nonneg n) hh
  constructor
  · rw [← not_le, ← not_le, Real.le_sqrt hn hw]
  · exact Real.lt_sqrt hn

theorem log_sqrt {w : ℝ} (hw : 0 < w) : Int.log 2 (√w) = Int.log 2 w / 2 :=
  (RootCell.log_eq (Real.sqrt_pos.mpr hw) hw (rootCell_sqrt (two_zpow_pos _).le hw.le)).symm

/-- What `ieeeRoot` returns is the IEEE result for the real square root. -/
theorem ieee_sqrt (f : Format) (m : Mode) (zeroNeg : Bool) {w : ℝ} (hw : 0 < w) (hlow : f.emin ≤ Int.log 2 w / 2)
    (hhigh : Int.log 2 w / 2 < f.emax) : ieee f m zeroNeg (√w) = ieeeRoot f m w := by
  rw [← log_sqrt hw] at hlow hhigh
  exact ieee_root f m zeroNeg (Real.sqrt_pos.mpr hw) hw hlow hhigh (rootCell_sqrt (two_zpow_pos _).le hw.le)

end Real

end VMate.Ieee
