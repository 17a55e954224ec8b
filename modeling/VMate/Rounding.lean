import Mathlib.Algebra.Order.Floor.Ring
import Mathlib.Data.Int.Log
import Mathlib.Tactic.Linarith
import Mathlib.Tactic.FieldSimp
import Mathlib.Tactic.Ring

namespace VMate.Rounding

/-- The rounding directions of IEEE 754, ties to even and ties away from zero
among them. -/
inductive Mode where
  | nearestEven
  | towardZero
  | down
  | up
  | nearestAway
  deriving DecidableEq, Repr

/-- Every numeral two in a field rests on this one proof. -/
instance atLeastTwo_two : Nat.AtLeastTwo 2 := ⟨le_rfl⟩

/-- A magnitude with a sign. -/
def signed {K : Type*} [Neg K] (neg : Bool) (a : K) : K := if neg then -a else a

section Signed

variable {K : Type*} [Field K]

theorem signed_mul (neg : Bool) (a b : K) : signed neg (a * b) = signed neg a * b := by
  cases neg with
  | false => rfl
  | true => exact neg_mul_eq_neg_mul a b

theorem signed_div (neg : Bool) (a b : K) : signed neg (a / b) = signed neg a / b := by
  cases neg with
  | false => rfl
  | true => exact (neg_div b a).symm

@[simp] theorem signed_zero (neg : Bool) : signed neg (0 : K) = 0 := by
  cases neg with
  | false => rfl
  | true => exact neg_zero

theorem signed_signed (s t : Bool) (a : K) : signed s (signed t a) = signed (t ^^ s) a := by
  cases s <;> cases t <;> simp [signed]

theorem signed_sub (neg : Bool) (a b : K) : signed neg a - signed neg b = signed neg (a - b) := by
  cases neg with
  | false => rfl
  | true =>
      show -a - -b = -(a - b)
      ring

theorem signed_mul_signed (s t : Bool) (a b : K) : signed s a * signed t b = signed (s ^^ t) (a * b) := by
  cases s <;> cases t <;> simp [signed]

theorem signed_div_signed (s t : Bool) (a b : K) : signed s a / signed t b = signed (s ^^ t) (a / b) := by
  cases s <;> cases t <;> simp [signed, neg_div, div_neg]

theorem cast_signed (neg : Bool) (n : ℤ) : ((signed neg n : ℤ) : K) = signed neg (n : K) := by
  cases neg with
  | false => rfl
  | true => exact Int.cast_neg n

variable [LinearOrder K]

theorem abs_signed [IsOrderedRing K] (neg : Bool) (a : K) : |signed neg a| = |a| := by
  cases neg with
  | false => rfl
  | true => exact abs_neg a

theorem signed_ne_zero (neg : Bool) {a : K} (ha : 0 < a) : signed neg a ≠ 0 := by
  cases neg with
  | false => exact ha.ne'
  | true => exact neg_ne_zero.mpr ha.ne'

theorem signed_lt_zero [IsOrderedRing K] (neg : Bool) {a : K} (ha : 0 < a) : decide (signed neg a < 0) = neg := by
  cases neg with
  | false => exact decide_eq_false (not_lt.mpr ha.le)
  | true => exact decide_eq_true (neg_lt_zero.mpr ha)

end Signed

section RoundInt

variable {K : Type*} [Field K] [LinearOrder K] [FloorRing K]

def roundInt : Mode → K → ℤ
  | .nearestEven, x =>
      if 2 * Int.fract x < 1 then ⌊x⌋
      else if 1 < 2 * Int.fract x then ⌊x⌋ + 1
      else if Even ⌊x⌋ then ⌊x⌋ else ⌊x⌋ + 1
  | .towardZero, x => if 0 ≤ x then ⌊x⌋ else ⌈x⌉
  | .down, x => ⌊x⌋
  | .up, x => ⌈x⌉
  | .nearestAway, x =>
      if 2 * Int.fract x < 1 then ⌊x⌋
      else if 1 < 2 * Int.fract x then ⌊x⌋ + 1
      else if 0 ≤ x then ⌊x⌋ + 1 else ⌊x⌋

variable [IsStrictOrderedRing K]

theorem ceil_eq_floor_add (x : K) : ⌈x⌉ = ⌊x⌋ + if Int.fract x = 0 then 0 else 1 := by
  have hx := Int.floor_add_fract x
  by_cases h : Int.fract x = 0
  · rw [if_pos h, Int.ceil_eq_iff]
    constructor <;> push_cast <;> linarith
  · have hpos := lt_of_le_of_ne (Int.fract_nonneg x) (Ne.symm h)
    have hlt := Int.fract_lt_one x
    rw [if_neg h, Int.ceil_eq_iff]
    constructor <;> push_cast <;> linarith

/-- The mode that does to `-x` what the given one does to `x`. -/
def Mode.opposite : Mode → Mode
  | .down => .up
  | .up => .down
  | m => m

theorem roundInt_of_fract_eq_zero {x : K} (h : Int.fract x = 0) (m : Mode) : roundInt m x = ⌊x⌋ := by
  have hceil : ⌈x⌉ = ⌊x⌋ := by rw [ceil_eq_floor_add, if_pos h, add_zero]
  cases m <;> simp [roundInt, h, hceil]

theorem roundInt_neg (m : Mode) (x : K) : roundInt m (-x) = -roundInt m.opposite x := by
  by_cases h : Int.fract x = 0
  · have hneg : Int.fract (-x) = 0 := Int.fract_neg_eq_zero.mpr h
    have hfloor : ⌊-x⌋ = -⌊x⌋ := by rw [Int.floor_neg, ceil_eq_floor_add, if_pos h, add_zero]
    rw [roundInt_of_fract_eq_zero hneg, roundInt_of_fract_eq_zero h, hfloor]
  · have hfract : Int.fract (-x) = 1 - Int.fract x := Int.fract_neg h
    have hceil : ⌈x⌉ = ⌊x⌋ + 1 := by rw [ceil_eq_floor_add, if_neg h]
    have hfloor : ⌊-x⌋ = -(⌊x⌋ + 1) := by rw [Int.floor_neg, hceil]
    have hne : x ≠ 0 := by
      rintro rfl
      exact h Int.fract_zero
    have hsign : 0 ≤ -x ↔ ¬ 0 ≤ x := by
      rw [Left.nonneg_neg_iff, not_le, lt_iff_le_and_ne, and_iff_left hne]
    have hparity : Even (-(⌊x⌋ + 1)) ↔ ¬ Even ⌊x⌋ := by rw [even_neg, Int.even_add_one]
    have hlow : 2 * (1 - Int.fract x) < 1 ↔ 1 < 2 * Int.fract x := by constructor <;> intro <;> linarith
    have hhigh : 1 < 2 * (1 - Int.fract x) ↔ 2 * Int.fract x < 1 := by constructor <;> intro <;> linarith
    cases m with
    | nearestEven =>
        simp only [roundInt, Mode.opposite, hfract, hfloor, hlow, hhigh, hparity]
        split_ifs <;> first | omega | (exfalso; linarith)
    | towardZero =>
        simp only [roundInt, Mode.opposite, hsign, hfloor, hceil, Int.ceil_neg]
        split_ifs <;> omega
    | down => simp only [roundInt, Mode.opposite, hfloor, hceil]
    | up => simp only [roundInt, Mode.opposite, Int.ceil_neg]
    | nearestAway =>
        simp only [roundInt, Mode.opposite, hfract, hfloor, hlow, hhigh, hsign]
        split_ifs <;> first | omega | (exfalso; linarith)

/-- Every mode picks one of the two neighbours. -/
theorem roundInt_eq_or (m : Mode) (x : K) : roundInt m x = ⌊x⌋ ∨ roundInt m x = ⌈x⌉ := by
  by_cases h : Int.fract x = 0
  · exact .inl (roundInt_of_fract_eq_zero h m)
  · have hceil : ⌈x⌉ = ⌊x⌋ + 1 := by rw [ceil_eq_floor_add, if_neg h]
    rw [hceil]
    cases m with
    | nearestEven =>
        rw [roundInt]
        split_ifs <;> simp
    | towardZero =>
        rw [roundInt, hceil]
        split_ifs <;> simp
    | down => exact .inl rfl
    | up => exact .inr hceil
    | nearestAway =>
        rw [roundInt]
        split_ifs <;> simp

theorem le_roundInt (m : Mode) {x : K} {j : ℤ} (h : j ≤ x) : j ≤ roundInt m x := by
  have hfloor : j ≤ ⌊x⌋ := Int.le_floor.mpr h
  have hle := Int.floor_le_ceil x
  rcases roundInt_eq_or m x with hr | hr <;> omega

theorem roundInt_le (m : Mode) {x : K} {j : ℤ} (h : x ≤ j) : roundInt m x ≤ j := by
  have hceil : ⌈x⌉ ≤ j := Int.ceil_le.mpr h
  have hle := Int.floor_le_ceil x
  rcases roundInt_eq_or m x with hr | hr <;> omega

/-- Rounding does not leave an interval with integer ends. -/
theorem abs_roundInt_le (m : Mode) {x : K} {j : ℤ} (h : |x| ≤ j) : |roundInt m x| ≤ j := by
  obtain ⟨hlow, hhigh⟩ := abs_le.mp h
  exact abs_le.mpr ⟨le_roundInt m (by rwa [Int.cast_neg]), roundInt_le m hhigh⟩

end RoundInt

section RoundNat

/-- Whether a natural number `n` is rounded up when its last `k` bits go,
given the sign it stands under. -/
def roundsUp (m : Mode) (neg : Bool) (n k : ℕ) : Bool :=
  match m with
  | .nearestEven =>
      decide (2 ^ k < 2 * (n % 2 ^ k)) || (decide (2 ^ k = 2 * (n % 2 ^ k)) && decide (n / 2 ^ k % 2 = 1))
  | .towardZero => false
  | .down => neg && decide (n % 2 ^ k ≠ 0)
  | .up => !neg && decide (n % 2 ^ k ≠ 0)
  | .nearestAway => decide (2 ^ k ≤ 2 * (n % 2 ^ k))

/-- The magnitude that rounding `n / 2 ^ k` under a sign delivers. -/
def roundNat (m : Mode) (neg : Bool) (n k : ℕ) : ℕ := n / 2 ^ k + (roundsUp m neg n k).toNat

theorem roundsUp_opposite (m : Mode) (neg : Bool) (n k : ℕ) :
    roundsUp m.opposite (!neg) n k = roundsUp m neg n k := by
  cases m <;> simp [Mode.opposite, roundsUp]

theorem div_le_roundNat (m : Mode) (neg : Bool) (n k : ℕ) : n / 2 ^ k ≤ roundNat m neg n k := Nat.le_add_right _ _

theorem roundNat_le (m : Mode) (neg : Bool) (n k : ℕ) : roundNat m neg n k ≤ n / 2 ^ k + 1 :=
  Nat.add_le_add_left (Bool.toNat_le _) _

theorem roundsUp_of_mod_eq_zero {n k : ℕ} (h : n % 2 ^ k = 0) (m : Mode) (neg : Bool) : roundsUp m neg n k = false := by
  have hpos := Nat.two_pow_pos k
  have hne : ¬ 2 ^ k = 0 := by omega
  cases m <;> simp [roundsUp, h]

/-- The rounding decision from the first bit that goes, the rest below it and
the last bit that stays. -/
def roundsUpBits (m : Mode) (neg guard rest lsb : Bool) : Bool :=
  match m with
  | .nearestEven => guard && (rest || lsb)
  | .towardZero => false
  | .down => neg && (guard || rest)
  | .up => !neg && (guard || rest)
  | .nearestAway => guard

theorem roundsUp_succ (m : Mode) (neg : Bool) (n j : ℕ) :
    roundsUp m neg n (j + 1) = roundsUpBits m neg (decide (n / 2 ^ j % 2 = 1)) (decide (n % 2 ^ j ≠ 0))
      (decide (n / 2 ^ (j + 1) % 2 = 1)) := by
  have hpos := Nat.two_pow_pos j
  have hmod : n % 2 ^ (j + 1) = n % 2 ^ j + 2 ^ j * (n / 2 ^ j % 2) := Nat.mod_pow_succ
  have hlt := Nat.mod_lt n hpos
  have hpow : 2 ^ (j + 1) = 2 * 2 ^ j := pow_succ' 2 j
  rcases Nat.mod_two_eq_zero_or_one (n / 2 ^ j) with hg | hg
  · rw [hg, Nat.mul_zero, Nat.add_zero] at hmod
    have h1 : ¬ 2 ^ (j + 1) < 2 * (n % 2 ^ j) := by omega
    have h2 : ¬ 2 ^ (j + 1) = 2 * (n % 2 ^ j) := by omega
    have h3 : ¬ 2 ^ (j + 1) ≤ 2 * (n % 2 ^ j) := by omega
    cases m <;> simp [roundsUp, roundsUpBits, hmod, hg, h1, h2, h3]
  · rw [hg, Nat.mul_one] at hmod
    have h1 : 2 ^ (j + 1) < 2 * (n % 2 ^ j + 2 ^ j) ↔ n % 2 ^ j ≠ 0 := by omega
    have h2 : 2 ^ (j + 1) = 2 * (n % 2 ^ j + 2 ^ j) ↔ n % 2 ^ j = 0 := by omega
    have h3 : 2 ^ (j + 1) ≤ 2 * (n % 2 ^ j + 2 ^ j) := by omega
    have h4 : n % 2 ^ j + 2 ^ j ≠ 0 := by omega
    cases m <;> simp only [roundsUp, roundsUpBits, hmod, hg, h1, h2, h3] <;> grind

/-- Far below the last place only the direction counts. -/
theorem roundsUp_small (m : Mode) (neg : Bool) {n k k' : ℕ} (hk : 2 * n < 2 ^ k) (hk' : 2 * n < 2 ^ k') :
    roundsUp m neg n k = roundsUp m neg n k' := by
  have hdiv {j : ℕ} (hj : 2 * n < 2 ^ j) : n / 2 ^ j = 0 ∧ n % 2 ^ j = n :=
    ⟨Nat.div_eq_of_lt (by omega), Nat.mod_eq_of_lt (by omega)⟩
  obtain ⟨hd, hm⟩ := hdiv hk
  obtain ⟨hd', hm'⟩ := hdiv hk'
  have h1 : ¬ 2 ^ k < 2 * n ∧ ¬ 2 ^ k = 2 * n ∧ ¬ 2 ^ k ≤ 2 * n := by omega
  have h1' : ¬ 2 ^ k' < 2 * n ∧ ¬ 2 ^ k' = 2 * n ∧ ¬ 2 ^ k' ≤ 2 * n := by omega
  cases m <;> simp [roundsUp, hm, hm', h1, h1']

theorem roundNat_small (m : Mode) (neg : Bool) {n k k' : ℕ} (hk : 2 * n < 2 ^ k) (hk' : 2 * n < 2 ^ k') :
    roundNat m neg n k = roundNat m neg n k' := by
  rw [roundNat, roundNat, roundsUp_small m neg hk hk', Nat.div_eq_of_lt (by omega), Nat.div_eq_of_lt (by omega)]

/-- The rounded magnitude is the number itself exactly when no bit is lost. -/
theorem roundNat_mul_eq_iff (m : Mode) (neg : Bool) (n k : ℕ) :
    roundNat m neg n k * 2 ^ k = n ↔ n % 2 ^ k = 0 := by
  constructor
  · intro h
    rw [← h]
    exact Nat.mul_mod_left _ _
  · intro h
    rw [roundNat, roundsUp_of_mod_eq_zero h]
    exact Nat.div_mul_cancel (Nat.dvd_of_mod_eq_zero h)

/-- A number with `L + 1` bits rounded to `b + 1` bits. -/
theorem roundNat_bounds {n L b : ℕ} (hlow : 2 ^ L ≤ n) (hhigh : n < 2 ^ (L + 1)) (hb : b ≤ L) (m : Mode) (neg : Bool) :
    2 ^ b ≤ roundNat m neg n (L - b) ∧ roundNat m neg n (L - b) ≤ 2 ^ (b + 1) := by
  have hpos := Nat.two_pow_pos (L - b)
  have hL : 2 ^ L = 2 ^ b * 2 ^ (L - b) := by rw [← pow_add, Nat.add_sub_cancel' hb]
  have hL' : 2 ^ (L + 1) = 2 ^ (b + 1) * 2 ^ (L - b) := by rw [← pow_add]; congr 1; omega
  constructor
  · refine le_trans ?_ (div_le_roundNat m neg n (L - b))
    rwa [Nat.le_div_iff_mul_le hpos, ← hL]
  · refine le_trans (roundNat_le m neg n (L - b)) ?_
    rw [Nat.add_one_le_iff, Nat.div_lt_iff_lt_mul hpos, ← hL']
    exact hhigh

variable {K : Type*} [Field K] [LinearOrder K] [FloorRing K] [IsStrictOrderedRing K]

theorem floor_div_two_pow (n k : ℕ) : ⌊(n : K) / 2 ^ k⌋ = (n / 2 ^ k : ℕ) := by
  have h := Int.floor_div_natCast (n : K) (2 ^ k)
  rw [Int.floor_natCast] at h
  rw [show (2 : K) ^ k = ((2 ^ k : ℕ) : K) by push_cast; rfl, h]
  norm_cast

theorem fract_div_two_pow (n k : ℕ) : Int.fract ((n : K) / 2 ^ k) = (n % 2 ^ k : ℕ) / 2 ^ k := by
  have hpos : (0 : K) < 2 ^ k := by positivity
  have hsplit : (n : K) = 2 ^ k * (n / 2 ^ k : ℕ) + (n % 2 ^ k : ℕ) := by
    exact_mod_cast (Nat.div_add_mod n (2 ^ k)).symm
  rw [Int.fract, floor_div_two_pow, eq_div_iff hpos.ne', sub_mul, div_mul_cancel₀ _ hpos.ne', Int.cast_natCast]
  linarith

theorem roundInt_div_two_pow (m : Mode) (n k : ℕ) :
    roundInt m ((n : K) / 2 ^ k) = (roundNat m false n k : ℤ) := by
  have hpos : (0 : K) < 2 ^ k := by positivity
  have hx : 0 ≤ (n : K) / 2 ^ k := by positivity
  have hcast : (2 : K) ^ k = ((2 ^ k : ℕ) : K) := by push_cast; rfl
  have hlow : 2 * (((n % 2 ^ k : ℕ) : K) / 2 ^ k) < 1 ↔ 2 * (n % 2 ^ k) < 2 ^ k := by
    rw [← mul_div_assoc, div_lt_one hpos, hcast]
    norm_cast
  have hhigh : 1 < 2 * (((n % 2 ^ k : ℕ) : K) / 2 ^ k) ↔ 2 ^ k < 2 * (n % 2 ^ k) := by
    rw [← mul_div_assoc, one_lt_div hpos, hcast]
    norm_cast
  have hzero : ((n % 2 ^ k : ℕ) : K) / 2 ^ k = 0 ↔ n % 2 ^ k = 0 := by
    rw [div_eq_zero_iff, or_iff_left hpos.ne', Nat.cast_eq_zero]
  have heven : Even ((n / 2 ^ k : ℕ) : ℤ) ↔ ¬ n / 2 ^ k % 2 = 1 := by
    rw [Int.even_coe_nat, Nat.even_iff]
    omega
  rw [roundNat]
  cases m with
  | nearestEven =>
      simp only [roundInt, floor_div_two_pow, fract_div_two_pow, hlow, hhigh, heven, roundsUp]
      split_ifs with h1 h2 h3
      · have h : ¬ 2 ^ k < 2 * (n % 2 ^ k) := by omega
        have h' : ¬ 2 ^ k = 2 * (n % 2 ^ k) := by omega
        simp [h, h']
      · simp [h2]
      · have h' : 2 ^ k = 2 * (n % 2 ^ k) := by omega
        simp [h3, ← h']
      · simp [h2, h3]
  | towardZero => simp [roundInt, floor_div_two_pow, hx, roundsUp]
  | down => simp [roundInt, floor_div_two_pow, roundsUp]
  | up =>
      simp only [roundInt, ceil_eq_floor_add, floor_div_two_pow, fract_div_two_pow, hzero, roundsUp]
      split_ifs with h
      · simp [h]
      · simp [h]
  | nearestAway =>
      simp only [roundInt, floor_div_two_pow, fract_div_two_pow, hlow, hhigh, hx, roundsUp, if_true]
      split_ifs with h1 h2
      · simp [h1]
      · simp [h2.le]
      · simp [not_lt.mp h1]

/-- Rounding a dyadic number, sign and magnitude apart. -/
theorem roundInt_signed (m : Mode) (neg : Bool) (n k : ℕ) :
    roundInt m (signed neg ((n : K) / 2 ^ k)) = signed neg (roundNat m neg n k : ℤ) := by
  cases neg with
  | false => exact roundInt_div_two_pow m n k
  | true =>
      show roundInt m (-((n : K) / 2 ^ k)) = -_
      rw [roundInt_neg, roundInt_div_two_pow, roundNat, roundNat, ← roundsUp_opposite m true]
      rfl

end RoundNat

section SameCell

variable {K : Type*} [Field K] [LinearOrder K]

/-- The two numbers compare in the same way with every multiple of `h`: they
are equal to one, or lie between the same two. -/
def SameCell (h x y : K) : Prop := ∀ n : ℤ, (x < n * h ↔ y < n * h) ∧ (n * h < x ↔ n * h < y)

variable {h x y z : K}

theorem SameCell.refl (h x : K) : SameCell h x x := fun _ => ⟨Iff.rfl, Iff.rfl⟩

theorem SameCell.symm (hxy : SameCell h x y) : SameCell h y x := fun n => ⟨(hxy n).1.symm, (hxy n).2.symm⟩

theorem SameCell.trans (hxy : SameCell h x y) (hyz : SameCell h y z) : SameCell h x z :=
  fun n => ⟨(hxy n).1.trans (hyz n).1, (hxy n).2.trans (hyz n).2⟩

theorem SameCell.le_iff (hxy : SameCell h x y) (n : ℤ) : n * h ≤ x ↔ n * h ≤ y := by
  rw [← not_lt, ← not_lt, (hxy n).1]

theorem SameCell.eq_iff (hxy : SameCell h x y) (n : ℤ) : x = n * h ↔ y = n * h := by
  have hle : x ≤ n * h ↔ y ≤ n * h := by rw [← not_lt, (hxy n).2, not_lt]
  rw [le_antisymm_iff, le_antisymm_iff, hxy.le_iff, hle]

theorem SameCell.coarsen (hxy : SameCell h x y) (j : ℤ) : SameCell (j * h) x y := by
  intro n
  have hnj := hxy (n * j)
  rwa [Int.cast_mul, mul_assoc] at hnj

variable [IsStrictOrderedRing K]

theorem SameCell.scale (hxy : SameCell h x y) {c : K} (hc : 0 < c) : SameCell (h * c) (x * c) (y * c) := by
  intro n
  rw [← mul_assoc, mul_lt_mul_iff_left₀ hc, mul_lt_mul_iff_left₀ hc, mul_lt_mul_iff_left₀ hc, mul_lt_mul_iff_left₀ hc]
  exact hxy n

theorem SameCell.neg (hxy : SameCell h x y) : SameCell h (-x) (-y) := by
  intro n
  have hn := hxy (-n)
  rw [Int.cast_neg, neg_mul] at hn
  exact ⟨neg_lt.trans (hn.2.trans neg_lt.symm), lt_neg.trans (hn.1.trans lt_neg.symm)⟩

theorem SameCell.signed (hxy : SameCell h x y) (neg : Bool) : SameCell h (signed neg x) (signed neg y) := by
  cases neg with
  | false => exact hxy
  | true => exact hxy.neg

theorem SameCell.two_zpow {k k' : ℤ} (hxy : SameCell (2 ^ k) x y) (hk : k ≤ k') : SameCell (2 ^ k') x y := by
  have hsplit : (2 : K) ^ k' = ((2 ^ (k' - k).toNat : ℤ) : K) * 2 ^ k := by
    rw [Int.cast_pow, Int.cast_ofNat, ← zpow_natCast, ← zpow_add₀ two_ne_zero]
    congr 1
    omega
  rw [hsplit]
  exact hxy.coarsen _

/-- An odd integer stands for the whole interval between its even
neighbours. -/
theorem sameCell_of_odd {s : ℤ} (hs : Odd s) (hlow : (s : K) - 1 < x) (hhigh : x < s + 1) : SameCell 2 (s : K) x := by
  intro n
  obtain ⟨j, rfl⟩ := hs
  have hn : (n : K) * 2 = ((n * 2 : ℤ) : K) := by push_cast; rfl
  rw [hn]
  rcases lt_or_ge j n with hj | hj
  · have hle : ((2 * j + 1 + 1 : ℤ) : K) ≤ ((n * 2 : ℤ) : K) := by
      rw [Int.cast_le]
      omega
    push_cast at hle hlow hhigh ⊢
    constructor <;> constructor <;> intro <;> linarith
  · have hle : ((n * 2 : ℤ) : K) ≤ ((2 * j + 1 - 1 : ℤ) : K) := by
      rw [Int.cast_le]
      omega
    push_cast at hle hlow hhigh ⊢
    constructor <;> constructor <;> intro <;> linarith

theorem or_one_eq (n : ℕ) : n ||| 1 = 2 * (n / 2) + 1 := by
  have hdiv : (n ||| 1) / 2 = n / 2 := by rw [Nat.or_div_two, Nat.or_zero]
  have hmod : (n ||| 1) % 2 = 1 := Nat.or_mod_two_eq_one.mpr (.inr rfl)
  omega

theorem or_sticky (n : ℕ) (sticky : Bool) : n ||| sticky.toNat = n / 2 * 2 + (decide (n % 2 = 1) || sticky).toNat := by
  cases sticky with
  | false =>
      rw [Bool.toNat_false, Nat.or_zero, Bool.or_false]
      rcases Nat.mod_two_eq_zero_or_one n with h | h <;> simp [h] <;> omega
  | true =>
      rw [Bool.toNat_true, or_one_eq, Bool.or_true, Bool.toNat_true, mul_comm]

/-- A number cut to an integer with what is cut off kept in the last bit. -/
theorem sameCell_sticky {n : ℕ} {sticky : Bool} (hlow : n ≤ x) (hhigh : x < n + 1) (hs : sticky = true ↔ x ≠ n) :
    SameCell 2 ((n ||| sticky.toNat : ℕ) : K) x := by
  cases sticky with
  | false =>
      have hx : x = n := by
        by_contra h
        exact Bool.false_ne_true (hs.mpr h)
      rw [Bool.toNat_false, Nat.or_zero, hx]
      exact SameCell.refl 2 _
  | true =>
      have hlt : (n : K) < x := lt_of_le_of_ne hlow (Ne.symm (hs.mp rfl))
      have hor := or_one_eq n
      rw [Bool.toNat_true]
      have hle : ((n ||| 1 : ℕ) : K) ≤ ((n + 1 : ℕ) : K) := Nat.cast_le.mpr (by omega)
      have hge : (n : K) ≤ ((n ||| 1 : ℕ) : K) := Nat.cast_le.mpr (by omega)
      push_cast at hle
      have hodd : Odd ((n ||| 1 : ℕ) : ℤ) := ⟨((n / 2 : ℕ) : ℤ), by omega⟩
      have hcell := sameCell_of_odd (x := x) hodd (by rw [Int.cast_natCast]; linarith)
        (by rw [Int.cast_natCast]; linarith)
      rwa [Int.cast_natCast] at hcell

theorem sameCell_sticky_div (N : ℕ) {D : ℕ} (hD : 0 < D) {sticky : Bool} (hs : sticky = true ↔ N % D ≠ 0) :
    SameCell 2 ((N / D ||| sticky.toNat : ℕ) : K) (N / D) := by
  have hpos : (0 : K) < D := Nat.cast_pos.mpr hD
  have hsplit : (N : K) / D = (N / D : ℕ) + (N % D : ℕ) / D := by
    rw [eq_comm, ← sub_eq_zero, ← mul_left_inj' hpos.ne', sub_mul, add_mul, div_mul_cancel₀ _ hpos.ne',
      div_mul_cancel₀ _ hpos.ne', zero_mul, sub_eq_zero]
    exact_mod_cast Nat.div_add_mod' N D
  have hfrac : ((N % D : ℕ) : K) / D < 1 := by
    rw [div_lt_one hpos]
    exact Nat.cast_lt.mpr (Nat.mod_lt N hD)
  have hnonneg : (0 : K) ≤ ((N % D : ℕ) : K) / D := div_nonneg (Nat.cast_nonneg _) hpos.le
  refine sameCell_sticky ?_ ?_ ?_
  · linarith
  · linarith
  · rw [hs, hsplit, ne_eq, ne_eq, add_eq_left, div_eq_zero_iff, or_iff_left hpos.ne', Nat.cast_eq_zero]

variable [FloorRing K]

omit [IsStrictOrderedRing K] in
theorem SameCell.floor_eq (hxy : SameCell 1 x y) : ⌊x⌋ = ⌊y⌋ := by
  apply le_antisymm
  · have hle := (hxy.le_iff ⌊x⌋).mp (by rw [mul_one]; exact Int.floor_le x)
    exact Int.le_floor.mpr (by rwa [mul_one] at hle)
  · have hle := (hxy.le_iff ⌊y⌋).mpr (by rw [mul_one]; exact Int.floor_le y)
    exact Int.le_floor.mpr (by rwa [mul_one] at hle)

/-- Rounding to an integer looks only at where a number lies among the half
integers. -/
theorem roundInt_congr (m : Mode) (hxy : SameCell (1 / 2) x y) : roundInt m x = roundInt m y := by
  have hone : SameCell 1 x y := by
    have h2 := hxy.coarsen 2
    rwa [Int.cast_ofNat, mul_one_div_cancel two_ne_zero] at h2
  have hfloor := hone.floor_eq
  have hhalf := hxy (2 * ⌊x⌋ + 1)
  have hzero := hone.eq_iff ⌊x⌋
  have hsign := hone.le_iff 0
  have hfx : Int.fract x = x - ⌊x⌋ := rfl
  have hfy : Int.fract y = y - ⌊x⌋ := by rw [hfloor]; rfl
  push_cast at hhalf
  have hlow : 2 * Int.fract x < 1 ↔ 2 * Int.fract y < 1 := by
    rw [hfx, hfy]
    constructor <;> intro h
    · have := hhalf.1.mp (by linarith)
      linarith
    · have := hhalf.1.mpr (by linarith)
      linarith
  have hhigh : 1 < 2 * Int.fract x ↔ 1 < 2 * Int.fract y := by
    rw [hfx, hfy]
    constructor <;> intro h
    · have := hhalf.2.mp (by linarith)
      linarith
    · have := hhalf.2.mpr (by linarith)
      linarith
  have hceil : ⌈x⌉ = ⌈y⌉ := by
    rw [mul_one] at hzero
    rw [ceil_eq_floor_add, ceil_eq_floor_add, ← hfloor, hfx, hfy]
    simp only [sub_eq_zero, hzero]
  rw [Int.cast_zero, zero_mul] at hsign
  cases m <;> simp only [roundInt, ← hfloor, hceil, hlow, hhigh, hsign]

end SameCell

end VMate.Rounding
