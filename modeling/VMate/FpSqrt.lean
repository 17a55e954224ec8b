import VMate.FpDiv
import VMate.RootRounding

namespace VMate.FpSqrt

open Decode FpUnpack FpRoundPack FpFma FpDivSqrt FpAlu Rounding Ieee BitNat FpDatum FpRound FpOrder FpResult FmaExact
  FpDiv

section Recurrence

/-- The partial root and remainder of the digits read so far. -/
structure SqrtInv (N n : ℕ) (s : SqrtState) : Prop where
  value : s.q.toNat ^ 2 + s.rem.toNat = N / 4 ^ n
  rem_le : s.rem.toNat ≤ 2 * s.q.toNat
  q_lt : s.q.toNat < 2 ^ (57 - n)

variable {padded : BitVec 114} {n : ℕ} {s : SqrtState}

theorem toNat_sqrtSub (s : SqrtState) : (sqrtSub s).toNat = 4 * s.q.toNat + 1 := by
  rw [sqrtSub, toNat_append, mul_comm]
  rfl

/-- No bit of the remainder is lost when the next two digits come in. -/
theorem toNat_sqrtRemNext (h : SqrtInv padded.toNat (n + 1) s) (hn : n < 57) :
    (sqrtRemNext padded n s).toNat = 4 * s.rem.toNat + padded.toNat / 4 ^ n % 4 := by
  have hrem := h.rem_le
  have hq := h.q_lt
  have hpow : 2 ^ (57 - (n + 1)) ≤ 2 ^ 56 := Nat.pow_le_pow_right two_pos (by omega)
  have hdigits : (padded.extractLsb' (n * 2) 2).toNat = padded.toNat / 4 ^ n % 4 := by
    rw [BitVec.extractLsb'_toNat, Nat.shiftRight_eq_div_pow, mul_comm n 2, pow_mul]
    rfl
  have hkept : (s.rem.extractLsb 56 0).toNat = s.rem.toNat := by
    rw [toNat_extractLsb, pow_zero, Nat.div_one, Nat.mod_eq_of_lt]
    show s.rem.toNat < 2 ^ 57
    omega
  rw [sqrtRemNext, toNat_append, hkept, hdigits, mul_comm]
  rfl

theorem toNat_shiftIn (h : SqrtInv padded.toNat (n + 1) s) (b : BitVec 1) :
    (s.q.extractLsb 55 0 ++ b).toNat = 2 * s.q.toNat + b.toNat := by
  have hq := h.q_lt
  have hpow : 2 ^ (57 - (n + 1)) ≤ 2 ^ 56 := Nat.pow_le_pow_right two_pos (by omega)
  have hkept : (s.q.extractLsb 55 0).toNat = s.q.toNat := by
    rw [toNat_extractLsb, pow_zero, Nat.div_one, Nat.mod_eq_of_lt]
    show s.q.toNat < 2 ^ 56
    omega
  rw [toNat_append, hkept, mul_comm, pow_one]

/-- The digit `b` extends the root; the two digits `d` of the radicand extend
the remainder. -/
theorem SqrtInv.digit {N b d : ℕ} {t : SqrtState} (h : SqrtInv N (n + 1) s) (hn : n < 57) (hb : b < 2)
    (hd : d = N / 4 ^ n % 4) (hq : t.q.toNat = 2 * s.q.toNat + b)
    (hrem : t.rem.toNat + b * (4 * s.q.toNat + 1) = 4 * s.rem.toNat + d) (hle : t.rem.toNat ≤ 2 * t.q.toNat) :
    SqrtInv N n t := by
  have hvalue := h.value
  have hlt := h.q_lt
  have hpow : 2 ^ (57 - n) = 2 * 2 ^ (57 - (n + 1)) := by
    rw [← pow_succ']
    congr 1
    omega
  have hdigit : N / 4 ^ n = 4 * (N / 4 ^ (n + 1)) + d := by
    rw [hd, pow_succ, ← Nat.div_div_eq_div_mul]
    exact (Nat.div_add_mod _ 4).symm
  have hsq : t.q.toNat ^ 2 = 4 * s.q.toNat ^ 2 + b * (4 * s.q.toNat + 1) := by
    rw [hq]
    obtain rfl | rfl : b = 0 ∨ b = 1 := by omega
    · ring
    · ring
  refine ⟨?_, hle, by omega⟩
  calc t.q.toNat ^ 2 + t.rem.toNat
      = 4 * s.q.toNat ^ 2 + (t.rem.toNat + b * (4 * s.q.toNat + 1)) := by rw [hsq]; ring
    _ = 4 * (s.q.toNat ^ 2 + s.rem.toNat) + d := by rw [hrem]; ring
    _ = N / 4 ^ n := by rw [hvalue, hdigit]

theorem sqrtStep_inv (h : SqrtInv padded.toNat (n + 1) s) (hn : n < 57) :
    SqrtInv padded.toNat n (sqrtStep padded n s) := by
  have hsub := toNat_sqrtSub s
  have hnext := toNat_sqrtRemNext h hn
  have hrem := h.rem_le
  have hlt := Nat.mod_lt (padded.toNat / 4 ^ n) (show 4 > 0 by decide)
  rw [sqrtStep]
  split_ifs with hle
  · rw [BitVec.ule_iff_le, BitVec.le_def, hsub, hnext] at hle
    have hroot : (s.q.extractLsb 55 0 ++ 1#1).toNat = 2 * s.q.toNat + 1 := toNat_shiftIn h 1#1
    have hdiff : (sqrtRemNext padded n s - sqrtSub s).toNat =
        4 * s.rem.toNat + padded.toNat / 4 ^ n % 4 - (4 * s.q.toNat + 1) := by
      rw [BitVec.toNat_sub_of_le (by rwa [BitVec.le_def, hsub, hnext]), hsub, hnext]
    apply h.digit hn one_lt_two rfl hroot
    · rw [hdiff, one_mul]
      omega
    · rw [hdiff, hroot]
      omega
  · rw [BitVec.ule_iff_le, BitVec.le_def, hsub, hnext] at hle
    have hroot : (s.q.extractLsb 55 0 ++ 0#1).toNat = 2 * s.q.toNat := toNat_shiftIn h 0#1
    apply h.digit hn two_pos rfl hroot
    · rw [hnext, zero_mul]
      rfl
    · rw [hnext, hroot]
      omega

theorem sqrtLoop_inv (hn : n ≤ 57) (h : SqrtInv padded.toNat n s) : SqrtInv padded.toNat 0 (sqrtLoop padded n s) := by
  induction n generalizing s with
  | zero => exact h
  | succ n ih => exact ih (by omega) (sqrtStep_inv h (by omega))

theorem sqrtInv_init (radix : BitVec 57) : SqrtInv (radix ++ 0#57).toNat 57 ⟨0#57, 0#59⟩ := by
  refine ⟨?_, le_rfl, by decide⟩
  rw [Nat.div_eq_of_lt (lt_of_lt_of_eq (radix ++ 0#57).isLt (by decide))]
  rfl

theorem sqrtRoot_spec (radix : BitVec 57) :
    (sqrtRoot radix).q.toNat ^ 2 + (sqrtRoot radix).rem.toNat = radix.toNat * 2 ^ 57 ∧
      (sqrtRoot radix).rem.toNat ≤ 2 * (sqrtRoot radix).q.toNat := by
  have hpadded : (radix ++ 0#57).toNat = radix.toNat * 2 ^ 57 := toNat_append_zero radix
  have hfinal := sqrtLoop_inv le_rfl (sqrtInv_init radix)
  have hvalue := hfinal.value
  rw [pow_zero, Nat.div_one, hpadded] at hvalue
  exact ⟨hvalue, hfinal.rem_le⟩

/-- The registers after the first `k` iterations, those of `i = 56` down to
`57 - k`. -/
def sqrtPartial (radix : BitVec 57) : ℕ → SqrtState
  | 0 => ⟨0#57, 0#59⟩
  | k + 1 => sqrtStep (radix ++ 0#57) (56 - k) (sqrtPartial radix k)

theorem sqrtPartial_inv (radix : BitVec 57) {k : ℕ} (hk : k ≤ 57) :
    SqrtInv (radix ++ 0#57).toNat (57 - k) (sqrtPartial radix k) := by
  induction k with
  | zero => exact sqrtInv_init radix
  | succ k ih =>
      have hprev := ih (by omega)
      rw [show 57 - k = 56 - k + 1 by omega] at hprev
      rw [show 57 - (k + 1) = 56 - k by omega]
      exact sqrtStep_inv hprev (by omega)

theorem sqrtLoop_sqrtPartial (radix : BitVec 57) {k : ℕ} (hk : k ≤ 57) :
    sqrtLoop (radix ++ 0#57) (57 - k) (sqrtPartial radix k) = sqrtRoot radix := by
  induction k with
  | zero => rfl
  | succ k ih =>
      rw [← ih (by omega), show 57 - k = 56 - k + 1 by omega, show 57 - (k + 1) = 56 - k by omega]
      rfl

/-- The digit recurrence extracts the integer root with its remainder. The
bits that an iteration shifts out of the two registers are zero. -/
theorem sqrt_recurrence (radix : BitVec 57) :
    (sqrtRoot radix).q.toNat = Nat.sqrt (radix ++ 0#57).toNat ∧
      (sqrtRoot radix).rem.toNat = (radix ++ 0#57).toNat - (sqrtRoot radix).q.toNat ^ 2 ∧
      sqrtPartial radix 57 = sqrtRoot radix ∧
      ∀ k < 57, (sqrtPartial radix k).rem.extractLsb 58 57 = 0#2 ∧ (sqrtPartial radix k).q.getLsbD 56 = false ∧
        (sqrtRemNext (radix ++ 0#57) (56 - k) (sqrtPartial radix k)).toNat =
          4 * (sqrtPartial radix k).rem.toNat + (radix ++ 0#57).toNat / 4 ^ (56 - k) % 4 := by
  obtain ⟨hvalue, hrem⟩ := sqrtRoot_spec radix
  have hpadded : (radix ++ 0#57).toNat = radix.toNat * 2 ^ 57 := toNat_append_zero radix
  rw [← hpadded] at hvalue
  have hsucc : ((sqrtRoot radix).q.toNat + 1) ^ 2 =
      (sqrtRoot radix).q.toNat ^ 2 + (2 * (sqrtRoot radix).q.toNat + 1) := by
    ring
  refine ⟨?_, by omega, sqrtLoop_sqrtPartial radix le_rfl, fun k hk => ?_⟩
  · rw [Nat.eq_sqrt', hsucc]
    omega
  · have hinv := sqrtPartial_inv radix hk.le
    have hrem := hinv.rem_le
    have hq : (sqrtPartial radix k).q.toNat < 2 ^ 56 :=
      lt_of_lt_of_le hinv.q_lt (Nat.pow_le_pow_right two_pos (by omega))
    rw [show 57 - k = 56 - k + 1 by omega] at hinv
    refine ⟨?_, ?_, toNat_sqrtRemNext hinv (by omega)⟩
    · apply BitVec.eq_of_toNat_eq
      rw [toNat_extractLsb, Nat.div_eq_of_lt (by omega)]
      rfl
    · exact Nat.testBit_lt_two_pow hq

end Recurrence

section Significand

theorem toNat_sqrtSig (s : SqrtState) :
    (sqrtSig s).toNat = s.q.toNat / 2 ||| (decide (s.q.toNat % 2 = 1) || decide (s.rem.toNat ≠ 0)).toNat := by
  have hhigh : (s.q.extractLsb 56 2).toNat = s.q.toNat / 4 := toNat_extractLsb_top s.q 2 (by decide)
  have hlast : s.q.getLsbD 0 = decide (s.q.toNat % 2 = 1) := by rw [getLsbD_eq, pow_zero, Nat.div_one]
  rw [sqrtSig, or_sticky, hlast, bne_zero_eq]
  refine (toNat_append (s.q.extractLsb 56 2) _).trans ?_
  rw [hhigh, BitVec.toNat_ofBool, getLsbD_eq, pow_one, Nat.div_div_eq_div_mul]

/-- An integer root with its remainder, halved. -/
theorem half_root {q r N : ℕ} (hN : q ^ 2 + r = N) (hr : r ≤ 2 * q) :
    4 * (q / 2) ^ 2 ≤ N ∧ N < 4 * (q / 2 + 1) ^ 2 ∧ (q % 2 = 1 ∨ r ≠ 0 ↔ N ≠ 4 * (q / 2) ^ 2) := by
  obtain ⟨p, b, hb, rfl⟩ : ∃ p b, b < 2 ∧ q = 2 * p + b :=
    ⟨q / 2, q % 2, Nat.mod_lt _ two_pos, (Nat.div_add_mod q 2).symm⟩
  have hp : (2 * p + b) / 2 = p := by omega
  have hsucc : (p + 1) ^ 2 = p ^ 2 + (2 * p + 1) := by ring
  rw [hp, hsucc, ← hN]
  obtain rfl | rfl : b = 0 ∨ b = 1 := by omega
  · have hsq : (2 * p + 0) ^ 2 = 4 * p ^ 2 := by ring
    rw [hsq]
    omega
  · have hsq : (2 * p + 1) ^ 2 = 4 * p ^ 2 + (4 * p + 1) := by ring
    rw [hsq]
    omega

theorem le_sqrtSig {radix : BitVec 57} (hradix : 2 ^ 55 ≤ radix.toNat) :
    2 ^ 55 ≤ (sqrtSig (sqrtRoot radix)).toNat := by
  obtain ⟨hvalue, hrem⟩ := sqrtRoot_spec radix
  have hroot : 2 ^ 56 < (sqrtRoot radix).q.toNat + 1 := by
    refine lt_of_pow_lt_pow_left₀ 2 (Nat.zero_le _) ?_
    have hsucc : ((sqrtRoot radix).q.toNat + 1) ^ 2 =
      (sqrtRoot radix).q.toNat ^ 2 + (2 * (sqrtRoot radix).q.toNat + 1) := by
      ring
    rw [hsucc]
    omega
  rw [toNat_sqrtSig]
  refine le_trans ?_ Nat.left_le_or
  omega

variable {K : Type*} [Field K] [LinearOrder K] [IsStrictOrderedRing K]

/-- The significand that goes to the packer stands for half the root of the
padded radicand. -/
theorem rootCell_sqrtSig (radix : BitVec 57) :
    RootCell 2 ((sqrtSig (sqrtRoot radix)).toNat : K) ((radix.toNat * 2 ^ 57 : ℕ) / 4) := by
  obtain ⟨hvalue, hrem⟩ := sqrtRoot_spec radix
  obtain ⟨hlow, hhigh, hexact⟩ := half_root hvalue hrem
  have hfour : (0 : K) < 4 := by norm_num
  rw [toNat_sqrtSig]
  apply rootCell_sticky
  · rw [le_div_iff₀ hfour, mul_comm _ (4 : K)]
    exact_mod_cast hlow
  · rw [div_lt_iff₀ hfour, mul_comm _ (4 : K)]
    exact_mod_cast hhigh
  · rw [Bool.or_eq_true, decide_eq_true_iff, decide_eq_true_iff, hexact, ne_eq, ne_eq, div_eq_iff hfour.ne',
      mul_comm _ (4 : K)]
    exact_mod_cast Iff.rfl

end Significand

section Operand

variable {x : FpUnpacked}

theorem getLsbD_zero_iff (e : BitVec 13) : e.getLsbD 0 = true ↔ e.toInt % 2 = 1 := by
  have hlt := e.isLt
  rw [getLsbD_iff, pow_zero, Nat.div_one, BitVec.toInt_eq_toNat_cond]
  split_ifs <;> omega

/-- Half the exponent, rounded down, and the radicand that makes up for it. -/
theorem sqrt_operand (hx : x.sig.toNat ≠ 0) (hlow : -4000 ≤ (expNorm x).toInt) :
    ((sqrtExpEven x).sshiftRight 1).toInt = (expNorm x).toInt / 2 ∧
      (sqrtRadix x).toNat = (normSig x.sig).toNat * 2 ^ ((expNorm x).toInt % 2).toNat := by
  have hhigh : (expNorm x).toInt < 2 ^ 12 := BitVec.toInt_lt
  have hpar := getLsbD_zero_iff (expNorm x)
  rw [BitVec.toInt_sshiftRight, Int.shiftRight_eq_div_pow, pow_one, sqrtExpEven, sqrtRadix, sigNorm_eq hx]
  split_ifs with hodd
  · have hone := hpar.mp hodd
    have hsub : (expNorm x - 1#13).toInt = (expNorm x).toInt - 1 := by
      have h1 : (1#13).toInt = 1 := rfl
      rw [toInt_sub_of_bounds (by rw [h1]; omega) (by rw [h1]; omega), h1]
    rw [hone, hsub]
    refine ⟨?_, toNat_append_zero _⟩
    show ((expNorm x).toInt - 1) / 2 = _
    omega
  · have hzero : (expNorm x).toInt % 2 = 0 := by
      have hne : ¬ (expNorm x).toInt % 2 = 1 := fun h => hodd (hpar.mpr h)
      omega
    rw [hzero]
    refine ⟨rfl, ?_⟩
    rw [toNat_zero_append]
    exact (Nat.mul_one _).symm

variable {K : Type*} [Field K] [LinearOrder K] [IsStrictOrderedRing K]

theorem radicand_value (n : ℕ) (e : ℤ) :
    (n : K) * 2 ^ (e - 55) = ((n * 2 ^ (e % 2).toNat * 2 ^ 57 : ℕ) : K) / 4 * (2 ^ (e / 2 - 55)) ^ 2 := by
  have hsq : ((2 : K) ^ (e / 2 - 55)) ^ 2 = 2 ^ ((e / 2 - 55) * 2) := by
    rw [zpow_mul]
    exact_mod_cast rfl
  have hsplit : e - 55 = (e / 2 - 55) * 2 + ((e % 2).toNat + 55 : ℕ) := by
    push_cast
    omega
  rw [hsplit, two_zpow_add, hsq, pow_add]
  push_cast
  ring

variable {g : BitVec 2} {s : Bool} {v : K}

omit [LinearOrder K] [IsStrictOrderedRing K] in
/-- The normalised exponent of a number stays above the last place of the
smallest subnormal one. -/
theorem expNorm_bounds (h : FiniteUnpack (formatOf g) x s v) (hx : x.sig.toNat ≠ 0) :
    (formatOf g).emin - (formatOf g).fracBits ≤ (expNorm x).toInt ∧ (expNorm x).toInt ≤ (formatOf g).emax := by
  have hfb := fracBits_le g
  have hmin := h.emin_le
  have hmax := h.le_emax
  have hlog : Nat.log2 x.sig.toNat < 56 := log2_lt hx x.sig.isLt
  have hgrid : 55 - (formatOf g).fracBits ≤ Nat.log2 x.sig.toNat := by
    rw [Nat.le_log2 hx]
    exact Nat.le_of_dvd (Nat.pos_of_ne_zero hx) h.grid
  rw [expNorm_eq hx, toInt_normExp hx (exp_safe h).1]
  omega

theorem emin_le_neg_fracBits (g : BitVec 2) : (formatOf g).emin ≤ -((formatOf g).fracBits : ℤ) := by
  by_cases hg : g = 0b00#2
  · rw [formatOf, if_pos hg]
    decide
  · rw [formatOf, if_neg hg]
    decide

variable [FloorRing K] {rm : BitVec 3} {m : Mode}

/-- The root of a positive number is rounded once. -/
theorem sqrt_finite (hm : modeOf rm = some m) (h : FiniteUnpack (formatOf g) x false v) (hx : x.sig.toNat ≠ 0) :
    Delivers g (fpRoundPack false ((sqrtExpEven x).sshiftRight 1) (sqrtSig (sqrtRoot (sqrtRadix x))) g rm false false)
      (ieeeRoot (formatOf g) m v) := by
  obtain ⟨hv, hlow, hhigh⟩ := normalised h hx
  obtain ⟨hE, hR⟩ := sqrt_operand hx (by omega)
  obtain ⟨hmin, hmax⟩ := expNorm_bounds h hx
  have hfb := fracBits_le g
  have hemin := emin_le_neg_fracBits g
  have hone := (formatOf g).one_le_emax
  have hnorm := normSig_bounds hx
  have hcell := rootCell_sqrtSig (K := K) (sqrtRadix x)
  have hsig : 2 ^ 55 ≤ (sqrtSig (sqrtRoot (sqrtRadix x))).toNat := by
    apply le_sqrtSig
    rw [hR]
    exact hnorm.1.trans (Nat.le_mul_of_pos_right _ (Nat.two_pow_pos _))
  have hscale := two_zpow_pos (K := K) ((expNorm x).toInt / 2 - 55)
  have hpos : (0 : K) < (sqrtSig (sqrtRoot (sqrtRadix x))).toNat * 2 ^ ((expNorm x).toInt / 2 - 55) :=
    mul_pos (Nat.cast_pos.mpr (lt_of_lt_of_le (Nat.two_pow_pos 55) hsig)) hscale
  have hlog := log_scaled (K := K) ((expNorm x).toInt / 2 - 55) hsig (BitVec.isLt _)
  have hvalue : v = (normSig x.sig).toNat * 2 ^ ((expNorm x).toInt - 55) := hv
  have hvpos : 0 < v := by
    rw [hvalue]
    exact mul_pos (Nat.cast_pos.mpr (by omega)) (two_zpow_pos _)
  have hscaled := hcell.scale_two ((expNorm x).toInt / 2 - 55)
  rw [hR, ← radicand_value, ← hvalue] at hscaled
  have hieee := ieee_root (formatOf g) m false hpos hvpos (by rw [hlog]; push_cast; omega)
    (by rw [hlog]; push_cast; omega) (hscaled.two_zpow (by rw [hlog]; push_cast; omega))
  have hspec := fpRoundPack_spec (K := K) ((sqrtExpEven x).sshiftRight 1) (sqrtSig (sqrtRoot (sqrtRadix x))) g hm false
    (by omega)
  rw [hE] at hspec
  rwa [← hieee]

end Operand

section Main

variable {K : Type*} [Field K] [LinearOrder K] [FloorRing K] [IsStrictOrderedRing K]

/-- What a square root returns for the operand `x`, whose datum is given. -/
def SqrtReturns (fmt : BitVec 2) (m : Mode) (x : BitVec 64) (r : BitVec 64 × BitVec 5) : Datum K → Prop
  | .finite _ v =>
      if v = 0 then r = (x, 0#5)
      else if v < 0 then r = (canonicalNan fmt, flags true false false false false)
      else Delivers fmt r (ieeeRoot (formatOf fmt) m v)
  | .inf s => r = if s then (canonicalNan fmt, flags true false false false false) else (x, 0#5)
  | .nan signaling => r = (canonicalNan fmt, flags signaling false false false false)

variable {fmt : BitVec 2} {x : BitVec 64}

omit [FloorRing K] in
theorem eq_of_read {y : BitVec 64} {d : Datum K} (hx : (read fmt x : Datum K) = d) (hy : (read fmt y : Datum K) = d)
    (hd : d.isNan = false) : y = x := by
  have heq : (read fmt y : Datum K) = read fmt x := by rw [hx, hy]
  exact read_inj (by rw [hy, hd]) heq

theorem sqrt_number {rm : BitVec 3} {m : Mode} {s : Bool} {v : K} (hm : modeOf rm = some m)
    (hread : (read fmt x : Datum K) = .finite s v) (y : FpUnpacked) :
    SqrtReturns fmt m x (fpDivsqrt true fmt rm (fpUnpack x fmt) y) (Datum.finite s v) := by
  have hunpack := fpUnpack_spec (K := K) fmt x
  rw [hread] at hunpack
  have h : FiniteUnpack (formatOf fmt) (fpUnpack x fmt) s v := hunpack
  have hz := FiniteUnpack.isZero_eq h
  rw [SqrtReturns, fpDivsqrt]
  simp only [if_true]
  rw [sqrtClass, h.notSnan, h.notNan, h.notInf, hz, h.sign]
  by_cases hv : v = 0
  · have hzero : FpDivSqrt.zero fmt s = x := eq_of_read hread (by rw [read_zero, hv]) rfl
    simp [hv, hzero]
    rfl
  · have hsig : (fpUnpack x fmt).sig.toNat ≠ 0 := by simpa [← h.isZero, hz] using hv
    have hpos : (0 : K) < (fpUnpack x fmt).sig.toNat * 2 ^ ((fpUnpack x fmt).exp.toInt - 55) :=
      mul_pos (Nat.cast_pos.mpr (Nat.pos_of_ne_zero hsig)) (two_zpow_pos _)
    have hneg : v < 0 ↔ s = true := by
      rw [h.value, ← decide_eq_true_iff (p := _ < (0 : K)), signed_lt_zero s hpos]
    cases s with
    | false =>
        simp only [hv, hneg, if_false, decide_false, Bool.false_and, Bool.false_eq_true]
        exact sqrt_finite hm h hsig
    | true => simp [hv, hneg]

theorem fpDivsqrt_sqrt {rm : BitVec 3} {m : Mode} (hm : modeOf rm = some m) (y : FpUnpacked) :
    SqrtReturns fmt m x (fpDivsqrt true fmt rm (fpUnpack x fmt) y) (read fmt x : Datum K) := by
  have hunpack := fpUnpack_spec (K := K) fmt x
  cases hread : (read fmt x : Datum K) with
  | finite s v => exact sqrt_number hm hread y
  | inf s =>
      rw [hread] at hunpack
      obtain ⟨hz, hi, hs, -, hn⟩ := Unpacks.classes hunpack
      rw [SqrtReturns, fpDivsqrt]
      cases s with
      | false =>
          have hinf : infinity fmt false = x := eq_of_read hread (read_infinity fmt false) rfl
          simp [sqrtClass, hz, hi, hs, hn, hunpack.1, hinf]
          rfl
      | true => simp [sqrtClass, hz, hs, hn, hunpack.1]
  | nan s =>
      rw [hread] at hunpack
      obtain ⟨-, -, hs, -, hn⟩ := Unpacks.classes hunpack
      rw [SqrtReturns, fpDivsqrt]
      cases s <;> simp [sqrtClass, hs, hn]

theorem fpAlu_fsqrt {i : FpAluIn} (hop : i.fpAluOp = fpAluFsqrt) :
    fpAlu i = fpDivsqrt true i.fmt (effRm i) (fpUnpack i.rs1Data i.fmt) (fpUnpack i.rs2Data i.fmt) := by
  have hfmt : rs1Fmt i = i.fmt := by simp [rs1Fmt, hop, fpAluFsqrt, fpAluFcvt]
  rw [fpAlu, hop, hfmt]
  rfl

/-- FSQRT is correctly rounded, special operands included. -/
theorem sqrt_correct (i : FpAluIn) (m : Mode) (hop : i.fpAluOp = fpAluFsqrt) (hm : modeOf (effRm i) = some m) :
    SqrtReturns i.fmt m i.rs1Data (fpAlu i) (read i.fmt i.rs1Data : Datum ℚ) := by
  rw [fpAlu_fsqrt hop]
  exact fpDivsqrt_sqrt hm _

/-- The square root of two, rounded up. -/
def rootTwo : FpAluIn :=
  { fpAluOp := fpAluFsqrt, fmt := 0b00#2, rm := 0b111#3, fcsrRm := 0b011#3, rs1Data := 0xFFFFFFFF40000000#64
    rs2Data := 0#64, rs3Data := 0#64, intRs1Data := 0#32, intToFp := false, fpToInt := false, rs2Addr := 0#5 }

theorem sqrt_correct_rootTwo : SqrtReturns rootTwo.fmt .up rootTwo.rs1Data (fpAlu rootTwo)
    (read 0b00#2 0xFFFFFFFF40000000#64 : Datum ℚ) :=
  sqrt_correct rootTwo .up rfl rfl

end Main

end VMate.FpSqrt
