import Mathlib.Data.Rat.Floor
import VMate.FmaExact
import VMate.FpResult

namespace VMate.FmaFinite

open Decode FpUnpack FpRoundPack FpFma FpAlu Rounding Ieee BitNat FpDatum FpRound FpResult FmaExact

section Cut

/-- A number shifted right, with one more bit below that tells whether any
bits were lost. -/
def cut (N d : ℕ) : ℕ := 2 * (N / 2 ^ d) + (decide (N % 2 ^ d ≠ 0)).toNat

theorem cut_zero (N : ℕ) : cut N 0 = 2 * N := by simp [cut, Nat.mod_one]

theorem cut_of_lt {N d : ℕ} (h : N < 2 ^ d) : cut N d = (decide (N ≠ 0)).toNat := by
  rw [cut, Nat.div_eq_of_lt h, Nat.mod_eq_of_lt h, Nat.mul_zero, Nat.zero_add]

theorem cut_lt {N d L : ℕ} (h : N < 2 ^ (L + d)) : cut N d < 2 ^ (L + 1) := by
  have hdiv : N / 2 ^ d < 2 ^ L := by rwa [Nat.div_lt_iff_lt_mul (Nat.two_pow_pos d), ← pow_add]
  have hbit := Bool.toNat_le (decide (N % 2 ^ d ≠ 0))
  rw [cut, pow_succ]
  omega

variable {K : Type*} [Field K] [LinearOrder K] [IsStrictOrderedRing K] {N d : ℕ}

theorem two_mul_div_eq (N d : ℕ) : 2 * (N : K) / 2 ^ d = 2 * (N / 2 ^ d : ℕ) + 2 * ((N % 2 ^ d : ℕ) / 2 ^ d) := by
  have hpos : (0 : K) < 2 ^ d := by positivity
  have hsplit : (N : K) = 2 ^ d * (N / 2 ^ d : ℕ) + (N % 2 ^ d : ℕ) := by
    exact_mod_cast (Nat.div_add_mod N (2 ^ d)).symm
  field_simp
  linarith

theorem cut_exact (h : N % 2 ^ d = 0) : (cut N d : K) = 2 * N / 2 ^ d := by
  rw [two_mul_div_eq, cut, h]
  simp

/-- Where bits are lost the last bit stands for them. -/
theorem cut_lost (h : N % 2 ^ d ≠ 0) : Odd (cut N d) ∧ |2 * (N : K) / 2 ^ d - cut N d| < 1 := by
  have hpos : (0 : K) < 2 ^ d := by positivity
  have hlt : ((N % 2 ^ d : ℕ) : K) < 2 ^ d := by exact_mod_cast Nat.mod_lt N (Nat.two_pow_pos d)
  have hfrac : ((N % 2 ^ d : ℕ) : K) / 2 ^ d < 1 := (div_lt_one hpos).mpr hlt
  have hfrac' : (0 : K) < (N % 2 ^ d : ℕ) / 2 ^ d := div_pos (Nat.cast_pos.mpr (Nat.pos_of_ne_zero h)) hpos
  have hcut : cut N d = 2 * (N / 2 ^ d) + 1 := by rw [cut, decide_eq_true h, Bool.toNat_true]
  constructor
  · exact ⟨N / 2 ^ d, hcut⟩
  · rw [hcut, two_mul_div_eq, abs_lt]
    push_cast
    constructor <;> linarith

end Cut

section Align

/-- The two operands brought to one exponent, at most one of them shifted. -/
structure AlignSpec (pExp aExp : ℤ) (P A : ℕ) (al : Aligned) (dp da : ℕ) : Prop where
  prod : (0#1 ++ al.pSig ++ BitVec.ofBool al.pSticky).toNat = cut P dp
  addend : (0#1 ++ al.aSig ++ BitVec.ofBool al.aSticky).toNat = cut A da
  prodExp : P ≠ 0 → al.finalExp.toInt = pExp + dp
  addendExp : A ≠ 0 → al.finalExp.toInt = aExp + da
  exp_safe : -2100 ≤ al.finalExp.toInt ∧ al.finalExp.toInt ≤ 2100
  kept : dp = 0 ∨ da = 0
  prod_cut : dp ≠ 0 → P ≠ 0 ∧ A ≠ 0
  addend_cut : da ≠ 0 → P ≠ 0 ∧ A ≠ 0

theorem toNat_ext (s : BitVec 112) (b : Bool) : (0#1 ++ s ++ BitVec.ofBool b).toNat = 2 * s.toNat + b.toNat := by
  refine (toNat_append (0#1 ++ s) (BitVec.ofBool b)).trans ?_
  rw [toNat_zero_append, BitVec.toNat_ofBool, pow_one, mul_comm]

theorem toNat_ext_kept (s : BitVec 112) : (0#1 ++ s ++ BitVec.ofBool false).toNat = cut s.toNat 0 := by
  rw [toNat_ext, cut_zero]
  rfl

theorem toNat_ext_shift (s : BitVec 112) {shamt : BitVec 7} (h : shamt.toNat < 112) :
    (0#1 ++ s >>> shamt ++ BitVec.ofBool (shiftSticky s shamt)).toNat = cut s.toNat shamt.toNat := by
  rw [toNat_ext, BitVec.ushiftRight_eq', toNat_ushiftRight, shiftSticky, BitVec.shiftLeft_eq', bne_zero_eq,
    toNat_and_shiftMask s h]
  rfl

/-- Shifts by 112 places and more leave the sticky bit. -/
theorem toNat_ext_far (s : BitVec 112) {d : ℕ} (h : 112 ≤ d) :
    (0#1 ++ 0#112 ++ BitVec.ofBool (s != 0#112)).toNat = cut s.toNat d := by
  have hlt : s.toNat < 2 ^ d := lt_of_lt_of_le s.isLt (Nat.pow_le_pow_right two_pos h)
  rw [toNat_ext, cut_of_lt hlt, bne_zero_eq]
  exact Nat.zero_add _

theorem toNat_shamt {e : BitVec 14} (h : 0 ≤ e.toInt) (h' : e.toInt < 112) :
    ((e.extractLsb 6 0).toNat : ℤ) = e.toInt := by
  have hlt := e.isLt
  rw [BitVec.toInt_eq_toNat_cond] at h h' ⊢
  rw [toNat_extractLsb]
  split_ifs at h h' ⊢ <;> omega

/-- The operand with the smaller exponent is the one that is shifted. -/
theorem align_spec (pExp aExp : BitVec 14) (hp : -2100 ≤ pExp.toInt ∧ pExp.toInt ≤ 2100)
    (ha : -2100 ≤ aExp.toInt ∧ aExp.toInt ≤ 2100) (pSig aSig : BitVec 112) :
    ∃ dp da, AlignSpec pExp.toInt aExp.toInt pSig.toNat aSig.toNat (align pExp aExp pSig aSig) dp da := by
  have hdiff : (pExp - aExp).toInt = pExp.toInt - aExp.toInt := toInt_sub_of_bounds (by omega) (by omega)
  have hneg : (-(pExp - aExp)).toInt = aExp.toInt - pExp.toInt := by
    rw [← BitVec.zero_sub]
    rw [toInt_sub_of_bounds (by rw [hdiff]; simp; omega) (by rw [hdiff]; simp; omega), hdiff]
    simp
  have hboth (hp0 : ¬ pSig = 0#112) (ha0 : ¬ aSig = 0#112) : pSig.toNat ≠ 0 ∧ aSig.toNat ≠ 0 := by
    rw [← BitVec.toNat_inj] at hp0 ha0
    exact ⟨hp0, ha0⟩
  have hzero : (0#1 ++ 0#112 ++ BitVec.ofBool false).toNat = cut (0#112).toNat 0 := toNat_ext_kept 0#112
  have h0 : (0#14).toInt = 0 := rfl
  have h112 : (112#14).toInt = 112 := rfl
  rw [align]
  simp only [BitVec.slt_iff_toInt_lt, BitVec.sle_iff_toInt_le, hdiff, hneg, h0, h112]
  -- no operand, one of them, the addend shifted out or in part, the product likewise, no shift
  split_ifs with hpa hp0 ha0 hgt hfar hlt hfar
  · obtain ⟨rfl, rfl⟩ := hpa
    exact ⟨0, 0, hzero, hzero, fun h => absurd rfl h, fun h => absurd rfl h, by decide, .inl rfl, fun h => absurd rfl h,
      fun h => absurd rfl h⟩
  · subst hp0
    exact ⟨0, 0, hzero, toNat_ext_kept aSig, fun h => absurd rfl h, fun _ => by simp, ha, .inl rfl,
      fun h => absurd rfl h, fun h => absurd rfl h⟩
  · subst ha0
    exact ⟨0, 0, toNat_ext_kept pSig, hzero, fun _ => by simp, fun h => absurd rfl h, hp, .inl rfl,
      fun h => absurd rfl h, fun h => absurd rfl h⟩
  · exact ⟨0, (pExp.toInt - aExp.toInt).toNat, toNat_ext_kept pSig, toNat_ext_far aSig (by omega), fun _ => by simp,
      fun _ => by dsimp only; omega, hp, .inl rfl, fun h => absurd rfl h, fun _ => hboth hp0 ha0⟩
  · have hamt := toNat_shamt (e := pExp - aExp) (by omega) (by omega)
    exact ⟨0, ((pExp - aExp).extractLsb 6 0).toNat, toNat_ext_kept pSig, toNat_ext_shift aSig (by omega),
      fun _ => by simp, fun _ => by dsimp only; omega, hp, .inl rfl, fun h => absurd rfl h, fun _ => hboth hp0 ha0⟩
  · exact ⟨(aExp.toInt - pExp.toInt).toNat, 0, toNat_ext_far pSig (by omega), toNat_ext_kept aSig,
      fun _ => by dsimp only; omega, fun _ => by simp, ha, .inr rfl, fun _ => hboth hp0 ha0, fun h => absurd rfl h⟩
  · have hamt := toNat_shamt (e := -(pExp - aExp)) (by omega) (by omega)
    exact ⟨((-(pExp - aExp)).extractLsb 6 0).toNat, 0, toNat_ext_shift pSig (by omega), toNat_ext_kept aSig,
      fun _ => by dsimp only; omega, fun _ => by simp, ha, .inr rfl, fun _ => hboth hp0 ha0, fun h => absurd rfl h⟩
  · exact ⟨0, 0, toNat_ext_kept pSig, toNat_ext_kept aSig, fun _ => by simp, fun _ => by dsimp only; omega, hp,
      .inl rfl, fun h => absurd rfl h, fun h => absurd rfl h⟩

end Align

section Sum

/-- The sum of the aligned magnitudes, and its sign where it is zero. -/
theorem addAligned_spec (ps as : Bool) (rm : BitVec 3) {p a : BitVec 114} (hp : p.toNat < 2 ^ 113)
    (ha : a.toNat < 2 ^ 113) :
    signed (addAligned ps as rm p a).1 ((addAligned ps as rm p a).2.toNat : ℤ) =
        signed ps (p.toNat : ℤ) + signed as (a.toNat : ℤ) ∧
      ((addAligned ps as rm p a).2.toNat = 0 → (addAligned ps as rm p a).1 = if ps = as then ps else rm == rdn) := by
  rw [addAligned]
  split_ifs with hsign hpa hap
  · subst hsign
    refine ⟨?_, fun _ => rfl⟩
    have hsum : (p + a).toNat = p.toNat + a.toNat := by rw [BitVec.toNat_add, Nat.mod_eq_of_lt (by omega)]
    rw [hsum]
    cases ps <;> simp [signed, add_comm]
  · rw [BitVec.ult_iff_toNat_lt] at hpa
    have hdiff : (p - a).toNat = p.toNat - a.toNat := BitVec.toNat_sub_of_le (BitVec.le_def.mpr hpa.le)
    refine ⟨?_, fun h => absurd h ?_⟩
    · rw [hdiff]
      cases ps <;> cases as <;> simp [signed] at hsign ⊢ <;> omega
    · rw [hdiff]
      omega
  · rw [BitVec.ult_iff_toNat_lt] at hap
    have hdiff : (a - p).toNat = a.toNat - p.toNat := BitVec.toNat_sub_of_le (BitVec.le_def.mpr hap.le)
    refine ⟨?_, fun h => absurd h ?_⟩
    · rw [hdiff]
      cases ps <;> cases as <;> simp [signed] at hsign ⊢ <;> omega
    · rw [hdiff]
      omega
  · refine ⟨?_, fun _ => rfl⟩
    have hzero : (0#114).toNat = 0 := rfl
    rw [BitVec.ult_iff_toNat_lt] at hpa hap
    rw [hzero]
    cases ps <;> cases as <;> simp [signed] at hsign ⊢ <;> omega

end Sum

section Normalise

theorem leadIndex_of_zero {w n : ℕ} {x : BitVec w} (hx : x.toNat = 0) : leadIndex x n = none := by
  induction n with
  | zero => rfl
  | succ i ih =>
      have hbit : x.getLsbD i = false := by rw [← BitVec.testBit_toNat, hx, Nat.zero_testBit]
      rw [leadIndex, hbit]
      exact ih

variable {w : BitVec 114} (hw : w.toNat ≠ 0)

include hw

theorem toNat_lzc : (FpFma.lzc w).toNat = 113 - Nat.log2 w.toNat := by
  have hlt : Nat.log2 w.toNat < 114 := log2_lt hw w.isLt
  have hhalf : (w.extractLsb 113 1).toNat = w.toNat / 2 := toNat_extractLsb_top w 1 (by decide)
  have hlog := Nat.log2_def w.toNat
  rw [FpFma.lzc]
  rcases Nat.lt_or_ge w.toNat 2 with h | h
  · rw [if_neg (by omega)] at hlog
    rw [leadIndex_of_zero (by omega), hlog]
    rfl
  · rw [if_pos h, ← hhalf] at hlog
    rw [leadIndex_eq (BitVec.isLt _) (by omega), hlog]
    simp only [BitVec.toNat_sub, BitVec.toNat_ofNat]
    omega

theorem toNat_normSum : (w <<< FpFma.lzc w).toNat = w.toNat * 2 ^ (113 - Nat.log2 w.toNat) ∧
    2 ^ 113 ≤ (w <<< FpFma.lzc w).toNat := by
  have hlt : Nat.log2 w.toNat < 114 := log2_lt hw w.isLt
  obtain ⟨hlow, hhigh⟩ := log2_spec hw
  have hshift : (w <<< FpFma.lzc w).toNat = w.toNat * 2 ^ (113 - Nat.log2 w.toNat) := by
    rw [BitVec.shiftLeft_eq', toNat_lzc hw]
    apply toNat_shiftLeft_of_lt
    calc w.toNat * 2 ^ (113 - Nat.log2 w.toNat)
        < 2 ^ (Nat.log2 w.toNat + 1) * 2 ^ (113 - Nat.log2 w.toNat) :=
          Nat.mul_lt_mul_of_pos_right hhigh (Nat.two_pow_pos _)
      _ = 2 ^ 114 := by rw [← pow_add]; congr 1; omega
  refine ⟨hshift, ?_⟩
  rw [hshift]
  calc 2 ^ 113 = 2 ^ Nat.log2 w.toNat * 2 ^ (113 - Nat.log2 w.toNat) := by rw [← pow_add]; congr 1; omega
    _ ≤ w.toNat * 2 ^ (113 - Nat.log2 w.toNat) := Nat.mul_le_mul_right _ hlow

omit hw in
theorem toNat_outSig (n : BitVec 114) :
    (outSig n).toNat = n.toNat / 2 ^ 58 ||| (decide (n.toNat % 2 ^ 58 ≠ 0)).toNat := by
  have hhigh : (n.extractLsb 113 59).toNat = n.toNat / 2 ^ 59 := toNat_extractLsb_top n 59 (by decide)
  have hlow : (n.extractLsb 57 0).toNat = n.toNat % 2 ^ 58 := by rw [toNat_extractLsb, pow_zero, Nat.div_one]
  rw [outSig, or_sticky]
  refine (toNat_append (n.extractLsb 113 59) _).trans ?_
  rw [hhigh, BitVec.toNat_ofBool, getLsbD_eq, bne_zero_eq, hlow, Nat.div_div_eq_div_mul, ← pow_succ, pow_one]

omit hw in
theorem toInt_outExp {e : BitVec 14} (he : -2100 ≤ e.toInt ∧ e.toInt ≤ 2100) {z : BitVec 7} (hz : z.toNat ≤ 113) :
    ((e - (0#7 ++ z) + 2#14).extractLsb 12 0).toInt = e.toInt - z.toNat + 2 := by
  have hzext : (0#7 ++ z : BitVec 14).toInt = z.toNat := toInt_zero_append z (by decide)
  have h2 : (2#14).toInt = 2 := rfl
  have hsub : (e - (0#7 ++ z)).toInt = e.toInt - z.toNat := by
    rw [toInt_sub_of_bounds (by rw [hzext]; omega) (by rw [hzext]; omega), hzext]
  have hsum : (e - (0#7 ++ z) + 2#14).toInt = e.toInt - z.toNat + 2 := by
    rw [toInt_add_of_bounds (by rw [hsub, h2]; omega) (by rw [hsub, h2]; omega), hsub, h2]
  generalize e - (0#7 ++ z) + 2#14 = x at hsum
  have hlt := x.isLt
  rw [← hsum, BitVec.toInt_eq_toNat_cond, BitVec.toInt_eq_toNat_cond, toNat_extractLsb]
  rw [BitVec.toInt_eq_toNat_cond] at hsum
  split_ifs at hsum ⊢ <;> omega

variable {K : Type*} [Field K] [LinearOrder K] [FloorRing K] [IsStrictOrderedRing K] {fmt : BitVec 2} {rm : BitVec 3}
  {m : Mode}

/-- A nonzero sum is normalised and packed to the rounding of its value. -/
theorem pack_sum (hm : modeOf rm = some m) (sign zeroNeg : Bool) {e : BitVec 14}
    (he : -2100 ≤ e.toInt ∧ e.toInt ≤ 2100) :
    Delivers fmt (fpRoundPack sign ((e - (0#7 ++ FpFma.lzc w) + 2#14).extractLsb 12 0) (outSig (w <<< FpFma.lzc w)) fmt
        rm false false)
      (ieee (formatOf fmt) m zeroNeg (signed sign ((w.toNat : K) * 2 ^ (e.toInt - 111)))) := by
  obtain ⟨hnorm, htop⟩ := toNat_normSum hw
  have hz := toNat_lzc hw
  have hexp := toInt_outExp he (z := FpFma.lzc w) (by omega)
  have hsig : 2 ^ 55 ≤ (outSig (w <<< FpFma.lzc w)).toNat := by
    rw [toNat_outSig]
    refine le_trans ?_ Nat.left_le_or
    omega
  have hcell : SameCell 2 ((outSig (w <<< FpFma.lzc w)).toNat : K) ((w <<< FpFma.lzc w).toNat / (2 ^ 58 : ℕ)) := by
    rw [toNat_outSig]
    exact sameCell_sticky_div _ (Nat.two_pow_pos 58) decide_eq_true_iff
  have hpos : (0 : K) < (w <<< FpFma.lzc w).toNat / (2 ^ 58 : ℕ) :=
    div_pos (Nat.cast_pos.mpr (by omega)) (Nat.cast_pos.mpr (Nat.two_pow_pos 58))
  have hvalue : (w.toNat : K) * 2 ^ (e.toInt - 111) = (w <<< FpFma.lzc w).toNat / (2 ^ 58 : ℕ) *
      2 ^ (e.toInt - (FpFma.lzc w).toNat + 2 - 55) := by
    obtain ⟨d, hd⟩ : ∃ d : ℤ, d = e.toInt - 111 - (FpFma.lzc w).toNat := ⟨_, rfl⟩
    have hleft : e.toInt - 111 = d + (FpFma.lzc w).toNat := by omega
    have hright : e.toInt - (FpFma.lzc w).toNat + 2 - 55 = d + (58 : ℕ) := by
      push_cast
      omega
    have h58 : ((2 ^ 58 : ℕ) : K) ≠ 0 := Nat.cast_ne_zero.mpr (Nat.two_pow_pos 58).ne'
    rw [hleft, hright, two_zpow_add, two_zpow_add, hnorm, ← hz, ← mul_assoc (_ / _), div_mul_cancel₀ _ h58,
      Nat.cast_mul, mul_assoc]
  rw [hvalue, ← hexp]
  exact fpRoundPack_sticky hm sign zeroNeg (by omega) hsig hpos hcell

end Normalise

section Operands

variable {K : Type*} [Field K] {g : BitVec 2} {u u1 u2 u3 : FpUnpacked} {s1 s2 s3 : Bool} {v v1 v2 v3 : K}

theorem eight_dvd_sig {s : Bool} (h : FiniteUnpack (formatOf g) u s v) : 8 ∣ u.sig.toNat := by
  have hfb := fracBits_le g
  exact (pow_dvd_pow 2 (show 3 ≤ 55 - (formatOf g).fracBits by omega)).trans h.grid

theorem sig_mul_lt (u1 u2 : FpUnpacked) : u1.sig.toNat * u2.sig.toNat < 2 ^ 112 := by
  calc u1.sig.toNat * u2.sig.toNat < 2 ^ 56 * 2 ^ 56 := Nat.mul_lt_mul'' u1.sig.isLt u2.sig.isLt
    _ = 2 ^ 112 := by rw [← pow_add]

theorem toInt_signExtend_exp (u : FpUnpacked) : (u.exp.signExtend 14).toInt = u.exp.toInt :=
  BitVec.toInt_signExtend_of_le (by decide)

theorem exp_bounds {s : Bool} (h : FiniteUnpack (formatOf g) u s v) : -1022 ≤ u.exp.toInt ∧ u.exp.toInt ≤ 1023 := by
  have hlow := h.emin_le
  have hhigh := h.le_emax
  have hmin : (formatOf g).emin = 1 - (formatOf g).emax := rfl
  have hmax : (formatOf g).emax ≤ 1023 := emax_le g
  omega

theorem toNat_addendSig (h3 : FiniteUnpack (formatOf g) u3 s3 v3) :
    (if u3.isZero then 0#112 else u3.sig.setWidth 112 <<< 55).toNat = u3.sig.toNat * 2 ^ 55 := by
  have hlt := u3.sig.isLt
  split_ifs with hz
  · rw [h3.isZero.mp hz, Nat.zero_mul]
    rfl
  · have hwide : (u3.sig.setWidth 112).toNat = u3.sig.toNat := by
      rw [BitVec.toNat_setWidth, Nat.mod_eq_of_lt (by omega)]
    rw [toNat_shiftLeft_of_lt (by rw [hwide]; omega), hwide]

variable (h1 : FiniteUnpack (formatOf g) u1 s1 v1) (h2 : FiniteUnpack (formatOf g) u2 s2 v2)

include h1 h2

theorem toNat_prodSig :
    (if u1.isZero || u2.isZero then 0#112 else (0#56 ++ u1.sig) * (0#56 ++ u2.sig)).toNat =
      u1.sig.toNat * u2.sig.toNat := by
  split_ifs with hz
  · rw [Bool.or_eq_true, h1.isZero, h2.isZero] at hz
    rcases hz with hz | hz <;> rw [hz] <;> simp
  · have hprod := sig_mul_lt u1 u2
    have hext (x : BitVec 56) : (0#56 ++ x : BitVec 112).toNat = x.toNat := toNat_zero_append x
    rw [BitVec.toNat_mul, hext, hext, Nat.mod_eq_of_lt hprod]

theorem toInt_prodExp :
    (u1.exp.signExtend 14 + u2.exp.signExtend 14).toInt = u1.exp.toInt + u2.exp.toInt := by
  have he1 := exp_bounds h1
  have he2 := exp_bounds h2
  have hs1 := toInt_signExtend_exp u1
  have hs2 := toInt_signExtend_exp u2
  rw [toInt_add_of_bounds (by rw [hs1, hs2]; omega) (by rw [hs1, hs2]; omega), hs1, hs2]

variable (h3 : FiniteUnpack (formatOf g) u3 s3 v3) {al : Aligned} {dp da : ℕ}
  (hal : AlignSpec (u1.exp.toInt + u2.exp.toInt) u3.exp.toInt (u1.sig.toNat * u2.sig.toNat) (u3.sig.toNat * 2 ^ 55) al
    dp da)

include h3 hal

/-- Where bits of the addend are lost the product is far larger. -/
theorem addend_lost (hlost : u3.sig.toNat * 2 ^ 55 % 2 ^ da ≠ 0) :
    2 ^ 54 + cut (u3.sig.toNat * 2 ^ 55) da ≤ cut (u1.sig.toNat * u2.sig.toNat) dp := by
  have hda : 59 ≤ da := by
    by_contra hlt
    refine hlost (Nat.mod_eq_zero_of_dvd ((pow_dvd_pow 2 (show da ≤ 3 + 55 by omega)).trans ?_))
    rw [pow_add]
    exact Nat.mul_dvd_mul_right (eight_dvd_sig h3) _
  obtain ⟨hP, hA⟩ := hal.addend_cut (by omega)
  have hdp : dp = 0 := hal.kept.resolve_right (by omega)
  have hcut : cut (u3.sig.toNat * 2 ^ 55) da < 2 ^ (52 + 1) := by
    refine cut_lt (lt_of_lt_of_le ?_ (Nat.pow_le_pow_right two_pos (show 111 ≤ 52 + da by omega)))
    have := u3.sig.isLt
    omega
  have hx1 : u1.sig.toNat ≠ 0 := left_ne_zero_of_mul hP
  have hx2 : u2.sig.toNat ≠ 0 := right_ne_zero_of_mul hP
  have hle1 := Nat.le_of_dvd (Nat.pos_of_ne_zero hx1) (eight_dvd_sig h1)
  have hle2 := Nat.le_of_dvd (Nat.pos_of_ne_zero hx2) (eight_dvd_sig h2)
  have hmin := h3.emin_le
  have hemin := (formatOf g).one_le_emax
  have hdef : (formatOf g).emin = 1 - (formatOf g).emax := rfl
  have hexp := hal.prodExp hP
  have hexp' := hal.addendExp hA
  -- two subnormal factors would put the product below the addend
  have hprod : 2 ^ 58 ≤ u1.sig.toNat * u2.sig.toNat := by
    rcases h1.normal hx1 with hn1 | hn1
    · rcases h2.normal hx2 with hn2 | hn2
      · omega
      · exact le_trans (by norm_num) (Nat.mul_le_mul hle1 hn2)
    · exact le_trans (by norm_num) (Nat.mul_le_mul hn1 hle2)
  rw [hdp, cut_zero]
  omega

/-- Where bits of the product are lost the addend is far larger, or so small
that they lie far below the last place of the format. -/
theorem prod_lost (hlost : u1.sig.toNat * u2.sig.toNat % 2 ^ dp ≠ 0) :
    al.finalExp.toInt = (formatOf g).emin ∨
      2 ^ 54 + cut (u1.sig.toNat * u2.sig.toNat) dp ≤ cut (u3.sig.toNat * 2 ^ 55) da := by
  have hdp : 7 ≤ dp := by
    by_contra hlt
    refine hlost (Nat.mod_eq_zero_of_dvd ((pow_dvd_pow 2 (show dp ≤ 3 + 3 by omega)).trans ?_))
    rw [pow_add]
    exact Nat.mul_dvd_mul (eight_dvd_sig h1) (eight_dvd_sig h2)
  obtain ⟨-, hA⟩ := hal.prod_cut (by omega)
  have hda : da = 0 := hal.kept.resolve_left (by omega)
  have hexp := hal.addendExp hA
  rw [hda] at hexp
  refine (h3.normal (left_ne_zero_of_mul hA)).imp (fun hn => by rw [hexp, hn]; exact add_zero _) (fun hn => ?_)
  have hcut : cut (u1.sig.toNat * u2.sig.toNat) dp < 2 ^ (105 + 1) := by
    refine cut_lt (lt_of_lt_of_le ?_ (Nat.pow_le_pow_right two_pos (show 112 ≤ 105 + dp by omega)))
    exact sig_mul_lt u1 u2
  rw [hda, cut_zero]
  omega

end Operands

section Exact

variable {K : Type*} [Field K] [LinearOrder K]

theorem fused_finite (m : Mode) (negProd negAdd s1 s2 s3 : Bool) (x y z : K) :
    fused m negProd negAdd (.finite s1 x) (.finite s2 y) (.finite s3 z) =
      .finite (if (s1 ^^ s2 ^^ negProd) = (s3 ^^ negAdd) then s1 ^^ s2 ^^ negProd else decide (m = .down))
        (signed negProd (x * y) + signed negAdd z) := by
  rw [fused, Datum.mul, Datum.negIf_finite, Datum.negIf_finite, Datum.add]

variable [IsStrictOrderedRing K]

/-- A magnitude in the unit that its shifted form has. -/
theorem shifted_value (N d : ℕ) {e F : ℤ} (hF : N ≠ 0 → F = e + d) :
    (N : K) * 2 ^ (e - 110) = 2 * N / 2 ^ d * 2 ^ (F - 111) := by
  by_cases hN : N = 0
  · simp [hN]
  · have hsplit : F - 111 = e - 110 - (1 : ℕ) + d := by
      rw [hF hN]
      push_cast
      ring
    have hd : (2 : K) ^ d ≠ 0 := pow_ne_zero d two_ne_zero
    have hone : (2 : K) ^ (e - 110) = 2 * 2 ^ (e - 110 - (1 : ℕ)) := by
      rw [← zpow_one_add₀ two_ne_zero]
      congr 1
      push_cast
      ring
    rw [hsplit, two_zpow_add, hone]
    push_cast
    field_simp

variable {g : BitVec 2} {u1 u2 u3 : FpUnpacked} {s1 s2 s3 : Bool} {v1 v2 v3 : K}

/-- The exact sum in the unit of the aligned operands. -/
def alignedSum (ps as : Bool) (P A dp da : ℕ) : K := signed ps (2 * (P : K) / 2 ^ dp) + signed as (2 * (A : K) / 2 ^ da)

theorem odd_signed_add {x y : ℕ} (hx : Odd x) (hy : Even y) (s t : Bool) :
    Odd (signed s (x : ℤ) + signed t (y : ℤ)) := by
  rw [Nat.odd_iff] at hx
  rw [Nat.even_iff] at hy
  rw [Int.odd_iff]
  cases s <;> cases t <;> simp only [signed, if_true, Bool.false_eq_true, if_false] <;> omega

theorem le_natAbs_signed_add {a x y : ℕ} (h : a + x ≤ y) (s t : Bool) :
    a ≤ (signed s (x : ℤ) + signed t (y : ℤ)).natAbs := by
  cases s <;> cases t <;> simp only [signed, if_true, Bool.false_eq_true, if_false] <;> omega

variable (h1 : FiniteUnpack (formatOf g) u1 s1 v1) (h2 : FiniteUnpack (formatOf g) u2 s2 v2)
  (h3 : FiniteUnpack (formatOf g) u3 s3 v3) {al : Aligned} {dp da : ℕ}
  (hal : AlignSpec (u1.exp.toInt + u2.exp.toInt) u3.exp.toInt (u1.sig.toNat * u2.sig.toNat) (u3.sig.toNat * 2 ^ 55) al
    dp da)

include h1 h2 h3 hal

theorem fused_value (negProd negAdd : Bool) :
    signed negProd (v1 * v2) + signed negAdd v3 =
      alignedSum (s1 ^^ s2 ^^ negProd) (s3 ^^ negAdd) (u1.sig.toNat * u2.sig.toNat) (u3.sig.toNat * 2 ^ 55) dp da *
        2 ^ (al.finalExp.toInt - 111) := by
  have hprod : (u1.sig.toNat : K) * 2 ^ (u1.exp.toInt - 55) * (u2.sig.toNat * 2 ^ (u2.exp.toInt - 55)) =
      (u1.sig.toNat * u2.sig.toNat : ℕ) * 2 ^ (u1.exp.toInt + u2.exp.toInt - 110) := by
    have hsplit : u1.exp.toInt + u2.exp.toInt - 110 = u1.exp.toInt - 55 + (u2.exp.toInt - 55) := by ring
    rw [hsplit, zpow_add₀ two_ne_zero]
    push_cast
    ring
  have hadd : (u3.sig.toNat : K) * 2 ^ (u3.exp.toInt - 55) =
      (u3.sig.toNat * 2 ^ 55 : ℕ) * 2 ^ (u3.exp.toInt - 110) := by
    have hsplit : u3.exp.toInt - 55 = u3.exp.toInt - 110 + (55 : ℕ) := by
      push_cast
      ring
    rw [hsplit, two_zpow_add]
    push_cast
    ring
  rw [h1.value, h2.value, h3.value, signed_mul_signed, signed_signed, signed_signed, hprod, hadd,
    shifted_value _ dp hal.prodExp, shifted_value _ da hal.addendExp, signed_mul, signed_mul, alignedSum, add_mul]

/-- The sum of the aligned operands is exact, or it is odd and stands for the
exact sum, which is then far above the bits that were lost. -/
theorem sum_near (ps as : Bool) {W : ℤ}
    (hW : W = signed ps (cut (u1.sig.toNat * u2.sig.toNat) dp : ℤ) + signed as (cut (u3.sig.toNat * 2 ^ 55) da : ℤ)) :
    alignedSum ps as (u1.sig.toNat * u2.sig.toNat) (u3.sig.toNat * 2 ^ 55) dp da = (W : K) ∨
      (Odd W ∧ |alignedSum ps as (u1.sig.toNat * u2.sig.toNat) (u3.sig.toNat * 2 ^ 55) dp da - (W : K)| < 1 ∧
        (al.finalExp.toInt = (formatOf g).emin ∨ 2 ^ 54 ≤ W.natAbs)) := by
  have hprod := prod_lost h1 h2 h3 hal
  have hadd := addend_lost h1 h2 h3 hal
  have hkept := hal.kept
  generalize u1.sig.toNat * u2.sig.toNat = P at hW hprod hadd ⊢
  generalize u3.sig.toNat * 2 ^ 55 = A at hW hprod hadd ⊢
  have hcast : (W : K) = signed ps (cut P dp : K) + signed as (cut A da : K) := by
    rw [hW, Int.cast_add, cast_signed, cast_signed, Int.cast_natCast, Int.cast_natCast]
  have hdiff : alignedSum ps as P A dp da - (W : K) =
      signed ps (2 * (P : K) / 2 ^ dp - cut P dp) + signed as (2 * (A : K) / 2 ^ da - cut A da) := by
    rw [alignedSum, hcast, ← signed_sub, ← signed_sub]
    ring
  by_cases hA : A % 2 ^ da = 0
  · rw [cut_exact hA, sub_self, signed_zero, add_zero] at hdiff
    by_cases hP : P % 2 ^ dp = 0
    · rw [cut_exact hP, sub_self, signed_zero] at hdiff
      exact .inl (sub_eq_zero.mp hdiff)
    · obtain ⟨hodd, hnear⟩ := cut_lost (K := K) hP
      have hda : da = 0 := hkept.resolve_left (by rintro rfl; exact hP (Nat.mod_one P))
      have heven : Even (cut A da) := by
        rw [hda, cut_zero]
        exact even_two_mul A
      refine .inr ⟨?_, ?_, ?_⟩
      · rw [hW]
        exact odd_signed_add hodd heven ps as
      · rwa [hdiff, abs_signed]
      · rw [hW]
        exact (hprod hP).imp_right fun h => le_natAbs_signed_add h ps as
  · obtain ⟨hodd, hnear⟩ := cut_lost (K := K) hA
    have hdp : dp = 0 := hkept.resolve_right (by rintro rfl; exact hA (Nat.mod_one A))
    have heven : Even (cut P dp) := by
      rw [hdp, cut_zero]
      exact even_two_mul P
    have hexact : (cut P dp : K) = 2 * P / 2 ^ dp := cut_exact (by rw [hdp]; exact Nat.mod_one P)
    rw [hexact, sub_self, signed_zero, zero_add] at hdiff
    refine .inr ⟨?_, ?_, .inr ?_⟩
    · rw [hW, add_comm]
      exact odd_signed_add hodd heven as ps
    · rwa [hdiff, abs_signed]
    · rw [hW, add_comm]
      exact le_natAbs_signed_add (hadd hA) as ps

end Exact

section Main

variable {K : Type*} [Field K] [LinearOrder K] [FloorRing K] [IsStrictOrderedRing K] {fmt : BitVec 2} {rm : BitVec 3}
  {m : Mode}

/-- A sum that stands for an exact one rounds as that one does. -/
theorem ieee_near (f : Format) (hf : f.fracBits ≤ 52) (m : Mode) (zeroNeg sign : Bool) {w : ℕ} {W e : ℤ} {T : K}
    (hW : signed sign (w : ℤ) = W)
    (hnear : T = (W : K) ∨ (Odd W ∧ |T - (W : K)| < 1 ∧ (e = f.emin ∨ 2 ^ 54 ≤ W.natAbs))) :
    ieee f m zeroNeg (signed sign ((w : K) * 2 ^ (e - 111))) = ieee f m zeroNeg (T * 2 ^ (e - 111)) := by
  have hself (x : K) : signed sign (signed sign x) = x := by rw [signed_signed, Bool.xor_self]; rfl
  have hcast : (W : K) = signed sign (w : K) := by rw [← hW, cast_signed, Int.cast_natCast]
  rcases hnear with hT | ⟨hodd, hlt, hsafe⟩
  · rw [hT, hcast, signed_mul]
  · obtain ⟨hlow, hhigh⟩ := abs_lt.mp hlt
    have habs : W.natAbs = w := by
      rw [← hW]
      cases sign <;> simp [signed]
    have hw : w ≠ 0 := by
      rintro rfl
      rw [Int.natAbs_eq_zero.mp habs] at hodd
      exact absurd hodd (by decide)
    have hcell : SameCell 2 (w : K) (signed sign T) := by
      have h := (sameCell_of_odd (x := T) hodd (by linarith) (by linarith)).signed sign
      rwa [hcast, hself] at h
    have hpos : 0 < signed sign T := by
      have h1 : (1 : K) ≤ w := by exact_mod_cast Nat.one_le_iff_ne_zero.mpr hw
      have hT : |signed sign T - w| < 1 := by
        rw [← hself (w : K), ← hcast, signed_sub, abs_signed]
        exact hlt
      linarith [(abs_lt.mp hT).1]
    have hwpos : (0 : K) < w := Nat.cast_pos.mpr (Nat.pos_of_ne_zero hw)
    have hscaled := SameCell.scale_two hcell (e - 111)
    obtain ⟨hl, hh⟩ := log2_spec hw
    have hlog := log_scaled (K := K) (e - 111) hl hh
    have hlog54 : e = f.emin ∨ 54 ≤ Nat.log2 w := by
      refine hsafe.imp_right fun h => ?_
      rw [Nat.le_log2 hw, ← habs]
      exact h
    have hcongr := ieee_congr f m zeroNeg sign (mul_pos hwpos (two_zpow_pos (e - 111)))
      (mul_pos hpos (two_zpow_pos (e - 111))) (by rw [hlog]; omega) hscaled
    rw [hcongr, signed_mul, hself]

/-- A sum of zero, packed. -/
theorem pack_zero (hm : modeOf rm = some m) (sign : Bool) {w : BitVec 114} (hw : w.toNat = 0) {e : BitVec 14}
    (he : -2100 ≤ e.toInt ∧ e.toInt ≤ 2100) :
    Delivers fmt (fpRoundPack sign ((e - (0#7 ++ FpFma.lzc w) + 2#14).extractLsb 12 0) (outSig (w <<< FpFma.lzc w)) fmt
        rm false false)
      (ieee (formatOf fmt) m sign (0 : K)) := by
  have hz : (FpFma.lzc w).toNat = 113 := by
    rw [FpFma.lzc, leadIndex_of_zero]
    · rfl
    · rw [toNat_extractLsb, hw]
      rfl
  have hexp := toInt_outExp he hz.le
  have hsig : (outSig (w <<< FpFma.lzc w)).toNat = 0 := by
    have hshift : (w <<< FpFma.lzc w).toNat = 0 := by
      rw [BitVec.shiftLeft_eq', BitVec.toNat_shiftLeft, hw, Nat.zero_shiftLeft, Nat.zero_mod]
    rw [toNat_outSig, hshift]
    rfl
  have hvalue (d : ℤ) : signed sign (((0 : ℕ) : K) * 2 ^ d) = 0 := by simp
  have hspec := fpRoundPack_spec (K := K) ((e - (0#7 ++ FpFma.lzc w) + 2#14).extractLsb 12 0)
    (outSig (w <<< FpFma.lzc w)) fmt hm sign (by omega)
  rwa [hsig, hvalue] at hspec

theorem rdn_eq (hm : modeOf rm = some m) : (rm == rdn) = decide (m = .down) := by
  rcases modeOf_cases hm with ⟨rfl, rfl⟩ | ⟨rfl, rfl⟩ | ⟨rfl, rfl⟩ | ⟨rfl, rfl⟩ | ⟨rfl, rfl⟩ <;> rfl

variable {u1 u2 u3 : FpUnpacked} {s1 s2 s3 : Bool} {v1 v2 v3 : K}

/-- The multiply-add of finite operands is rounded once. -/
theorem fma_finite (hm : modeOf rm = some m) (h1 : FiniteUnpack (formatOf fmt) u1 s1 v1)
    (h2 : FiniteUnpack (formatOf fmt) u2 s2 v2) (h3 : FiniteUnpack (formatOf fmt) u3 s3 v3) (negProd negAdd : Bool)
    {al : Aligned} {sum : Bool × BitVec 114}
    (hal : al = align (u1.exp.signExtend 14 + u2.exp.signExtend 14) (u3.exp.signExtend 14)
      (if u1.isZero || u2.isZero then 0#112 else (0#56 ++ u1.sig) * (0#56 ++ u2.sig))
      (if u3.isZero then 0#112 else u3.sig.setWidth 112 <<< 55))
    (hsum : sum = addAligned (s1 ^^ s2 ^^ negProd) (s3 ^^ negAdd) rm (0#1 ++ al.pSig ++ BitVec.ofBool al.pSticky)
      (0#1 ++ al.aSig ++ BitVec.ofBool al.aSticky)) :
    Delivers fmt (fpRoundPack sum.1 ((al.finalExp - (0#7 ++ FpFma.lzc sum.2) + 2#14).extractLsb 12 0)
        (outSig (sum.2 <<< FpFma.lzc sum.2)) fmt rm false false)
      (ieee (formatOf fmt) m
        (if (s1 ^^ s2 ^^ negProd) = (s3 ^^ negAdd) then s1 ^^ s2 ^^ negProd else decide (m = .down))
        (signed negProd (v1 * v2) + signed negAdd v3)) := by
  have hpe := toInt_prodExp h1 h2
  have hae := toInt_signExtend_exp u3
  have hb1 := exp_bounds h1
  have hb2 := exp_bounds h2
  have hb3 := exp_bounds h3
  obtain ⟨dp, da, hspec⟩ := align_spec (u1.exp.signExtend 14 + u2.exp.signExtend 14) (u3.exp.signExtend 14) (by omega)
    (by omega)
    (if u1.isZero || u2.isZero then 0#112 else (0#56 ++ u1.sig) * (0#56 ++ u2.sig))
    (if u3.isZero then 0#112 else u3.sig.setWidth 112 <<< 55)
  rw [← hal, hpe, hae, toNat_prodSig h1 h2, toNat_addendSig h3] at hspec
  obtain ⟨hW, hzero⟩ := addAligned_spec (s1 ^^ s2 ^^ negProd) (s3 ^^ negAdd) rm
    (p := 0#1 ++ al.pSig ++ BitVec.ofBool al.pSticky) (a := 0#1 ++ al.aSig ++ BitVec.ofBool al.aSticky)
    (by rw [toNat_ext]; have := al.pSig.isLt; have := Bool.toNat_le al.pSticky; omega)
    (by rw [toNat_ext]; have := al.aSig.isLt; have := Bool.toNat_le al.aSticky; omega)
  rw [← hsum, hspec.prod, hspec.addend] at hW
  rw [← hsum, rdn_eq hm] at hzero
  have hnear := sum_near (K := K) h1 h2 h3 hspec (s1 ^^ s2 ^^ negProd) (s3 ^^ negAdd) rfl
  have hieee := ieee_near (formatOf fmt) (fracBits_le fmt) m
    (if (s1 ^^ s2 ^^ negProd) = (s3 ^^ negAdd) then s1 ^^ s2 ^^ negProd else decide (m = .down)) sum.1 hW hnear
  rw [fused_value h1 h2 h3 hspec, ← hieee]
  by_cases hw : sum.2.toNat = 0
  · have hvalue : signed sum.1 ((sum.2.toNat : K) * 2 ^ (al.finalExp.toInt - 111)) = 0 := by
      simp [hw]
    rw [hvalue, ← hzero hw]
    exact pack_zero hm sum.1 hw hspec.exp_safe
  · exact pack_sum hw hm sum.1 _ hspec.exp_safe

omit [FloorRing K] [IsStrictOrderedRing K] in
theorem finite_of_fused {negProd negAdd s : Bool} {v : K} {d1 d2 d3 : Datum K}
    (h : fused m negProd negAdd d1 d2 d3 = .finite s v) :
    ∃ s1 x s2 y s3 z, d1 = .finite s1 x ∧ d2 = .finite s2 y ∧ d3 = .finite s3 z := by
  obtain ⟨t, x, t', y, hprod, hadd⟩ := Datum.finite_of_add h
  obtain ⟨s3, z, hd3⟩ := Datum.finite_of_negIf hadd
  obtain ⟨t, x, hmul⟩ := Datum.finite_of_negIf hprod
  obtain ⟨s1, x, s2, y, hd1, hd2⟩ := Datum.finite_of_mul hmul
  exact ⟨s1, x, s2, y, s3, z, hd1, hd2, hd3⟩

/-- Every multiply-add operation on finite operands delivers the rounding of
its exact result. -/
theorem fma_correct (i : FpAluIn) (m : Mode) (hop : isFmaOp i.fpAluOp = true) (hm : modeOf (effRm i) = some m)
    {s : Bool} {v : ℚ} (hexact : exactResult i m = .finite s v) : Delivers i.fmt (fpAlu i) (ieee (formatOf i.fmt) m s v) := by
  have h1 := fpUnpack_spec (K := ℚ) i.fmt i.rs1Data
  have h2 := fpUnpack_spec (K := ℚ) i.fmt i.rs2Data
  have h3 := fpUnpack_spec (K := ℚ) i.fmt i.rs3Data
  obtain ⟨d2, d3, negProd, negAdd, heff⟩ := effective (fracBits_le_55 i.fmt) hop h1 h2 h3 m
  have hspec := fun resSign => special_spec h1 heff.rs2 heff.rs3 m negProd negAdd resSign rfl
  have hrs2 := heff.rs2
  have hrs3 := heff.rs3
  rw [← heff.prodSign, ← heff.addSign] at hspec
  rw [exactResult, heff.exact] at hexact
  obtain ⟨s1, x, s2, y, s3, z, ha, hd2, hd3⟩ := finite_of_fused hexact
  rw [hexact] at hspec
  rw [ha] at h1 hexact
  rw [hd2] at hrs2 hexact
  rw [hd3] at hrs3 hexact
  rw [fused_finite] at hexact
  obtain ⟨rfl, rfl⟩ := Datum.finite.inj hexact
  rw [fpAlu_fma hop, fpFma]
  simp only [(hspec true).1, (hspec true).2.1, (hspec true).2.2.1, (hspec _).2.2.2, Bool.false_eq_true, if_false]
  refine fma_finite hm h1 hrs2 hrs3 negProd negAdd rfl ?_
  rw [heff.prodSign, heff.addSign, h1.sign, hrs2.sign, hrs3.sign]

/-- FMADD.S of the smallest positive number with itself, added to itself. -/
def tinyFma : FpAluIn :=
  { fpAluOp := fpAluFmadd, fmt := 0b00#2, rm := 0b011#3, fcsrRm := 0b000#3, rs1Data := 0xFFFFFFFF00000001#64
    rs2Data := 0xFFFFFFFF00000001#64, rs3Data := 0xFFFFFFFF00000001#64, intRs1Data := 0#32, intToFp := false
    fpToInt := false, rs2Addr := 0#5 }

/-- The value of the smallest positive number. -/
def tiny : ℚ := signed false (((1 : ℕ) : ℚ) * 2 ^ (-149 : ℤ))

theorem exactResult_tinyFma : exactResult tinyFma .up = .finite false (tiny * tiny + tiny) := by
  have htiny : (read 0b00#2 0xFFFFFFFF00000001#64 : Datum ℚ) = .finite false tiny := rfl
  have hop : exactFma fpAluFmadd .up (.finite false tiny) (.finite false tiny) (.finite false tiny) =
      .finite false (tiny * tiny + tiny) := rfl
  rw [exactResult, ← hop, ← htiny]
  rfl

theorem fma_correct_tinyFma :
    Delivers 0b00#2 (fpAlu tinyFma) (ieee binary32 .up false (tiny * tiny + tiny)) :=
  fma_correct tinyFma .up rfl rfl exactResult_tinyFma

end Main

end VMate.FmaFinite
