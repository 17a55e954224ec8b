import VMate.FpConvert

namespace VMate.FpToInt

open Decode FpUnpack FpRoundPack FpCvt FpAlu Rounding Ieee BitNat FpDatum FpRound FpConvert

/-- The bits below the guard position, moved to the top of the word. -/
theorem toNat_low_bits (sig : BitVec 56) {k : ℕ} (hk0 : 0 < k) (hk : k ≤ 56) :
    (sig <<< (57 - k)).toNat = sig.toNat % 2 ^ (k - 1) * 2 ^ (57 - k) := by
  have hpow : 2 ^ 56 = 2 ^ (k - 1) * 2 ^ (57 - k) := by
    rw [← pow_add]
    congr 1
    omega
  rw [BitVec.toNat_shiftLeft, Nat.shiftLeft_eq, hpow, Nat.mul_mod_mul_right]

section Shifted

variable {x : FpUnpacked} (hexp : -4000 ≤ x.exp.toInt ∧ x.exp.toInt ≤ 4000)

include hexp

theorem toInt_shift : (shift x).toInt = 55 - x.exp.toInt := by
  have h55 : (55#14).toInt = 55 := rfl
  have hext : (x.exp.signExtend 14).toInt = x.exp.toInt := BitVec.toInt_signExtend_of_le (by decide)
  rw [shift, toInt_sub_of_bounds (by rw [h55, hext]; omega) (by rw [h55, hext]; omega), h55, hext]

variable {k : ℕ} (hk : x.exp.toInt = 55 - k) (hk0 : 0 < k)

include hk hk0

theorem toNat_shift : (shift x).toNat = k := by
  have h := toInt_shift hexp
  have hlt := (shift x).isLt
  rw [BitVec.toInt_eq_toNat_cond] at h
  split_ifs at h <;> omega

theorem shift_cases : (shift x).sle 0#14 = false ∧ ((shift x).slt 56#14 = decide (k < 56)) ∧
    (shift x = 56#14 ↔ k = 56) ∧ (shift x).sle 23#14 = decide (k ≤ 23) := by
  have hint := toInt_shift hexp
  have hnat := toNat_shift hexp hk hk0
  have h0 : (0#14).toInt = 0 := rfl
  have h56 : (56#14).toInt = 56 := rfl
  have h23 : (23#14).toInt = 23 := rfl
  have hk' : (shift x).toInt = k := by omega
  refine ⟨?_, ?_, ?_, ?_⟩
  · rw [BitVec.sle_eq_decide, hk', h0]
    exact decide_eq_false (by omega)
  · rw [BitVec.slt_eq_decide, hk', h56]
    exact decide_eq_decide.mpr (by omega)
  · rw [← BitVec.toNat_inj, hnat]
    rfl
  · rw [BitVec.sle_eq_decide, hk', h23]
    exact decide_eq_decide.mpr (by omega)

/-- The shifted significand and the bits that decide about rounding. -/
theorem shifted_eq : (shifted x).sig.toNat = x.sig.toNat / 2 ^ k ∧
    (k ≤ 56 → (shifted x).roundBit = decide (x.sig.toNat / 2 ^ (k - 1) % 2 = 1) ∧
      (shifted x).sticky = decide (x.sig.toNat % 2 ^ (k - 1) ≠ 0) ∧
      (shifted x).guardBit = decide (x.sig.toNat / 2 ^ k % 2 = 1)) ∧
    (56 < k → (shifted x).roundBit = false ∧ (shifted x).sticky = decide (x.sig.toNat ≠ 0) ∧
      (shifted x).guardBit = false) := by
  have hsig := x.sig.isLt
  have hnat := toNat_shift hexp hk hk0
  obtain ⟨hpos, hlow, hmid, -⟩ := shift_cases hexp hk hk0
  rw [shifted, hpos, if_neg Bool.false_ne_true, hlow]
  by_cases h56 : k < 56
  · have hsub : (57#14 - shift x).toNat = 57 - k := by
      rw [BitVec.toNat_sub, hnat]
      simp only [BitVec.toNat_ofNat]
      omega
    have hright : x.sig >>> shift x = x.sig >>> k := by rw [← hnat]; rfl
    have hleft : x.sig <<< (57#14 - shift x) = x.sig <<< (57 - k) := by rw [← hsub]; rfl
    rw [decide_eq_true h56, if_pos rfl, hright, hleft, hnat]
    refine ⟨toNat_ushiftRight _ _, fun _ => ⟨getLsbD_eq _ _, ?_, ?_⟩, fun h => absurd h (by omega)⟩
    · rw [bne_zero_eq, toNat_low_bits x.sig hk0 (by omega)]
      exact decide_eq_decide.mpr (by simp)
    · show (x.sig >>> k).getLsbD 0 = _
      rw [getLsbD_eq, toNat_ushiftRight, pow_zero, Nat.div_one]
  · rw [decide_eq_false h56, if_neg Bool.false_ne_true]
    by_cases hk56 : k = 56
    · subst hk56
      rw [if_pos (hmid.mpr rfl)]
      refine ⟨(Nat.div_eq_of_lt hsig).symm, fun _ => ⟨getLsbD_eq _ _, ?_, ?_⟩, fun h => absurd h (lt_irrefl _)⟩
      · rw [bne_zero_eq, toNat_extractLsb]
        exact decide_eq_decide.mpr (by norm_num)
      · rw [Nat.div_eq_of_lt hsig]
        rfl
    · rw [if_neg (mt hmid.mp hk56)]
      have hlt : x.sig.toNat < 2 ^ k := lt_trans hsig (Nat.pow_lt_pow_right one_lt_two (by omega))
      exact ⟨(Nat.div_eq_of_lt hlt).symm, fun h => absurd h (by omega), fun _ => ⟨rfl, bne_zero_eq _, rfl⟩⟩

theorem inexact_eq : ((shifted x).roundBit || (shifted x).sticky) = decide (x.sig.toNat % 2 ^ k ≠ 0) := by
  obtain ⟨-, hlow, hhigh⟩ := shifted_eq hexp hk hk0
  have hsig := x.sig.isLt
  rcases Nat.lt_or_ge 56 k with h56 | h56
  · obtain ⟨hr, hs, -⟩ := hhigh h56
    have hlt : x.sig.toNat < 2 ^ k := lt_trans hsig (Nat.pow_lt_pow_right one_lt_two h56)
    rw [hr, hs, Nat.mod_eq_of_lt hlt, Bool.false_or]
  · obtain ⟨hr, hs, -⟩ := hlow h56
    have hmod : x.sig.toNat % 2 ^ k =
        x.sig.toNat % 2 ^ (k - 1) + 2 ^ (k - 1) * (x.sig.toNat / 2 ^ (k - 1) % 2) := by
      rw [← Nat.mod_pow_succ, Nat.sub_add_cancel hk0]
    have hpos := Nat.two_pow_pos (k - 1)
    rw [hr, hs, hmod, ← Bool.decide_or]
    rcases Nat.mod_two_eq_zero_or_one (x.sig.toNat / 2 ^ (k - 1)) with hg | hg <;> rw [hg] <;>
      exact decide_eq_decide.mpr (by omega)

/-- The rounding decision is that of the format independent rounding. -/
theorem f2iRoundUp_eq {rm : BitVec 3} {m : Mode} (hm : modeOf rm = some m) (neg : Bool) :
    f2iRoundUp rm neg (shifted x) = roundsUp m neg x.sig.toNat k := by
  have hbits (s : Shifted) : f2iRoundUp rm neg s = roundsUpBits m neg s.roundBit s.sticky s.guardBit := by
    rcases modeOf_cases hm with ⟨rfl, rfl⟩ | ⟨rfl, rfl⟩ | ⟨rfl, rfl⟩ | ⟨rfl, rfl⟩ | ⟨rfl, rfl⟩ <;> rfl
  obtain ⟨-, hlow, hhigh⟩ := shifted_eq hexp hk hk0
  have hsig := x.sig.isLt
  rw [hbits]
  rcases Nat.lt_or_ge 56 k with h56 | h56
  · obtain ⟨hr, hs, hg⟩ := hhigh h56
    have hpow : 2 ^ 57 ≤ 2 ^ k := Nat.pow_le_pow_right two_pos h56
    have h57 : roundsUp m neg x.sig.toNat 57 = roundsUp m neg x.sig.toNat k :=
      roundsUp_small m neg (by omega) (by omega)
    rw [← h57, roundsUp_succ, hr, hs, hg, Nat.div_eq_of_lt hsig, Nat.mod_eq_of_lt hsig,
      Nat.div_eq_of_lt (lt_trans hsig (by norm_num))]
    rfl
  · obtain ⟨hr, hs, hg⟩ := hlow h56
    have hsucc := roundsUp_succ m neg x.sig.toNat (k - 1)
    rw [Nat.sub_add_cancel hk0] at hsucc
    rw [hsucc, hr, hs, hg]

theorem toNat_intValMagExt {rm : BitVec 3} {m : Mode} (hm : modeOf rm = some m) :
    (intValMagExt x rm).toNat = roundNat m x.sign x.sig.toNat k := by
  have hsig := x.sig.isLt
  have hdiv : x.sig.toNat / 2 ^ k ≤ x.sig.toNat := Nat.div_le_self _ _
  have hup : (roundsUp m x.sign x.sig.toNat k).toNat ≤ 1 := Bool.toNat_le _
  rw [intValMagExt, f2iRoundUp_eq hexp hk hk0 hm, BitVec.toNat_add, toNat_setWidth_ofBool _ (by decide),
    BitVec.toNat_setWidth,
    (shifted_eq hexp hk hk0).1, roundNat, Nat.mod_eq_of_lt (show x.sig.toNat / 2 ^ k < 2 ^ 57 by omega),
    Nat.mod_eq_of_lt (by omega)]

end Shifted

section Outcome

variable {K : Type*} [Field K] [LinearOrder K] [FloorRing K]

def lowest (isUnsigned : Bool) : ℤ := if isUnsigned then 0 else -2 ^ 31

def highest (isUnsigned : Bool) : ℤ := if isUnsigned then 2 ^ 32 - 1 else 2 ^ 31 - 1

structure IntOutcome where
  value : ℤ
  nv : Bool
  nx : Bool

def saturate (isUnsigned : Bool) (n : ℤ) (nx : Bool) : IntOutcome :=
  if n < lowest isUnsigned then ⟨lowest isUnsigned, true, false⟩
  else if highest isUnsigned < n then ⟨highest isUnsigned, true, false⟩
  else ⟨n, false, nx⟩

theorem lowest_le_highest (isUnsigned : Bool) : lowest isUnsigned ≤ highest isUnsigned := by
  cases isUnsigned <;> simp [lowest, highest]

theorem saturate_low {isUnsigned : Bool} {n : ℤ} (h : n < lowest isUnsigned) (nx : Bool) :
    saturate isUnsigned n nx = ⟨lowest isUnsigned, true, false⟩ := if_pos h

theorem saturate_high {isUnsigned : Bool} {n : ℤ} (h : highest isUnsigned < n) (nx : Bool) :
    saturate isUnsigned n nx = ⟨highest isUnsigned, true, false⟩ := by
  have hle := lowest_le_highest isUnsigned
  rw [saturate, if_neg (by omega), if_pos h]

theorem saturate_mid {isUnsigned : Bool} {n : ℤ} (hlow : lowest isUnsigned ≤ n) (hhigh : n ≤ highest isUnsigned)
    (nx : Bool) : saturate isUnsigned n nx = ⟨n, false, nx⟩ := by
  rw [saturate, if_neg (by omega), if_neg (by omega)]

/-- The conversion to a 32 bit integer: the rounded value where it is in
range, and the bound on its side otherwise. -/
def toInteger (isUnsigned : Bool) (m : Mode) : Datum K → IntOutcome
  | .finite _ v => saturate isUnsigned (roundInt m v) (decide (Int.fract v ≠ 0))
  | .inf s => ⟨if s then lowest isUnsigned else highest isUnsigned, true, false⟩
  | .nan _ => ⟨highest isUnsigned, true, false⟩

variable [IsStrictOrderedRing K] {u : FpUnpacked} {neg : Bool} {v : K} {rm : BitVec 3} {m : Mode}

/-- The conversion unit returns an outcome. -/
def Converts (u : FpUnpacked) (rm : BitVec 3) (isUnsigned : Bool) (o : IntOutcome) : Prop :=
  finalInt u rm isUnsigned = (BitVec.ofInt 32 o.value, o.nv) ∧
    (((shifted u).roundBit || (shifted u).sticky) && !o.nv) = o.nx

/-- An operand of 2^32 or more is out of range on the side of its sign. -/
theorem converts_small {f : Format} (h : FiniteUnpack f u neg v) (hexp : u.exp.toInt ≤ 4000) (hlarge : 32 ≤ u.exp.toInt)
    (hsig : 2 ^ 55 ≤ u.sig.toNat) (isUnsigned : Bool) :
    Converts u rm isUnsigned (toInteger isUnsigned m (.finite neg v)) := by
  have hmag : (((2 ^ 32 : ℕ) : ℤ) : K) ≤ (u.sig.toNat : K) * 2 ^ (u.exp.toInt - 55) := by
    have hpow : (((2 ^ 32 : ℕ) : ℤ) : K) = (2 ^ 55 : ℕ) * 2 ^ ((32 : ℤ) - 55) := by norm_num
    rw [hpow]
    exact le_trans (scale_le _ hsig) (mul_le_mul_of_nonneg_left (two_zpow_le (by omega)) (Nat.cast_nonneg _))
  have hsmall : (shift u).sle 23#14 = true := by
    have h23 : (23#14).toInt = 23 := rfl
    rw [BitVec.sle_eq_decide, toInt_shift ⟨by omega, hexp⟩, h23]
    exact decide_eq_true (by omega)
  rw [Converts, finalInt, h.notNan, h.notInf, hsmall, h.sign, toInteger]
  cases neg with
  | false =>
      have hround : 2 ^ 32 ≤ roundInt m v := le_roundInt m (h.value ▸ hmag)
      rw [saturate_high (by cases isUnsigned <;> simp [highest] <;> omega)]
      cases isUnsigned <;> simp [highest]
  | true =>
      have hround : roundInt m v ≤ -2 ^ 32 :=
        roundInt_le m (by rw [Int.cast_neg]; exact h.value ▸ neg_le_neg hmag)
      rw [saturate_low (by cases isUnsigned <;> simp [lowest] <;> omega)]
      cases isUnsigned <;> simp [lowest]

/-- The range checks on the rounded magnitude. -/
theorem finalInt_saturate (hnan : u.isNan = false) (hinf : u.isInf = false) (hsmall : (shift u).sle 23#14 = false)
    {q : ℕ}
    (hmag : (intValMagExt u rm).toNat = q) (isUnsigned nx : Bool) :
    finalInt u rm isUnsigned = (BitVec.ofInt 32 (saturate isUnsigned (signed u.sign (q : ℤ)) nx).value,
      (saturate isUnsigned (signed u.sign (q : ℤ)) nx).nv) := by
  have hult (c : BitVec 57) : c.ult (intValMagExt u rm) = decide (c.toNat < q) := by rw [BitVec.ult_eq_decide, hmag]
  have hbne : intValMagExt u rm = 0#57 ↔ q = 0 := by
    rw [← BitVec.toNat_inj, hmag]
    rfl
  have hlow : (intValMagExt u rm).extractLsb 31 0 = BitVec.ofNat 32 q := by
    apply BitVec.eq_of_toNat_eq
    rw [toNat_extractLsb, hmag, BitVec.toNat_ofNat, pow_zero, Nat.div_one]
  rw [finalInt, hnan, hinf, hsmall, intVal, hlow]
  cases hs : u.sign with
  | false =>
      have hsigned : signed false (q : ℤ) = q := rfl
      rw [hsigned]
      rcases le_or_gt (q : ℤ) (highest isUnsigned) with hq | hq
      · rw [saturate_mid (by cases isUnsigned <;> simp [lowest]) hq]
        cases isUnsigned <;> simp [highest, hult] at hq ⊢ <;> omega
      · rw [saturate_high hq]
        cases isUnsigned <;> simp [highest, hult] at hq ⊢ <;> omega
  | true =>
      have hsigned : signed true (q : ℤ) = -q := rfl
      rw [hsigned]
      rcases le_or_gt (lowest isUnsigned) (-(q : ℤ)) with hq | hq
      · rw [saturate_mid hq (by cases isUnsigned <;> simp [highest])]
        cases isUnsigned <;> simp [lowest, hult, hbne, BitVec.ofInt_neg] at hq ⊢ <;> omega
      · rw [saturate_low hq]
        cases isUnsigned <;> simp [lowest, hult, hbne] at hq ⊢ <;> omega

/-- An operand below 2^32, rounded to the magnitude that the unit computes. -/
theorem converts_shifted {f : Format} (h : FiniteUnpack f u neg v) (hm : modeOf rm = some m)
    (hexp : -4000 ≤ u.exp.toInt) (hrange : u.exp.toInt ≤ 31) (isUnsigned : Bool) :
    Converts u rm isUnsigned (toInteger isUnsigned m (.finite neg v)) := by
  obtain ⟨k, hk⟩ : ∃ k : ℕ, u.exp.toInt = 55 - k := ⟨(55 - u.exp.toInt).toNat, by omega⟩
  have hk0 : 0 < k := by omega
  have hbounds : -4000 ≤ u.exp.toInt ∧ u.exp.toInt ≤ 4000 := by omega
  have hvalue : v = signed neg ((u.sig.toNat : K) / 2 ^ k) := by
    have hsub : u.exp.toInt - 55 = -(k : ℤ) := by omega
    rw [h.value, hsub, zpow_neg, zpow_natCast, div_eq_mul_inv]
  have hround : roundInt m v = signed neg (roundNat m neg u.sig.toNat k : ℤ) := by rw [hvalue, roundInt_signed]
  have hfract : (Int.fract v ≠ 0) ↔ u.sig.toNat % 2 ^ k ≠ 0 := by
    have hpos : ((2 : K) ^ k) ≠ 0 := pow_ne_zero k two_ne_zero
    have hzero : Int.fract v = 0 ↔ Int.fract ((u.sig.toNat : K) / 2 ^ k) = 0 := by
      rw [hvalue]
      cases neg with
      | false => exact Iff.rfl
      | true => exact Int.fract_neg_eq_zero
    rw [ne_eq, hzero, fract_div_two_pow, div_eq_zero_iff, or_iff_left hpos, Nat.cast_eq_zero]
  have hmag := toNat_intValMagExt hbounds hk hk0 hm
  have hinexact := inexact_eq hbounds hk hk0
  rw [h.sign] at hmag
  have hsmall : (shift u).sle 23#14 = false := by
    rw [(shift_cases hbounds hk hk0).2.2.2]
    exact decide_eq_false (by omega)
  refine ⟨?_, ?_⟩
  · rw [toInteger, hround, ← h.sign]
    exact finalInt_saturate h.notNan h.notInf hsmall (h.sign ▸ hmag) isUnsigned _
  · have hnx : decide (Int.fract v ≠ 0) = decide (u.sig.toNat % 2 ^ k ≠ 0) := decide_eq_decide.mpr hfract
    rw [toInteger, hround, hinexact, hnx, saturate]
    split_ifs <;> simp

end Outcome

section Main

theorem exp_of_sig_eq_zero {fmt : BitVec 2} {x : BitVec 64} (h : (fpUnpack x fmt).isZero = true) :
    (fpUnpack x fmt).exp = 0#13 := by
  have hzero : (expZero (expRaw x fmt) fmt && fracRaw x fmt == 0#52) = true := h
  rw [fpUnpack]
  simp only [hzero, if_true]

/-- The conversion of every operand of a format. -/
theorem converts {rm : BitVec 3} {m : Mode} (hm : modeOf rm = some m) (fmt : BitVec 2) (x : BitVec 64)
    (isUnsigned : Bool) : Converts (fpUnpack x fmt) rm isUnsigned (toInteger isUnsigned m (read fmt x : Datum ℚ)) := by
  have h := fpUnpack_spec (K := ℚ) fmt x
  cases hd : (read fmt x : Datum ℚ) with
  | finite neg v =>
      rw [hd] at h
      obtain ⟨hlow, hhigh⟩ := FpResult.exp_safe h
      rcases le_or_gt (fpUnpack x fmt).exp.toInt 31 with hexp | hexp
      · exact converts_shifted h hm hlow hexp isUnsigned
      · have hne : (fpUnpack x fmt).sig.toNat ≠ 0 := by
          rw [ne_eq, ← h.isZero]
          intro hz
          rw [exp_of_sig_eq_zero hz] at hexp
          exact absurd hexp (by decide)
        have hmin : (formatOf fmt).emin ≤ 0 := by
          have hmax := (formatOf fmt).one_le_emax
          rw [Format.emin]
          omega
        exact converts_small h hhigh hexp ((h.normal hne).resolve_left (by omega)) isUnsigned
  | inf neg =>
      rw [hd] at h
      obtain ⟨hsign, hinf, hnan, -⟩ := h
      refine ⟨?_, by simp [toInteger]⟩
      rw [finalInt, hnan, hinf, hsign, toInteger]
      cases isUnsigned <;> cases neg <;> rfl
  | nan s =>
      rw [hd] at h
      refine ⟨?_, by simp [toInteger]⟩
      rw [finalInt, h.1]
      cases isUnsigned <;> rfl

/-- FCVT.W and FCVT.WU return the rounded value or the bound on its side. -/
theorem fp_to_int_correct (i : FpAluIn) (m : Mode) (hop : i.fpAluOp = fpAluFcvt) (hfp : i.fpToInt = true)
    (hm : modeOf (effRm i) = some m) {o : IntOutcome}
    (ho : toInteger (i.rs2Addr.getLsbD 0) m (read i.fmt i.rs1Data : Datum ℚ) = o) :
    fpAlu i = ((BitVec.ofInt 32 o.value).setWidth 64, flags o.nv false false false o.nx) := by
  have hfmt : rs1Fmt i = i.fmt := by simp [rs1Fmt, hfp]
  obtain ⟨hint, hnx⟩ := converts hm i.fmt i.rs1Data (i.rs2Addr.getLsbD 0)
  rw [ho] at hint hnx
  rw [fpAlu_fcvt hop, hfmt, fpCvt, hfp, if_pos rfl, hint, ← hnx]

/-- FCVT.WU.D of minus one half. -/
def minusHalf : FpAluIn :=
  { fpAluOp := fpAluFcvt, fmt := 0b01#2, rm := 0b000#3, fcsrRm := 0b000#3, rs1Data := 0xBFE0000000000000#64
    rs2Data := 0#64, rs3Data := 0#64, intRs1Data := 0#32, intToFp := false, fpToInt := true, rs2Addr := 1#5 }

theorem fp_to_int_correct_minusHalf : fpAlu minusHalf = (0#64, flags false false false false true) ∧
    ∀ o, toInteger true .nearestEven (read 0b01#2 0xBFE0000000000000#64 : Datum ℚ) = o →
      fpAlu minusHalf = ((BitVec.ofInt 32 o.value).setWidth 64, flags o.nv false false false o.nx) :=
  ⟨by decide, fun _ ho => fp_to_int_correct minusHalf .nearestEven rfl rfl rfl ho⟩

end Main

end VMate.FpToInt
