import VMate.FpDatum

namespace VMate.FpRound

open FpUnpack FpRoundPack Rounding Ieee BitNat FpDatum

/-- The search loop finds the leading bit. -/
theorem leadIndex_eq {w n : ℕ} {x : BitVec w} (hn : x.toNat < 2 ^ n) (hx : x.toNat ≠ 0) :
    leadIndex x n = some (Nat.log2 x.toNat) := by
  induction n with
  | zero => omega
  | succ i ih =>
      rw [leadIndex]
      by_cases hlt : x.toNat < 2 ^ i
      · have hbit : x.getLsbD i = false := by
          rw [← BitVec.testBit_toNat]
          exact Nat.testBit_lt_two_pow hlt
        rw [hbit]
        exact ih hlt
      · have hbit : x.getLsbD i = true := by
          have hdiv : x.toNat / 2 ^ i = 1 := Nat.div_eq_of_lt_le (by omega) (by rw [pow_succ] at hn; omega)
          rw [getLsbD_iff, hdiv]
        have hlog : Nat.log2 x.toNat = i := (Nat.log2_eq_iff hx).mpr ⟨by omega, hn⟩
        rw [hbit, hlog]
        rfl

theorem log2_lt {w n : ℕ} (hn : n ≠ 0) (h : n < 2 ^ w) : Nat.log2 n < w := (Nat.log2_lt hn).mpr h

section Normalise

variable {sig : BitVec 56} (hsig : sig.toNat ≠ 0)

include hsig

theorem toNat_lzc : (lzc sig).toNat = 55 - Nat.log2 sig.toNat := by
  have hlt : Nat.log2 sig.toNat < 56 := log2_lt hsig sig.isLt
  rw [lzc, leadIndex_eq sig.isLt hsig]
  simp only [BitVec.toNat_sub, BitVec.toNat_ofNat]
  omega

theorem getLsbD_top : sig.getLsbD 55 = true ↔ Nat.log2 sig.toNat = 55 := by
  have hlt := sig.isLt
  obtain ⟨hlow, hhigh⟩ := log2_spec hsig
  rw [getLsbD_iff, Nat.log2_eq_iff hsig]
  omega

theorem toNat_normSig : (normSig sig).toNat = sig.toNat * 2 ^ (55 - Nat.log2 sig.toNat) := by
  have htop := getLsbD_top hsig
  have hlt : Nat.log2 sig.toNat < 56 := log2_lt hsig sig.isLt
  obtain ⟨hlow, hhigh⟩ := log2_spec hsig
  rw [normSig]
  split_ifs with h
  · rw [htop.mp h, Nat.sub_self, pow_zero, Nat.mul_one]
  · rw [BitVec.shiftLeft_eq', toNat_lzc hsig]
    apply toNat_shiftLeft_of_lt
    calc sig.toNat * 2 ^ (55 - Nat.log2 sig.toNat)
        < 2 ^ (Nat.log2 sig.toNat + 1) * 2 ^ (55 - Nat.log2 sig.toNat) :=
          Nat.mul_lt_mul_of_pos_right hhigh (Nat.two_pow_pos _)
      _ = 2 ^ 56 := by rw [← pow_add]; congr 1; omega

theorem normSig_bounds : 2 ^ 55 ≤ (normSig sig).toNat ∧ (normSig sig).toNat < 2 ^ (55 + 1) := by
  have hlt : Nat.log2 sig.toNat < 56 := log2_lt hsig sig.isLt
  refine ⟨?_, (normSig sig).isLt⟩
  rw [toNat_normSig hsig]
  calc 2 ^ 55 = 2 ^ Nat.log2 sig.toNat * 2 ^ (55 - Nat.log2 sig.toNat) := by rw [← pow_add]; congr 1; omega
    _ ≤ sig.toNat * 2 ^ (55 - Nat.log2 sig.toNat) := Nat.mul_le_mul_right _ (log2_spec hsig).1

theorem toInt_normExp {exp : BitVec 13} (hexp : -4000 ≤ exp.toInt) :
    (normExp exp sig).toInt = exp.toInt - (55 - Nat.log2 sig.toNat : ℕ) := by
  have hlt : Nat.log2 sig.toNat < 56 := log2_lt hsig sig.isLt
  have htop := getLsbD_top hsig
  have hzext : (0#7 ++ lzc sig : BitVec 13).toInt = (55 - Nat.log2 sig.toNat : ℕ) := by
    rw [← toNat_lzc hsig]
    exact toInt_zero_append (lzc sig) (by decide)
  have hexp' := exp.toInt_lt
  rw [normExp]
  split_ifs with h
  · rw [htop.mp h]
    simp
  · rw [toInt_sub_of_bounds (by rw [hzext]; omega) (by rw [hzext]; omega), hzext]

/-- Normalising keeps the value. -/
theorem normalised_value {K : Type*} [Field K] [LinearOrder K] [IsStrictOrderedRing K] {exp : BitVec 13}
    (hexp : -4000 ≤ exp.toInt) :
    (sig.toNat : K) * 2 ^ (exp.toInt - 55) = (normSig sig).toNat * 2 ^ ((normExp exp sig).toInt - 55) := by
  have hsplit : exp.toInt - 55 = (normExp exp sig).toInt - 55 + (55 - Nat.log2 sig.toNat : ℕ) := by
    rw [toInt_normExp hsig hexp]
    omega
  rw [hsplit, two_zpow_add, toNat_normSig hsig, Nat.cast_mul, mul_assoc]

end Normalise

section Denormalise

variable {exp : BitVec 13} {sig : BitVec 56} (fmt : BitVec 2) (hsig : sig.toNat ≠ 0)
  (hexp : -4000 ≤ exp.toInt ∧ exp.toInt ≤ 4000)

theorem toInt_bias : (bias fmt).toInt = (formatOf fmt).emax := by
  by_cases hf : fmt = 0b00#2 <;> simp [bias, formatOf, hf, emax_binary32, emax_binary64]

theorem emax_le : (formatOf fmt).emax ≤ 1023 := by
  by_cases hf : fmt = 0b00#2 <;> simp [formatOf, hf, emax_binary32, emax_binary64]

include hsig hexp

theorem normExp_bounds : -4055 ≤ (normExp exp sig).toInt ∧ (normExp exp sig).toInt ≤ 4000 := by
  have hlt : Nat.log2 sig.toNat < 56 := log2_lt hsig sig.isLt
  rw [toInt_normExp hsig hexp.1]
  omega

theorem toInt_unboundedExp :
    (unboundedExp exp sig fmt).toInt = (normExp exp sig).toInt + (formatOf fmt).emax := by
  have hnorm := normExp_bounds hsig hexp
  have hemax := emax_le fmt
  have hone := (formatOf fmt).one_le_emax
  have hext : ((normExp exp sig).signExtend 14).toInt = (normExp exp sig).toInt :=
    BitVec.toInt_signExtend_of_le (by omega)
  have hbias := toInt_bias fmt
  rw [unboundedExp, toInt_add_of_bounds (by rw [hext, hbias]; omega) (by rw [hext, hbias]; omega), hext, hbias]

omit hsig hexp in
theorem toNat_shiftAmt {u : BitVec 14} (hlow : -8000 ≤ u.toInt) (hhigh : u.toInt ≤ 0) :
    (shiftAmt u).toNat = min (1 - u.toInt).toNat 63 := by
  have hone : (1#14).toInt = 1 := rfl
  have hsub : (1#14 - u).toInt = 1 - u.toInt := by
    rw [toInt_sub_of_bounds (by rw [hone]; omega) (by rw [hone]; omega), hone]
  have h63 : (63#14).toInt = 63 := rfl
  rw [shiftAmt]
  split_ifs with h
  · rw [BitVec.slt_iff_toInt_lt, h63, hsub] at h
    rw [BitVec.toNat_ofNat]
    omega
  · rw [BitVec.slt_iff_toInt_lt, h63, hsub] at h
    have hnat : ((1#14 - u).toNat : ℤ) = 1 - u.toInt := by
      rw [← hsub, BitVec.toInt_eq_toNat_of_lt]
      rw [BitVec.toInt_eq_toNat_cond] at hsub
      split_ifs at hsub <;> omega
    rw [toNat_extractLsb]
    omega

omit hsig hexp in
/-- The mask of `fp_round_pack` is built in 64 bits and then cut to 56. -/
theorem toNat_and_cutMask (x : BitVec 56) (amt : BitVec 6) :
    (x &&& ((1#64 <<< amt) - 1#64).setWidth 56).toNat = x.toNat % 2 ^ amt.toNat := by
  have hamt := amt.isLt
  have hpow : 2 ^ amt.toNat < 2 ^ 64 := Nat.pow_lt_pow_right (by decide) hamt
  have hpos := Nat.two_pow_pos amt.toNat
  have hmask : ((1#64 <<< amt) - 1#64).toNat = 2 ^ amt.toNat - 1 := by
    rw [BitVec.shiftLeft_eq', BitVec.toNat_sub, BitVec.toNat_shiftLeft, BitVec.toNat_ofNat, Nat.shiftLeft_eq]
    omega
  rw [BitVec.toNat_and, BitVec.toNat_setWidth, hmask]
  conv_lhs => rw [← Nat.mod_eq_of_lt x.isLt]
  rw [← Nat.and_mod_two_pow, Nat.and_two_pow_sub_one_eq_mod]
  exact Nat.mod_eq_of_lt (lt_of_le_of_lt (Nat.mod_le _ _) x.isLt)

/-- A number below the normal range is shifted to the smallest exponent. -/
theorem denorm_subnormal (hE : (normExp exp sig).toInt + (formatOf fmt).emax ≤ 0) :
    (denorm exp sig fmt).sig.toNat =
      (normSig sig).toNat / 2 ^ min (1 - ((normExp exp sig).toInt + (formatOf fmt).emax)).toNat 63 ∧
    (denorm exp sig fmt).exp.toInt = -(formatOf fmt).emax ∧
    (denorm exp sig fmt).sticky =
      decide ((normSig sig).toNat % 2 ^ min (1 - ((normExp exp sig).toInt + (formatOf fmt).emax)).toNat 63 ≠ 0) := by
  have hu := toInt_unboundedExp fmt hsig hexp
  have hnorm := normExp_bounds hsig hexp
  have hone := (formatOf fmt).one_le_emax
  have hzero : (0#14).toInt = 0 := rfl
  have hle : (unboundedExp exp sig fmt).sle 0#14 = true := by
    rw [BitVec.sle_iff_toInt_le, hu, hzero]
    exact hE
  have hne : sig ≠ 0#56 := by
    rintro rfl
    exact hsig rfl
  have hamt := toNat_shiftAmt (u := unboundedExp exp sig fmt) (by omega) (by omega)
  rw [hu] at hamt
  rw [denorm, if_neg hne, if_pos hle, ← hamt]
  dsimp only
  refine ⟨?_, ?_, ?_⟩
  · rw [BitVec.ushiftRight_eq', toNat_ushiftRight]
  · by_cases hf : fmt = 0b00#2
    · simp only [hf, if_true]
      rfl
    · simp only [hf, if_false, formatOf]
      rfl
  · rw [Bool.eq_iff_iff, bne_zero_iff, toNat_and_cutMask, decide_eq_true_iff]

theorem denorm_normal (hE : 0 < (normExp exp sig).toInt + (formatOf fmt).emax) :
    denorm exp sig fmt = ⟨normSig sig, normExp exp sig, false⟩ := by
  have hu := toInt_unboundedExp fmt hsig hexp
  have hzero : (0#14).toInt = 0 := rfl
  have hle : ¬ (unboundedExp exp sig fmt).sle 0#14 = true := by
    rw [BitVec.sle_iff_toInt_le, hu, hzero]
    omega
  have hne : sig ≠ 0#56 := by
    rintro rfl
    exact hsig rfl
  rw [denorm, if_neg hne, if_neg hle]

end Denormalise

section RoundingBits

variable (fmt : BitVec 2) {d : BitVec 56} {n a : ℕ} (hd : d.toNat = n / 2 ^ a)

/-- The two formats keep `fracBits + 1` of the 56 bits. -/
theorem toNat_fracToRound (d : BitVec 56) :
    (fracToRound d fmt).toNat = d.toNat / 2 ^ (55 - (formatOf fmt).fracBits) := by
  by_cases hf : fmt = 0b00#2
  · rw [fracToRound, if_pos hf, formatOf, if_pos hf]
    exact (toNat_zero_append _).trans (toNat_extractLsb_top d 32 (by omega))
  · rw [fracToRound, if_neg hf, formatOf, if_neg hf]
    exact toNat_extractLsb_top d 3 (by omega)

theorem guardBit_eq (d : BitVec 56) :
    guardBit d fmt = decide (d.toNat / 2 ^ (54 - (formatOf fmt).fracBits) % 2 = 1) := by
  rw [Bool.eq_iff_iff, decide_eq_true_iff]
  by_cases hf : fmt = 0b00#2
  · rw [guardBit, if_pos hf, formatOf, if_pos hf]
    exact getLsbD_iff d 31
  · rw [guardBit, if_neg hf, formatOf, if_neg hf]
    exact getLsbD_iff d 2

/-- The bits below the guard bit are looked at in two parts. -/
theorem round_or_sticky_eq (d : BitVec 56) :
    (roundBit d fmt || stickyBit d fmt) = decide (d.toNat % 2 ^ (54 - (formatOf fmt).fracBits) ≠ 0) := by
  rw [Bool.eq_iff_iff, decide_eq_true_iff, Bool.or_eq_true]
  by_cases hf : fmt = 0b00#2
  · rw [roundBit, if_pos hf, stickyBit, if_pos hf, formatOf, if_pos hf, getLsbD_iff, bne_zero_iff, toNat_extractLsb]
    show _ ↔ d.toNat % 2 ^ 31 ≠ 0
    omega
  · rw [roundBit, if_neg hf, stickyBit, if_neg hf, formatOf, if_neg hf, getLsbD_iff, getLsbD_iff]
    show _ ↔ d.toNat % 2 ^ 2 ≠ 0
    omega

theorem roundUp_eq {rm : BitVec 3} {m : Mode} (hm : modeOf rm = some m) (sign guard round sticky lsb : Bool) :
    roundUp rm sign guard round sticky lsb = roundsUpBits m sign guard (round || sticky) lsb := by
  rcases modeOf_cases hm with ⟨rfl, rfl⟩ | ⟨rfl, rfl⟩ | ⟨rfl, rfl⟩ | ⟨rfl, rfl⟩ | ⟨rfl, rfl⟩
  all_goals simp [roundUp, roundsUpBits, rne, rtz, rdn, rup, rmm, Bool.or_assoc]

include hd

/-- What the rounder decides on the shifted significand `d`, in terms of the
number `n` before the shift and the bits `st` it lost. -/
theorem rounding_bits {rm : BitVec 3} {m : Mode} (hm : modeOf rm = some m) (sign : Bool) {st : Bool}
    (hst : st = decide (n % 2 ^ a ≠ 0)) :
    (fracToRound d fmt).toNat = n / 2 ^ (a + (55 - (formatOf fmt).fracBits)) ∧
    roundUp rm sign (guardBit d fmt) (roundBit d fmt) (stickyBit d fmt || st) ((fracToRound d fmt).getLsbD 0) =
      roundsUp m sign n (a + (55 - (formatOf fmt).fracBits)) ∧
    (guardBit d fmt || roundBit d fmt || (stickyBit d fmt || st)) =
      decide (n % 2 ^ (a + (55 - (formatOf fmt).fracBits)) ≠ 0) := by
  have hfb := fracBits_le fmt
  obtain ⟨j, hj⟩ : ∃ j, 54 - (formatOf fmt).fracBits = j := ⟨_, rfl⟩
  have hj' : 55 - (formatOf fmt).fracBits = j + 1 := by omega
  have hfrac : (fracToRound d fmt).toNat = n / 2 ^ (a + (j + 1)) := by
    rw [toNat_fracToRound, hd, hj', Nat.div_div_eq_div_mul, ← pow_add]
  have hguard : guardBit d fmt = decide (n / 2 ^ (a + j) % 2 = 1) := by
    rw [guardBit_eq, hd, hj, Nat.div_div_eq_div_mul, ← pow_add]
  have hmod : n % 2 ^ (a + j) = n % 2 ^ a + 2 ^ a * (n / 2 ^ a % 2 ^ j) := by rw [pow_add, Nat.mod_mul]
  have hpos := Nat.two_pow_pos a
  have hrest : (roundBit d fmt || (stickyBit d fmt || st)) = decide (n % 2 ^ (a + j) ≠ 0) := by
    rw [← Bool.or_assoc, round_or_sticky_eq, hd, hj, hst, hmod, Bool.eq_iff_iff]
    simp only [Bool.or_eq_true, decide_eq_true_iff]
    simp
    omega
  have hlsb : (fracToRound d fmt).getLsbD 0 = decide (n / 2 ^ (a + (j + 1)) % 2 = 1) := by
    rw [Bool.eq_iff_iff, getLsbD_iff, hfrac, pow_zero, Nat.div_one, decide_eq_true_iff]
  have hmod' : n % 2 ^ (a + j + 1) = n % 2 ^ (a + j) + 2 ^ (a + j) * (n / 2 ^ (a + j) % 2) := Nat.mod_pow_succ
  have hpos' := Nat.two_pow_pos (a + j)
  rw [hj']
  refine ⟨hfrac, ?_, ?_⟩
  · rw [roundUp_eq hm, hguard, hrest, hlsb]
    exact (roundsUp_succ m sign n (a + j)).symm
  · rw [Bool.or_assoc, hguard, hrest, ← add_assoc, hmod', Bool.eq_iff_iff]
    simp only [Bool.or_eq_true, decide_eq_true_iff]
    rcases Nat.mod_two_eq_zero_or_one (n / 2 ^ (a + j)) with h | h <;> rw [h] <;> omega

end RoundingBits

section Pack

/-- The packing of the two formats. -/
def packFor (fmt : BitVec 2) (sign : Bool) (rm : BitVec 3) (finalExp : BitVec 13) (finalSig : BitVec 53)
    (tiny nx : Bool) : Packed :=
  if fmt = 0b00#2 then pack32 sign rm finalExp finalSig tiny nx else pack64 sign rm finalExp finalSig tiny nx

def word (fmt : BitVec 2) (sign : Bool) (p : Packed) : BitVec 64 :=
  if fmt = 0b00#2 then box (BitVec.ofBool sign ++ p.exp.extractLsb 7 0 ++ p.frac.extractLsb 22 0)
  else BitVec.ofBool sign ++ p.exp ++ p.frac

variable {K : Type*} [Field K]

theorem read_word (fmt : BitVec 2) (sign : Bool) (p : Packed) :
    (read fmt (word fmt sign p) : Datum K) = (formatOf fmt).ofFields sign (p.exp.toNat % 2 ^ (formatOf fmt).expBits)
      (p.frac.toNat % 2 ^ (formatOf fmt).fracBits) := by
  by_cases hf : fmt = 0b00#2
  · have hexp : (p.exp.extractLsb 7 0).toNat = p.exp.toNat % 2 ^ 8 := by rw [toNat_extractLsb, pow_zero, Nat.div_one]
    have hfrac : (p.frac.extractLsb 22 0).toNat = p.frac.toNat % 2 ^ 23 := by
      rw [toNat_extractLsb, pow_zero, Nat.div_one]
    rw [word, if_pos hf, hf, read_single, hexp, hfrac]
    rfl
  · have hexp : p.exp.toNat % 2 ^ 11 = p.exp.toNat := Nat.mod_eq_of_lt p.exp.isLt
    have hfrac : p.frac.toNat % 2 ^ 52 = p.frac.toNat := Nat.mod_eq_of_lt p.frac.isLt
    rw [word, if_neg hf, read_double hf, formatOf, if_neg hf]
    simp only [binary64, hexp, hfrac]

theorem toInfinity_eq {rm : BitVec 3} {m : Mode} (hm : modeOf rm = some m) (sign : Bool) :
    FpRoundPack.toInfinity rm sign = Ieee.toInfinity m sign := by
  rcases modeOf_cases hm with ⟨rfl, rfl⟩ | ⟨rfl, rfl⟩ | ⟨rfl, rfl⟩ | ⟨rfl, rfl⟩ | ⟨rfl, rfl⟩
  all_goals cases sign <;> rfl

variable {fmt : BitVec 2} (sign : Bool) (rm : BitVec 3) {m : Mode} (finalExp : BitVec 13) (finalSig : BitVec 53)
  (tiny nx : Bool)

theorem toInt_biasedExp (fmt : BitVec 2) (hF : finalExp.toInt ≤ 4001) (hF' : -4001 ≤ finalExp.toInt) :
    (finalExp.signExtend 14 + bias fmt).toInt = finalExp.toInt + (formatOf fmt).emax := by
  have hemax := emax_le fmt
  have hone := (formatOf fmt).one_le_emax
  have hext : (finalExp.signExtend 14).toInt = finalExp.toInt := BitVec.toInt_signExtend_of_le (by omega)
  have hbias := toInt_bias fmt
  rw [toInt_add_of_bounds (by rw [hext, hbias]; omega) (by rw [hext, hbias]; omega), hext, hbias]

/-- Both packers compare the biased exponent with the ends of its field. -/
theorem packFor_eq (fmt : BitVec 2) (hF : finalExp.toInt ≤ 4001) (hF' : -4001 ≤ finalExp.toInt) :
    packFor fmt sign rm finalExp finalSig tiny nx =
      if (formatOf fmt).emax < finalExp.toInt then
        if FpRoundPack.toInfinity rm sign then
          ⟨if fmt = 0b00#2 then 0xFF#11 else 0x7FF#11, 0#52, true, false, true⟩
        else ⟨if fmt = 0b00#2 then 0xFE#11 else 0x7FE#11,
          if fmt = 0b00#2 then 0x7FFFFF#52 else 0xFFFFFFFFFFFFF#52, true, false, true⟩
      else if finalExp.toInt ≤ -(formatOf fmt).emax then
        ⟨if fmt = 0b00#2 then (if finalSig.getLsbD 23 then 0x01#11 else 0x00#11)
          else if finalSig.getLsbD 52 then 0x001#11 else 0x000#11,
          if fmt = 0b00#2 then (finalSig.extractLsb 22 0).setWidth 52 else finalSig.extractLsb 51 0, false,
          tiny && nx, nx⟩
      else ⟨(finalExp.signExtend 14 + bias fmt).extractLsb 10 0,
        if fmt = 0b00#2 then (finalSig.extractLsb 22 0).setWidth 52
        else finalSig.extractLsb 51 0, false, false, nx⟩ := by
  have hb := toInt_biasedExp finalExp fmt hF hF'
  have hzero : (0#14).toInt = 0 := rfl
  obtain rfl | hf := eq_or_ne fmt 0b00#2
  · have hmax : (255#14).toInt = 255 := rfl
    have hemax : (formatOf 0b00#2).emax = 127 := rfl
    have hbias : bias 0b00#2 = 127#14 := rfl
    rw [hbias, hemax] at hb
    have h1 : (255#14).sle (finalExp.signExtend 14 + 127#14) = true ↔ 127 < finalExp.toInt := by
      rw [BitVec.sle_iff_toInt_le, hb, hmax]
      omega
    have h2 : (finalExp.signExtend 14 + 127#14).sle 0#14 = true ↔ finalExp.toInt ≤ -127 := by
      rw [BitVec.sle_iff_toInt_le, hb, hzero]
      omega
    rw [hemax, hbias]
    simp only [packFor, pack32, if_true, h1, h2]
  · have hmax : (2047#14).toInt = 2047 := rfl
    have hemax : (formatOf fmt).emax = 1023 := by rw [formatOf, if_neg hf]; rfl
    have hbias : bias fmt = 1023#14 := by rw [bias, if_neg hf]
    rw [hbias, hemax] at hb
    have h1 : (2047#14).sle (finalExp.signExtend 14 + 1023#14) = true ↔ 1023 < finalExp.toInt := by
      rw [BitVec.sle_iff_toInt_le, hb, hmax]
      omega
    have h2 : (finalExp.signExtend 14 + 1023#14).sle 0#14 = true ↔ finalExp.toInt ≤ -1023 := by
      rw [BitVec.sle_iff_toInt_le, hb, hzero]
      omega
    rw [hemax, hbias]
    simp only [packFor, pack64, hf, if_false, h1, h2]

/-- The fraction field of a packed number that does not overflow. -/
theorem toNat_fracField (fmt : BitVec 2) :
    (if fmt = 0b00#2 then (finalSig.extractLsb 22 0).setWidth 52 else finalSig.extractLsb 51 0).toNat %
      2 ^ (formatOf fmt).fracBits = finalSig.toNat % 2 ^ (formatOf fmt).fracBits := by
  obtain rfl | hf := eq_or_ne fmt 0b00#2
  · show ((finalSig.extractLsb 22 0).setWidth 52).toNat % 2 ^ 23 = finalSig.toNat % 2 ^ 23
    rw [BitVec.toNat_setWidth, toNat_extractLsb]
    omega
  · rw [if_neg hf, formatOf, if_neg hf, toNat_extractLsb]
    show finalSig.toNat / 2 ^ 0 % 2 ^ 52 % 2 ^ 52 = finalSig.toNat % 2 ^ 52
    omega

variable {sign rm finalExp finalSig tiny nx} {p : Packed} (hp : packFor fmt sign rm finalExp finalSig tiny nx = p)

include hp

theorem pack_overflow (hm : modeOf rm = some m) (hF : finalExp.toInt ≤ 4001)
    (hover : (formatOf fmt).emax < finalExp.toInt) :
    (read fmt (word fmt sign p) : Datum K) =
        (if Ieee.toInfinity m sign then .inf sign else .finite sign (signed sign (formatOf fmt).maxFinite)) ∧
      p.of = true ∧ p.uf = false ∧ p.nx = true := by
  have hone := (formatOf fmt).one_le_emax
  rw [packFor_eq sign rm finalExp finalSig tiny nx fmt hF (by omega), if_pos hover, toInfinity_eq hm] at hp
  rw [read_word]
  cases hinf : Ieee.toInfinity m sign with
  | true =>
      rw [hinf, if_pos rfl] at hp
      subst hp
      refine ⟨?_, rfl, rfl, rfl⟩
      rw [if_pos rfl, ← ofFields_inf]
      obtain rfl | hf := eq_or_ne fmt 0b00#2
      · rfl
      · simp only [formatOf, hf, if_false]
        rfl
  | false =>
      rw [hinf, if_neg Bool.false_ne_true] at hp
      subst hp
      refine ⟨?_, rfl, rfl, rfl⟩
      rw [if_neg Bool.false_ne_true, ← ofFields_max]
      obtain rfl | hf := eq_or_ne fmt 0b00#2
      · rfl
      · simp only [formatOf, hf, if_false]
        rfl

theorem pack_subnormal (hexp : finalExp.toInt = -(formatOf fmt).emax)
    (hsig : finalSig.toNat ≤ 2 ^ (formatOf fmt).fracBits) :
    (read fmt (word fmt sign p) : Datum K) = .finite sign (signed sign
        ((finalSig.toNat : K) * 2 ^ ((formatOf fmt).emin - (formatOf fmt).fracBits))) ∧
      p.of = false ∧ p.uf = (tiny && nx) ∧ p.nx = nx := by
  have hone := (formatOf fmt).one_le_emax
  have hemax := emax_le fmt
  rw [packFor_eq sign rm finalExp finalSig tiny nx fmt (by omega) (by omega), if_neg (by omega), if_pos hexp.le] at hp
  have hfield : p.exp.toNat % 2 ^ (formatOf fmt).expBits =
      if 2 ^ (formatOf fmt).fracBits ≤ finalSig.toNat then 1 else 0 := by
    subst hp
    obtain rfl | hf := eq_or_ne fmt 0b00#2
    · have hbit : finalSig.getLsbD 23 = true ↔ 2 ^ 23 ≤ finalSig.toNat := by
        rw [getLsbD_iff]
        simp only [formatOf, if_true, binary32] at hsig
        omega
      simp only [if_true, hbit, formatOf, binary32]
      split_ifs <;> rfl
    · have hbit : finalSig.getLsbD 52 = true ↔ 2 ^ 52 ≤ finalSig.toNat := by
        rw [getLsbD_iff]
        simp only [formatOf, hf, if_false, binary64] at hsig
        omega
      simp only [hf, if_false, hbit, formatOf, binary64]
      split_ifs <;> rfl
  rw [read_word, hfield, ← ofFields_subnormal _ sign hsig, ← toNat_fracField finalSig fmt]
  subst hp
  exact ⟨rfl, rfl, rfl, rfl⟩

theorem pack_normal (hlow : -(formatOf fmt).emax < finalExp.toInt) (hhigh : finalExp.toInt ≤ (formatOf fmt).emax)
    (hsig : 2 ^ (formatOf fmt).fracBits ≤ finalSig.toNat) (hsig' : finalSig.toNat < 2 ^ ((formatOf fmt).fracBits + 1)) :
    (read fmt (word fmt sign p) : Datum K) = .finite sign (signed sign
        ((finalSig.toNat : K) * 2 ^ (finalExp.toInt - (formatOf fmt).fracBits))) ∧
      p.of = false ∧ p.uf = false ∧ p.nx = nx := by
  have hemax := emax_le fmt
  have hexpBits := (formatOf fmt).two_pow_expBits
  have hbiased := toInt_biasedExp finalExp fmt (by omega) (by omega)
  rw [packFor_eq sign rm finalExp finalSig tiny nx fmt (by omega) (by omega), if_neg (by omega),
    if_neg (by omega)] at hp
  have hfield : ((p.exp.toNat % 2 ^ (formatOf fmt).expBits : ℕ) : ℤ) = finalExp.toInt + (formatOf fmt).emax := by
    subst hp
    generalize finalExp.signExtend 14 + bias fmt = b at hbiased
    have hb : (b.toNat : ℤ) = finalExp.toInt + (formatOf fmt).emax := by
      rw [BitVec.toInt_eq_toNat_cond] at hbiased
      split_ifs at hbiased <;> omega
    have hcut : (b.extractLsb 10 0).toNat = b.toNat := by
      rw [toNat_extractLsb]
      omega
    rw [hcut, Nat.mod_eq_of_lt (by omega), hb]
  rw [read_word, ← ofFields_normal _ sign hsig hsig' hfield hlow hhigh, ← toNat_fracField finalSig fmt]
  subst hp
  exact ⟨rfl, rfl, rfl, rfl⟩

end Pack

section Main

variable {exp : BitVec 13} {sig : BitVec 56} {fmt : BitVec 2} {rm : BitVec 3} {m : Mode}

/-- The incremented significand, its carry and the significand that is
packed, for a rounded magnitude `q`. -/
theorem rounded_fields (fmt : BitVec 2) {frac : BitVec 53} {up : Bool} {q : ℕ} (hq : frac.toNat + up.toNat = q)
    (hle : q ≤ 2 ^ ((formatOf fmt).fracBits + 1)) :
    let r := frac.setWidth 54 + (BitVec.ofBool up).setWidth 54
    let carry := if fmt = 0b00#2 then r.getLsbD 24 else r.getLsbD 53
    carry = decide (q = 2 ^ ((formatOf fmt).fracBits + 1)) ∧
      (if carry then (r >>> 1).setWidth 53 else r.setWidth 53).toNat =
        if q = 2 ^ ((formatOf fmt).fracBits + 1) then 2 ^ (formatOf fmt).fracBits else q := by
  intro r carry
  have hfrac := frac.isLt
  have hup := Bool.toNat_le up
  have hr : r.toNat = q := by
    rw [BitVec.toNat_add, BitVec.toNat_setWidth, BitVec.toNat_setWidth, BitVec.toNat_ofBool]
    omega
  have hcarry : carry = decide (q = 2 ^ ((formatOf fmt).fracBits + 1)) := by
    rw [Bool.eq_iff_iff, decide_eq_true_iff]
    obtain rfl | hf := eq_or_ne fmt 0b00#2
    · show r.getLsbD 24 = true ↔ q = 2 ^ 24
      have hle' : q ≤ 2 ^ 24 := hle
      rw [getLsbD_iff, hr]
      omega
    · simp only [carry, hf, if_false, formatOf, binary64] at hle ⊢
      rw [getLsbD_iff, hr]
      omega
  refine ⟨hcarry, ?_⟩
  rw [hcarry]
  have hfb := fracBits_le fmt
  split_ifs with h1 h2 h2
  · rw [BitVec.toNat_setWidth, toNat_ushiftRight, hr, h2, pow_succ, pow_one, Nat.mul_div_cancel _ two_pos]
    exact Nat.mod_eq_of_lt (Nat.pow_lt_pow_right (by decide) (by omega))
  · exact absurd (of_decide_eq_true h1) h2
  · exact absurd (decide_eq_true h2) h1
  · have hlt : q < 2 ^ 53 := lt_of_lt_of_le (lt_of_le_of_ne hle h2) (Nat.pow_le_pow_right two_pos (by omega))
    rw [BitVec.toNat_setWidth, hr, Nat.mod_eq_of_lt hlt]

/-- With unbounded exponent the rounding carries only from a significand of
all ones. -/
theorem unbounded_carry (fmt : BitVec 2) (hm : modeOf rm = some m) (sign : Bool) {n : BitVec 56}
    (hn : 2 ^ 55 ≤ n.toNat) :
    ((if fmt = 0b00#2 then n.extractLsb 54 32 == 0x7FFFFF#23 else n.extractLsb 54 3 == 0xFFFFFFFFFFFFF#52) &&
        roundUp rm sign (guardBit n fmt) (roundBit n fmt) (stickyBit n fmt)
          (if fmt = 0b00#2 then n.getLsbD 32 else n.getLsbD 3)) =
      decide (roundNat m sign n.toNat (55 - (formatOf fmt).fracBits) = 2 ^ ((formatOf fmt).fracBits + 1)) := by
  have hlt := n.isLt
  have hn0 : n.toNat = n.toNat / 2 ^ 0 := by rw [pow_zero, Nat.div_one]
  obtain ⟨hfrac, hup, -⟩ := rounding_bits fmt hn0 hm sign
    (show false = decide (n.toNat % 2 ^ 0 ≠ 0) by simp [Nat.mod_one])
  have hlsb : (fracToRound n fmt).getLsbD 0 = if fmt = 0b00#2 then n.getLsbD 32 else n.getLsbD 3 := by
    rw [Bool.eq_iff_iff, getLsbD_iff, toNat_fracToRound, pow_zero, Nat.div_one]
    obtain rfl | hf := eq_or_ne fmt 0b00#2
    · exact (getLsbD_iff n 32).symm
    · rw [if_neg hf, formatOf, if_neg hf]
      exact (getLsbD_iff n 3).symm
  have hones : (if fmt = 0b00#2 then n.extractLsb 54 32 == 0x7FFFFF#23 else n.extractLsb 54 3 == 0xFFFFFFFFFFFFF#52) =
      decide (n.toNat / 2 ^ (55 - (formatOf fmt).fracBits) = 2 ^ ((formatOf fmt).fracBits + 1) - 1) := by
    rw [Bool.eq_iff_iff, decide_eq_true_iff]
    obtain rfl | hf := eq_or_ne fmt 0b00#2
    · show (n.extractLsb 54 32 == 0x7FFFFF#23) = true ↔ n.toNat / 2 ^ 32 = 2 ^ 24 - 1
      rw [beq_iff_eq, ← BitVec.toNat_inj, toNat_extractLsb]
      show n.toNat / 2 ^ 32 % 2 ^ 23 = 2 ^ 23 - 1 ↔ _
      omega
    · rw [if_neg hf, formatOf, if_neg hf, beq_iff_eq, ← BitVec.toNat_inj, toNat_extractLsb]
      show n.toNat / 2 ^ 3 % 2 ^ 52 = 2 ^ 52 - 1 ↔ n.toNat / 2 ^ 3 = 2 ^ 53 - 1
      omega
  rw [Bool.or_false, zero_add] at hup
  rw [← hlsb, hup, hones, roundNat, Bool.eq_iff_iff, Bool.and_eq_true, decide_eq_true_iff, decide_eq_true_iff]
  have hdiv : n.toNat / 2 ^ (55 - (formatOf fmt).fracBits) < 2 ^ ((formatOf fmt).fracBits + 1) := by
    have hfb := fracBits_le fmt
    rw [Nat.div_lt_iff_lt_mul (Nat.two_pow_pos _), ← pow_add]
    exact lt_of_lt_of_le hlt (Nat.pow_le_pow_right two_pos (by omega))
  have hpos := Nat.two_pow_pos ((formatOf fmt).fracBits + 1)
  cases roundsUp m sign n.toNat (55 - (formatOf fmt).fracBits) <;> simp <;> omega

theorem unboundedTiny_eq (hm : modeOf rm = some m) (sign : Bool) (hsig : sig.toNat ≠ 0)
    (hexp : -4000 ≤ exp.toInt ∧ exp.toInt ≤ 4000) :
    unboundedTiny sign exp sig fmt rm =
      decide ((normExp exp sig).toInt +
        (if roundNat m sign (normSig sig).toNat (55 - (formatOf fmt).fracBits) = 2 ^ ((formatOf fmt).fracBits + 1)
          then 1 else 0) < (formatOf fmt).emin) := by
  have hu := toInt_unboundedExp fmt hsig hexp
  have hcarry := unbounded_carry fmt hm sign (normSig_bounds hsig).1
  have hzero : (0#14).toInt = 0 := rfl
  have hmin : (formatOf fmt).emin = 1 - (formatOf fmt).emax := rfl
  have hne : sig ≠ 0#56 := by
    rintro rfl
    exact hsig rfl
  have hneg : (unboundedExp exp sig fmt).slt 0#14 = true ↔ (normExp exp sig).toInt + (formatOf fmt).emax < 0 := by
    rw [BitVec.slt_iff_toInt_lt, hu, hzero]
  have heq : unboundedExp exp sig fmt = 0#14 ↔ (normExp exp sig).toInt + (formatOf fmt).emax = 0 := by
    rw [← BitVec.toInt_inj, hu, hzero]
  simp only [unboundedTiny, hne, if_false, hneg, heq]
  generalize roundUp rm sign _ _ _ _ = up at hcarry ⊢
  by_cases h1 : (normExp exp sig).toInt + (formatOf fmt).emax < 0
  · rw [if_pos h1, eq_comm, decide_eq_true_iff]
    split_ifs <;> omega
  · rw [if_neg h1]
    by_cases h2 : (normExp exp sig).toInt + (formatOf fmt).emax = 0
    · have hc : (if fmt = 0b00#2 then !((normSig sig).extractLsb 54 32 == 0x7FFFFF#23 && up)
          else !((normSig sig).extractLsb 54 3 == 0xFFFFFFFFFFFFF#52 && up)) =
          !decide (roundNat m sign (normSig sig).toNat (55 - (formatOf fmt).fracBits) =
            2 ^ ((formatOf fmt).fracBits + 1)) := by
        rw [← hcarry]
        split_ifs <;> rfl
      rw [if_pos h2, hc, Bool.eq_iff_iff]
      split_ifs with h3 <;> simp [h3] <;> omega
    · rw [if_neg h2, eq_comm, decide_eq_false_iff_not]
      split_ifs <;> omega

/-- What is packed, for a significand `n` that the denormalisation shifted by
`a` places. -/
theorem packed_eq (hm : modeOf rm = some m) (sign : Bool) (hsig : sig.toNat ≠ 0) {n a k q : ℕ}
    (hd : (denorm exp sig fmt).sig.toNat = n / 2 ^ a) (hst : (denorm exp sig fmt).sticky = decide (n % 2 ^ a ≠ 0))
    (hexp : -4000 ≤ (denorm exp sig fmt).exp.toInt ∧ (denorm exp sig fmt).exp.toInt ≤ 4000)
    (hk : a + (55 - (formatOf fmt).fracBits) = k) (hq : roundNat m sign n k = q)
    (hle : q ≤ 2 ^ ((formatOf fmt).fracBits + 1)) :
    ∃ finalExp finalSig, packFor fmt sign rm finalExp finalSig (unboundedTiny sign exp sig fmt rm)
        (decide (n % 2 ^ k ≠ 0)) = packed sign exp sig fmt rm ∧
      finalExp.toInt = (denorm exp sig fmt).exp.toInt + (if q = 2 ^ ((formatOf fmt).fracBits + 1) then 1 else 0) ∧
      finalSig.toNat = if q = 2 ^ ((formatOf fmt).fracBits + 1) then 2 ^ (formatOf fmt).fracBits else q := by
  obtain ⟨hfrac, hup, hnx⟩ := rounding_bits fmt hd hm sign hst
  rw [hk] at hfrac hup hnx
  have hsum : (fracToRound (denorm exp sig fmt).sig fmt).toNat + (roundsUp m sign n k).toNat = q := by
    rw [hfrac, ← hq]
    rfl
  obtain ⟨hcarry, hfinal⟩ := rounded_fields fmt hsum hle
  have hne : sig ≠ 0#56 := by
    rintro rfl
    exact hsig rfl
  have hone : (1#13).toInt = 1 := rfl
  refine ⟨if q = 2 ^ ((formatOf fmt).fracBits + 1) then (denorm exp sig fmt).exp + 1#13 else (denorm exp sig fmt).exp,
    _, ?_, ?_, hfinal⟩
  · simp only [packed, hup, hnx, hne, if_false, packFor, hcarry, decide_eq_true_eq]
  · split_ifs
    · rw [toInt_add_of_bounds (by rw [hone]; omega) (by rw [hone]; omega), hone]
    · rw [add_zero]

variable {K : Type*} [Field K] [LinearOrder K] [FloorRing K] [IsStrictOrderedRing K]

/-- The packed result is the IEEE outcome `o`. -/
def Packs (fmt : BitVec 2) (sign : Bool) (p : Packed) (o : Outcome K) : Prop :=
  read fmt (word fmt sign p) = o.datum ∧ p.of = o.of ∧ p.uf = o.uf ∧ p.nx = o.nx

section Nonzero

variable (hm : modeOf rm = some m) (sign : Bool) (hsig : sig.toNat ≠ 0) (hexp : -4000 ≤ exp.toInt ∧ exp.toInt ≤ 4000)

include hm hsig hexp

theorem packs_normal (hE : 0 < (normExp exp sig).toInt + (formatOf fmt).emax) :
    Packs fmt sign (packed sign exp sig fmt rm) (ieee (formatOf fmt) m sign
      (signed sign (((normSig sig).toNat : K) * 2 ^ ((normExp exp sig).toInt - 55)))) := by
  have hfb := fracBits_le fmt
  have hemax := emax_le fmt
  have hnorm := normExp_bounds hsig hexp
  obtain ⟨hlow, hhigh⟩ := normSig_bounds hsig
  have hdenorm := denorm_normal fmt hsig hexp hE
  have hmin : (formatOf fmt).emin = 1 - (formatOf fmt).emax := rfl
  obtain ⟨hq, hq'⟩ := roundNat_bounds hlow hhigh (show (formatOf fmt).fracBits ≤ 55 by omega) m sign
  have hLe : ((55 : ℕ) : ℤ) + ((normExp exp sig).toInt - 55) = (normExp exp sig).toInt := by omega
  have hieee := ieee_normal (K := K) (formatOf fmt) m sign sign ((normExp exp sig).toInt - 55) hlow hhigh
    (by omega) (by omega)
  rw [hLe] at hieee
  rw [hieee]
  obtain ⟨F, S, hp, hF, hS⟩ := packed_eq (n := (normSig sig).toNat) (a := 0) hm sign hsig (by rw [hdenorm]; simp)
    (by rw [hdenorm]; simp [Nat.mod_one]) (by rw [hdenorm]; dsimp only; omega) (zero_add _) rfl hq'
  rw [hdenorm] at hF
  dsimp only at hF
  generalize roundNat m sign (normSig sig).toNat (55 - (formatOf fmt).fracBits) = q at hq hq' hF hS ⊢
  rw [← hF]
  by_cases hover : (formatOf fmt).emax < F.toInt
  · rw [if_pos hover]
    exact pack_overflow hp hm (by split_ifs at hF <;> omega) hover
  · rw [if_neg hover]
    have hvalue : (S.toNat : K) * 2 ^ (F.toInt - (formatOf fmt).fracBits) =
        q * 2 ^ ((normExp exp sig).toInt - (formatOf fmt).fracBits) := by
      split_ifs at hF hS with hc
      · rw [hS, hF, hc, ← binade_low, ← binade_high]
      · rw [hS, hF, add_zero]
    have hbounds : 2 ^ (formatOf fmt).fracBits ≤ S.toNat ∧ S.toNat < 2 ^ ((formatOf fmt).fracBits + 1) := by
      have hpos := Nat.two_pow_pos (formatOf fmt).fracBits
      have hpow : 2 ^ ((formatOf fmt).fracBits + 1) = 2 ^ (formatOf fmt).fracBits * 2 := pow_succ _ _
      split_ifs at hS <;> omega
    have hres := pack_normal (K := K) hp (by split_ifs at hF <;> omega) (by omega) hbounds.1 hbounds.2
    rwa [hvalue] at hres

theorem packs_subnormal (hE : (normExp exp sig).toInt + (formatOf fmt).emax ≤ 0) :
    Packs fmt sign (packed sign exp sig fmt rm) (ieee (formatOf fmt) m sign
      (signed sign (((normSig sig).toNat : K) * 2 ^ ((normExp exp sig).toInt - 55)))) := by
  have hfb := fracBits_le fmt
  have hemax := emax_le fmt
  have hone := (formatOf fmt).one_le_emax
  have hnorm := normExp_bounds hsig hexp
  obtain ⟨hlow, hhigh⟩ := normSig_bounds hsig
  obtain ⟨hdsig, hdexp, hdst⟩ := denorm_subnormal fmt hsig hexp hE
  have hmin : (formatOf fmt).emin = 1 - (formatOf fmt).emax := rfl
  -- the distance to the smallest exponent, which the hardware clamps at 63
  obtain ⟨a, ha⟩ : ∃ a : ℕ, (a : ℤ) = 1 - ((normExp exp sig).toInt + (formatOf fmt).emax) :=
    ⟨(1 - ((normExp exp sig).toInt + (formatOf fmt).emax)).toNat, by omega⟩
  rw [← ha, Int.toNat_natCast] at hdsig hdst
  have hq' : roundNat m sign (normSig sig).toNat (min a 63 + (55 - (formatOf fmt).fracBits)) ≤
      2 ^ (formatOf fmt).fracBits := by
    refine le_trans (roundNat_le _ _ _ _) ?_
    rw [Nat.add_one_le_iff, Nat.div_lt_iff_lt_mul (Nat.two_pow_pos _), ← pow_add]
    exact lt_of_lt_of_le hhigh (Nat.pow_le_pow_right two_pos (by omega))
  have hclamp : roundNat m sign (normSig sig).toNat (min a 63 + (55 - (formatOf fmt).fracBits)) =
        roundNat m sign (normSig sig).toNat (a + (55 - (formatOf fmt).fracBits)) ∧
      ((normSig sig).toNat % 2 ^ (min a 63 + (55 - (formatOf fmt).fracBits)) ≠ 0 ↔
        (normSig sig).toNat % 2 ^ (a + (55 - (formatOf fmt).fracBits)) ≠ 0) := by
    rcases le_or_gt a 63 with h | h
    · rw [min_eq_left h]
      exact ⟨rfl, Iff.rfl⟩
    · have hsmall {j : ℕ} (hj : 63 ≤ j) : 2 * (normSig sig).toNat < 2 ^ (j + (55 - (formatOf fmt).fracBits)) :=
        lt_of_lt_of_le (show 2 * (normSig sig).toNat < 2 ^ 57 by omega) (Nat.pow_le_pow_right two_pos (by omega))
      have h63 := hsmall (show 63 ≤ min a 63 by omega)
      have ha := hsmall h.le
      refine ⟨roundNat_small m sign h63 ha, ?_⟩
      rw [Nat.mod_eq_of_lt (by omega), Nat.mod_eq_of_lt (by omega)]
  have hLe : ((55 : ℕ) : ℤ) + ((normExp exp sig).toInt - 55) = (normExp exp sig).toInt := by omega
  have hieee := ieee_subnormal (K := K) (k := a + (55 - (formatOf fmt).fracBits)) (formatOf fmt) m sign sign
    ((normExp exp sig).toInt - 55) hlow hhigh (by omega) (by omega) (by omega)
  rw [hLe, ← unboundedTiny_eq hm sign hsig hexp] at hieee
  rw [hieee]
  obtain ⟨F, S, hp, hF, hS⟩ := packed_eq (n := (normSig sig).toNat) (a := min a 63) hm sign hsig hdsig hdst (by omega)
    rfl rfl (le_trans hq' (Nat.pow_le_pow_right two_pos (Nat.le_succ _)))
  have hcarry : ¬ roundNat m sign (normSig sig).toNat (min a 63 + (55 - (formatOf fmt).fracBits)) =
      2 ^ ((formatOf fmt).fracBits + 1) := by
    have hpos := Nat.two_pow_pos (formatOf fmt).fracBits
    rw [pow_succ]
    omega
  rw [if_neg hcarry] at hF hS
  have hres := pack_subnormal (K := K) hp (by omega) (by rw [hS]; exact hq')
  rw [hS, hclamp.1] at hres
  simp only [hclamp.2] at hres
  exact hres

end Nonzero

theorem packs_ieee (sig : BitVec 56) (fmt : BitVec 2) (hm : modeOf rm = some m) (sign : Bool)
    (hexp : -4000 ≤ exp.toInt ∧ exp.toInt ≤ 4000) :
    Packs fmt sign (packed sign exp sig fmt rm)
      (ieee (formatOf fmt) m sign (signed sign ((sig.toNat : K) * 2 ^ (exp.toInt - 55)))) := by
  by_cases hsig : sig.toNat = 0
  · obtain rfl : sig = 0#56 := BitVec.eq_of_toNat_eq hsig
    have hx : signed sign (((0#56).toNat : K) * 2 ^ (exp.toInt - 55)) = 0 := by simp
    have hsmall := ofFields_subnormal (K := K) (formatOf fmt) sign (Nat.zero_le _)
    have hpos := Nat.two_pow_pos (formatOf fmt).fracBits
    have hsigned : signed sign (((0 : ℕ) : K) * 2 ^ ((formatOf fmt).emin - (formatOf fmt).fracBits)) = 0 := by simp
    rw [if_neg (by omega), hsigned] at hsmall
    have hpacked : packed sign exp 0#56 fmt rm = ⟨0#11, 0#52, false, false, false⟩ := by
      by_cases hf : fmt = 0b00#2 <;>
        simp [packed, denorm, guardBit, roundBit, stickyBit, hf]
    have hout : ieee (formatOf fmt) m sign (signed sign (((0#56).toNat : K) * 2 ^ (exp.toInt - 55))) =
        ⟨.finite sign 0, false, false, false⟩ := by
      rw [ieee, if_pos hx]
    rw [hout, hpacked]
    refine ⟨?_, rfl, rfl, rfl⟩
    rw [read_word, ← hsmall]
    rfl
  · rw [normalised_value hsig hexp.1]
    rcases le_or_gt ((normExp exp sig).toInt + (formatOf fmt).emax) 0 with hE | hE
    · exact packs_subnormal hm sign hsig hexp hE
    · exact packs_normal hm sign hsig hexp hE

/-- `fp_round_pack` delivers the IEEE rounding of the number that sign,
exponent and significand stand for. -/
theorem fpRoundPack_spec (exp : BitVec 13) (sig : BitVec 56) (fmt : BitVec 2) (hm : modeOf rm = some m) (sign : Bool)
    (hexp : -4000 ≤ exp.toInt ∧ exp.toInt ≤ 4000) :
    Delivers fmt (fpRoundPack sign exp sig fmt rm false false)
      (ieee (formatOf fmt) m sign (signed sign ((sig.toNat : K) * 2 ^ (exp.toInt - 55)))) := by
  obtain ⟨hread, hof, huf, hnx⟩ := packs_ieee (K := K) sig fmt hm sign hexp
  refine ⟨hread, ?_⟩
  rw [← hof, ← huf, ← hnx]
  rfl

end Main

end VMate.FpRound
