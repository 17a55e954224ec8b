import VMate.FpConvert
import VMate.FmaExact

namespace VMate.FpDiv

open Decode FpUnpack FpRoundPack FpFma FpDivSqrt FpAlu Rounding Ieee BitNat FpDatum FpRound FpResult FmaExact

section Normalise

variable {x : FpUnpacked} (hsig : x.sig.toNat ≠ 0)

include hsig

theorem lzc56_eq : lzc56 x.sig = FpRoundPack.lzc x.sig := by
  rw [lzc56, FpRoundPack.lzc, leadIndex_eq x.sig.isLt hsig]

/-- The divider normalises its operands as the packer does. -/
theorem sigNorm_eq : sigNorm x = normSig x.sig := by
  rw [sigNorm, normSig, lzc56_eq hsig]
  split_ifs with htop
  · have hlzc : FpRoundPack.lzc x.sig = 0#6 := by
      apply BitVec.eq_of_toNat_eq
      rw [toNat_lzc hsig, (getLsbD_top hsig).mp htop]
      rfl
    rw [hlzc]
    exact BitVec.shiftLeft_zero _
  · rfl

theorem expNorm_eq : expNorm x = normExp x.exp x.sig := by
  rw [expNorm, normExp, lzc56_eq hsig]
  split_ifs with htop
  · have hlzc : FpRoundPack.lzc x.sig = 0#6 := by
      apply BitVec.eq_of_toNat_eq
      rw [toNat_lzc hsig, (getLsbD_top hsig).mp htop]
      rfl
    rw [hlzc]
    exact BitVec.sub_zero _
  · rfl

end Normalise

section Quotient

variable {q : BitVec 113} (hq : q.toNat ≠ 0)

include hq

theorem toNat_msbPos : (msbPos q).toNat = Nat.log2 q.toNat := by
  have hlt : Nat.log2 q.toNat < 113 := log2_lt hq q.isLt
  rw [msbPos, divLzc, leadIndex_eq q.isLt hq]
  simp only [BitVec.toNat_sub, BitVec.toNat_ofNat]
  omega

/-- The quotient cut to 56 bits, its lost bits and the remainder kept as a
sticky bit. -/
theorem toNat_divSig (rem : BitVec 56) {amt : ℕ} (hamt : Nat.log2 q.toNat = 55 + amt) :
    (divSig q rem).toNat = q.toNat / 2 ^ amt ||| (decide (q.toNat % 2 ^ amt ≠ 0) || decide (rem.toNat ≠ 0)).toNat := by
  have hlt : Nat.log2 q.toNat < 113 := log2_lt hq q.isLt
  have hmsb := toNat_msbPos hq
  have hne : q ≠ 0#113 := by
    rintro rfl
    exact hq rfl
  have h55 : (55#7).toNat = 55 := rfl
  have hule : (55#7).ule (msbPos q) = true := by
    rw [BitVec.ule_eq_decide, hmsb, hamt, h55]
    exact decide_eq_true (by omega)
  have hsub : (msbPos q - 55#7).toNat = amt := by
    rw [BitVec.toNat_sub, hmsb, hamt, h55]
    omega
  have hbound : q.toNat / 2 ^ amt < 2 ^ 56 := by
    rw [Nat.div_lt_iff_lt_mul (Nat.two_pow_pos _), ← pow_add, show 56 + amt = Nat.log2 q.toNat + 1 by omega]
    exact (log2_spec hq).2
  rw [divSig, if_neg hne, if_pos hule]
  dsimp only
  rw [BitVec.shiftLeft_eq', BitVec.ushiftRight_eq', hsub, bne_zero_eq, bne_zero_eq,
    toNat_and_shiftMask q (by omega),
    BitVec.toNat_or, BitVec.toNat_setWidth, toNat_ushiftRight, toNat_setWidth_ofBool _ (by decide),
    Nat.mod_eq_of_lt hbound]

theorem toInt_divExpNorm (divExp : BitVec 13) (hexp : -3000 ≤ divExp.toInt ∧ divExp.toInt ≤ 3000) {amt : ℕ}
    (hamt : Nat.log2 q.toNat = 55 + amt) : (divExpNorm divExp q).toInt = divExp.toInt - 1 + amt := by
  have hlt : Nat.log2 q.toNat < 113 := log2_lt hq q.isLt
  have hne : q ≠ 0#113 := by
    rintro rfl
    exact hq rfl
  have h56 : (56#13).toInt = 56 := rfl
  have hmsb : (0#6 ++ msbPos q : BitVec 13).toInt = 55 + amt := by
    refine (toInt_zero_append (msbPos q) (by decide)).trans ?_
    rw [toNat_msbPos hq, hamt]
    push_cast
    rfl
  have hsub : (divExp - 56#13).toInt = divExp.toInt - 56 := by
    rw [toInt_sub_of_bounds (by rw [h56]; omega) (by rw [h56]; omega), h56]
  rw [divExpNorm, if_neg hne, toInt_add_of_bounds (by rw [hsub, hmsb]; omega) (by rw [hsub, hmsb]; omega), hsub, hmsb]
  ring

end Quotient

section Divide

variable {x y : FpUnpacked} (hx : x.sig.toNat ≠ 0) (hy : y.sig.toNat ≠ 0)

include hx hy

theorem toNat_divSigFull :
    (divSigFull x y).toNat = (normSig x.sig).toNat * 2 ^ 56 / (normSig y.sig).toNat ∧
      (divRem x y).toNat = (normSig x.sig).toNat * 2 ^ 56 % (normSig y.sig).toNat := by
  have hb := normSig_bounds hy
  have hnum : (divNumerator x).toNat = (normSig x.sig).toNat * 2 ^ 56 := by
    rw [divNumerator, sigNorm_eq hx]
    refine (toNat_append_zero (0#1 ++ normSig x.sig)).trans ?_
    rw [toNat_zero_append]
  have hden : ((sigNorm y).setWidth 113).toNat = (normSig y.sig).toNat := by
    rw [sigNorm_eq hy, BitVec.toNat_setWidth, Nat.mod_eq_of_lt (by omega)]
  have hne : sigNorm y ≠ 0#56 := by
    rw [sigNorm_eq hy, ne_eq, ← BitVec.toNat_inj, BitVec.toNat_ofNat]
    omega
  have hmod := Nat.mod_lt ((normSig x.sig).toNat * 2 ^ 56) (show (normSig y.sig).toNat > 0 by omega)
  rw [divSigFull, divRem, if_pos hne, if_pos hne, BitVec.toNat_udiv, hnum, hden, BitVec.toNat_setWidth,
    BitVec.toNat_umod,
    hnum, hden, Nat.mod_eq_of_lt (by omega)]
  exact ⟨rfl, rfl⟩

/-- The quotient has 56 or 57 bits. -/
theorem log2_divSigFull : (divSigFull x y).toNat ≠ 0 ∧ ∃ amt ≤ 1, Nat.log2 (divSigFull x y).toNat = 55 + amt := by
  obtain ⟨hlow, hhigh⟩ := normSig_bounds hx
  obtain ⟨hlow', hhigh'⟩ := normSig_bounds hy
  have hq := (toNat_divSigFull hx hy).1
  have hq55 : 2 ^ 55 ≤ (divSigFull x y).toNat := by
    rw [hq, Nat.le_div_iff_mul_le (by omega)]
    omega
  have hq57 : (divSigFull x y).toNat < 2 ^ 57 := by
    rw [hq, Nat.div_lt_iff_lt_mul (by omega)]
    omega
  have hne : (divSigFull x y).toNat ≠ 0 := by omega
  refine ⟨hne, ?_⟩
  rcases Nat.lt_or_ge (divSigFull x y).toNat (2 ^ 56) with h | h
  · exact ⟨0, by omega, (Nat.log2_eq_iff hne).mpr ⟨hq55, h⟩⟩
  · exact ⟨1, le_rfl, (Nat.log2_eq_iff hne).mpr ⟨h, hq57⟩⟩

variable {K : Type*} [Field K] [LinearOrder K] [IsStrictOrderedRing K]

theorem divSig_spec {amt : ℕ} (hamt : Nat.log2 (divSigFull x y).toNat = 55 + amt) :
    2 ^ 55 ≤ (divSig (divSigFull x y) (divRem x y)).toNat ∧
      SameCell 2 ((divSig (divSigFull x y) (divRem x y)).toNat : K)
        (((normSig x.sig).toNat * 2 ^ 56 : ℕ) / ((normSig y.sig).toNat * 2 ^ amt : ℕ)) := by
  have hb := normSig_bounds hy
  have hne := (log2_divSigFull hx hy).1
  have hsig := toNat_divSig hne (divRem x y) hamt
  have hlow := (log2_spec hne).1
  obtain ⟨hq, hr⟩ := toNat_divSigFull hx hy
  rw [hsig]
  constructor
  · refine le_trans ?_ Nat.left_le_or
    rw [Nat.le_div_iff_mul_le (Nat.two_pow_pos _), ← pow_add, ← hamt]
    exact hlow
  · rw [hq, hr, Nat.div_div_eq_div_mul]
    refine sameCell_sticky_div _ (Nat.mul_pos (by omega) (Nat.two_pow_pos _)) ?_
    rw [Nat.mod_mul, Bool.or_eq_true, decide_eq_true_iff, decide_eq_true_iff]
    have hpos : (normSig y.sig).toNat ≠ 0 := by omega
    constructor
    · rintro (h | h)
      · exact (Nat.add_pos_right _ (Nat.mul_pos (by omega) (Nat.pos_of_ne_zero h))).ne'
      · exact (Nat.add_pos_left (Nat.pos_of_ne_zero h) _).ne'
    · intro h
      by_contra hnot
      rw [not_or, not_ne_iff, not_ne_iff] at hnot
      rw [hnot.1, hnot.2] at h
      exact h rfl

end Divide

section Finite

variable {K : Type*} [Field K] [LinearOrder K] [IsStrictOrderedRing K] {x y : FpUnpacked} {g : BitVec 2} {s s' : Bool}
  {v w : K}

/-- A nonzero number with its significand normalised. -/
theorem normalised (h : FiniteUnpack (formatOf g) x s v) (hx : x.sig.toNat ≠ 0) :
    v = signed s (((normSig x.sig).toNat : K) * 2 ^ ((expNorm x).toInt - 55)) ∧
      -1100 ≤ (expNorm x).toInt ∧ (expNorm x).toInt ≤ 1023 := by
  obtain ⟨hlow, hhigh⟩ := exp_safe h
  have hlog : Nat.log2 x.sig.toNat < 56 := log2_lt hx x.sig.isLt
  have hemax : (formatOf g).emax ≤ 1023 := emax_le g
  have hemin : (formatOf g).emin = 1 - (formatOf g).emax := rfl
  have hmin := h.emin_le
  have hmax := h.le_emax
  rw [expNorm_eq hx, ← normalised_value hx hlow, toInt_normExp hx hlow]
  exact ⟨h.value, by omega, by omega⟩

theorem quotient_value {a b : ℕ} (hb : b ≠ 0) (e e' : ℤ) (amt : ℕ) (hv : v = signed s ((a : K) * 2 ^ (e - 55)))
    (hw : w = signed s' ((b : K) * 2 ^ (e' - 55))) :
    v / w = signed (s ^^ s') (((a * 2 ^ 56 : ℕ) : K) / (b * 2 ^ amt : ℕ) * 2 ^ (e - e' - 1 + amt - 55)) := by
  have hb' : (b : K) ≠ 0 := Nat.cast_ne_zero.mpr hb
  have hpow : (2 : K) ^ (e - e' - 1 + amt - 55) = 2 ^ (e - 55) / 2 ^ (e' - 55) * (2 ^ amt / 2 ^ 56) := by
    rw [← zpow_natCast, ← zpow_natCast, ← zpow_sub₀ two_ne_zero, ← zpow_sub₀ two_ne_zero, ← zpow_add₀ two_ne_zero]
    congr 1
    push_cast
    ring
  have habs : ((a * 2 ^ 56 : ℕ) : K) / (b * 2 ^ amt : ℕ) * 2 ^ (e - e' - 1 + amt - 55) =
      a * 2 ^ (e - 55) / (b * 2 ^ (e' - 55)) := by
    have h1 := two_zpow_pos (K := K) (e' - 55)
    rw [hpow]
    push_cast
    field_simp
    norm_num
  rw [habs, hv, hw, signed_div_signed]

variable [FloorRing K] {fmt : BitVec 2} {rm : BitVec 3} {m : Mode}

/-- The quotient of two nonzero numbers is rounded once. -/
theorem div_finite (hm : modeOf rm = some m) (h : FiniteUnpack (formatOf g) x s v)
    (h' : FiniteUnpack (formatOf g) y s' w)
    (hx : x.sig.toNat ≠ 0) (hy : y.sig.toNat ≠ 0) (zeroNeg : Bool) :
    Delivers fmt (fpRoundPack (x.sign ^^ y.sign) (divExpNorm (expNorm x - expNorm y) (divSigFull x y))
        (divSig (divSigFull x y) (divRem x y)) fmt rm false false)
      (ieee (formatOf fmt) m zeroNeg (v / w)) := by
  obtain ⟨hv, hlow, hhigh⟩ := normalised h hx
  obtain ⟨hw, hlow', hhigh'⟩ := normalised h' hy
  obtain ⟨hq, amt, hamt1, hamt⟩ := log2_divSigFull hx hy
  obtain ⟨hsig, hcell⟩ := divSig_spec (K := K) hx hy hamt
  have hb : (normSig y.sig).toNat ≠ 0 := by
    have := (normSig_bounds hy).1
    omega
  have ha : (normSig x.sig).toNat ≠ 0 := by
    have := (normSig_bounds hx).1
    omega
  have hsub : (expNorm x - expNorm y).toInt = (expNorm x).toInt - (expNorm y).toInt :=
    toInt_sub_of_bounds (by omega) (by omega)
  have hexp := toInt_divExpNorm hq (expNorm x - expNorm y) (by omega) hamt
  rw [hsub] at hexp
  have hpos : (0 : K) < ((normSig x.sig).toNat * 2 ^ 56 : ℕ) / ((normSig y.sig).toNat * 2 ^ amt : ℕ) := by
    refine div_pos (Nat.cast_pos.mpr ?_) (Nat.cast_pos.mpr ?_)
    · exact Nat.mul_pos (Nat.pos_of_ne_zero ha) (Nat.two_pow_pos _)
    · exact Nat.mul_pos (Nat.pos_of_ne_zero hb) (Nat.two_pow_pos _)
  rw [h.sign, h'.sign, quotient_value hb _ _ amt hv hw, ← hexp]
  exact fpRoundPack_sticky hm (s ^^ s') zeroNeg (by omega) hsig hpos hcell

end Finite

section Main

variable {K : Type*} [Field K] [LinearOrder K] [FloorRing K] [IsStrictOrderedRing K] {fmt : BitVec 2} {rm : BitVec 3}
  {m : Mode} {x y : FpUnpacked} {a b : Datum K}

/-- What a division returns for its exact result. -/
def DivReturns (fmt : BitVec 2) (m : Mode) (r : BitVec 64 × BitVec 5) (a b : Datum K) : Prop :=
  match a.div b with
  | .finite s v => Delivers fmt r (ieee (formatOf fmt) m s v)
  | .inf s => r = (infinity fmt s, flags false (a.divByZero b) false false false)
  | .nan invalid => r = (canonicalNan fmt, flags invalid false false false false)

omit [IsStrictOrderedRing K] in
theorem delivers_zero (s : Bool) :
    Delivers fmt (FpDivSqrt.zero fmt s, flags false false false false false) (ieee (formatOf fmt) m s (0 : K)) := by
  rw [ieee_zero]
  exact ⟨read_zero fmt s, rfl⟩

theorem div_numbers {s t : Bool} {v w : K} (hm : modeOf rm = some m) (h : FiniteUnpack (formatOf fmt) x s v)
    (h' : FiniteUnpack (formatOf fmt) y t w) :
    DivReturns fmt m (fpDivsqrt false fmt rm x y) (.finite s v) (.finite t w) := by
  have hx := FiniteUnpack.isZero_eq h
  have hy := FiniteUnpack.isZero_eq h'
  rw [DivReturns, Datum.div, fpDivsqrt]
  simp only [Bool.false_eq_true, if_false]
  rw [divClass, h.notSnan, h'.notSnan, h.notNan, h'.notNan, h.notInf, h'.notInf, hx, hy]
  by_cases hw : w = 0
  · by_cases hv : v = 0
    · simp [hv, hw]
    · simp [hv, hw, Datum.divByZero, h.sign, h'.sign]
  · by_cases hv : v = 0
    · simp only [hv, hw, if_false, zero_div, h.sign, h'.sign]
      exact delivers_zero (s ^^ t)
    · have hsx : x.sig.toNat ≠ 0 := by simpa [← h.isZero, hx] using hv
      have hsy : y.sig.toNat ≠ 0 := by simpa [← h'.isZero, hy] using hw
      simp only [hv, hw, if_false, decide_false, Bool.or_self, Bool.and_self, Bool.false_eq_true]
      exact div_finite hm h h' hsx hsy (s ^^ t)

theorem fpDivsqrt_div (hm : modeOf rm = some m) (h : Unpacks (formatOf fmt) x a) (h' : Unpacks (formatOf fmt) y b) :
    DivReturns fmt m (fpDivsqrt false fmt rm x y) a b := by
  obtain ⟨hz, hi, hs, -, hn⟩ := Unpacks.classes h
  obtain ⟨hz', hi', hs', -, hn'⟩ := Unpacks.classes h'
  cases a with
  | finite s v =>
      cases b with
      | finite t w => exact div_numbers hm h h'
      | inf t =>
          rw [DivReturns, Datum.div, fpDivsqrt]
          simp [divClass, hz, hi, hs, hn, hz', hi', hs', hn', h.sign, h'.1]
          exact delivers_zero (s ^^ t)
      | nan t =>
          rw [DivReturns, Datum.div_nan, fpDivsqrt]
          cases t <;> simp [divClass, hs, hn, hs', hn']
  | inf s =>
      cases b with
      | finite t w =>
          rw [DivReturns, Datum.div, fpDivsqrt]
          simp [divClass, hz, hi, hs, hn, hz', hi', hs', hn', h.1, h'.sign, Datum.divByZero]
      | inf t =>
          rw [DivReturns, Datum.div, fpDivsqrt]
          simp [divClass, hi, hs, hn, hi', hs', hn']
      | nan t =>
          rw [DivReturns, Datum.div_nan, fpDivsqrt]
          cases t <;> simp [divClass, hs, hn, hs', hn']
  | nan s =>
      rw [DivReturns, Datum.div, fpDivsqrt]
      cases s <;> cases hb : b.isSignaling <;> simp [divClass, hs, hn, hs', hn', hb]

theorem fpAlu_fdiv {i : FpAluIn} (hop : i.fpAluOp = fpAluFdiv) :
    fpAlu i = fpDivsqrt false i.fmt (effRm i) (fpUnpack i.rs1Data i.fmt) (fpUnpack i.rs2Data i.fmt) := by
  have hfmt : rs1Fmt i = i.fmt := by simp [rs1Fmt, hop, fpAluFdiv, fpAluFcvt]
  rw [fpAlu, hop, hfmt]
  rfl

/-- FDIV is correctly rounded, special operands included. -/
theorem div_correct (i : FpAluIn) (m : Mode) (hop : i.fpAluOp = fpAluFdiv) (hm : modeOf (effRm i) = some m) :
    DivReturns i.fmt m (fpAlu i) (read i.fmt i.rs1Data : Datum ℚ) (read i.fmt i.rs2Data) := by
  rw [fpAlu_fdiv hop]
  exact fpDivsqrt_div hm (fpUnpack_spec i.fmt i.rs1Data) (fpUnpack_spec i.fmt i.rs2Data)

/-- One third, rounded. -/
def oneThird : FpAluIn :=
  { fpAluOp := fpAluFdiv, fmt := 0b01#2, rm := 0b000#3, fcsrRm := 0b000#3, rs1Data := 0x3FF0000000000000#64
    rs2Data := 0x4008000000000000#64, rs3Data := 0#64, intRs1Data := 0#32, intToFp := false, fpToInt := false
    rs2Addr := 0#5 }

theorem div_correct_oneThird : DivReturns oneThird.fmt .nearestEven (fpAlu oneThird)
    (read 0b01#2 0x3FF0000000000000#64 : Datum ℚ) (read 0b01#2 0x4008000000000000#64) :=
  div_correct oneThird .nearestEven rfl rfl

end Main

end VMate.FpDiv
