import VMate.FpResult
import Mathlib.Data.Rat.Floor

namespace VMate.FpConvert

open Decode FpUnpack FpRoundPack FpFma FpCvt FpAlu Rounding Ieee BitNat FpDatum FpRound FpOrder FpResult

theorem fpAlu_fcvt {i : FpAluIn} (hop : i.fpAluOp = fpAluFcvt) :
    fpAlu i = fpCvt (fpUnpack i.rs1Data (rs1Fmt i)) i.intRs1Data i.fmt i.rs2Addr (effRm i) i.intToFp i.fpToInt := by
  rw [fpAlu, hop]
  rfl

section IntToFp

/-- The integer operand, read as signed or unsigned. -/
def intOperand (i : FpAluIn) : ℤ :=
  if i.rs2Addr.getLsbD 0 then i.intRs1Data.toNat else i.intRs1Data.toInt

variable (x : BitVec 32) (isUnsigned : Bool)

theorem intSign_false_iff : intSign x false = true ↔ 2 ^ 31 ≤ x.toNat := by
  have hx := x.isLt
  rw [intSign, Bool.not_false, Bool.true_and, getLsbD_iff]
  omega

theorem signed_absInt : signed (intSign x isUnsigned) ((absInt x isUnsigned).toNat : ℤ) =
    if isUnsigned then (x.toNat : ℤ) else x.toInt := by
  have hx := x.isLt
  cases isUnsigned with
  | true => rfl
  | false =>
      rw [if_neg Bool.false_ne_true, BitVec.toInt_eq_toNat_cond]
      by_cases hneg : 2 ^ 31 ≤ x.toNat
      · rw [absInt, (intSign_false_iff x).mpr hneg, if_pos rfl, signed, if_pos rfl, BitVec.toNat_neg,
          if_neg (by omega), Nat.mod_eq_of_lt (by omega)]
        omega
      · have hpos : intSign x false = false := by rwa [← Bool.not_eq_true, intSign_false_iff]
        rw [absInt, hpos, if_neg Bool.false_ne_true, signed, if_neg Bool.false_ne_true, if_pos (by omega)]

/-- Zero has no sign. -/
theorem intSign_of_eq_zero (h : (if isUnsigned then (x.toNat : ℤ) else x.toInt) = 0) :
    intSign x isUnsigned = false := by
  cases isUnsigned with
  | true => rfl
  | false =>
      rw [if_neg Bool.false_ne_true, BitVec.toInt_eq_toNat_cond] at h
      rw [← Bool.not_eq_true, intSign_false_iff]
      split_ifs at h <;> omega

theorem toNat_setWidth_56 (y : BitVec 32) : (y.setWidth 56).toNat = y.toNat := by
  have hy := y.isLt
  rw [BitVec.toNat_setWidth, Nat.mod_eq_of_lt (by omega)]

variable {K : Type*} [Field K] [LinearOrder K] [FloorRing K] [IsStrictOrderedRing K] {i : FpAluIn} {m : Mode}

/-- An integer is rounded once, and zero is positive. -/
theorem int_to_fp (hop : i.fpAluOp = fpAluFcvt) (hint : i.intToFp = true) (hfp : i.fpToInt = false)
    (hm : modeOf (effRm i) = some m) :
    Delivers i.fmt (fpAlu i) (ieee (formatOf i.fmt) m false ((intOperand i : ℤ) : K)) := by
  have hexp : (55#13).toInt = 55 := rfl
  have hvalue : signed (intSign i.intRs1Data (i.rs2Addr.getLsbD 0))
      (((((absInt i.intRs1Data (i.rs2Addr.getLsbD 0)).setWidth 56).toNat : ℕ) : K) * 2 ^ ((55#13).toInt - 55)) =
      ((intOperand i : ℤ) : K) := by
    rw [hexp, sub_self, zpow_zero, mul_one, toNat_setWidth_56, intOperand, ← signed_absInt, cast_signed,
      Int.cast_natCast]
  have hzero : ieee (formatOf i.fmt) m (intSign i.intRs1Data (i.rs2Addr.getLsbD 0)) ((intOperand i : ℤ) : K) =
      ieee (formatOf i.fmt) m false ((intOperand i : ℤ) : K) := by
    by_cases h0 : intOperand i = 0
    · rw [intSign_of_eq_zero _ _ h0]
    · exact ieee_of_ne_zero _ _ _ _ (Int.cast_ne_zero.mpr h0)
  have hspec := fpRoundPack_spec (K := K) 55#13 ((absInt i.intRs1Data (i.rs2Addr.getLsbD 0)).setWidth 56) i.fmt hm
    (intSign i.intRs1Data (i.rs2Addr.getLsbD 0)) (by decide)
  rw [hvalue, hzero] at hspec
  rw [fpAlu_fcvt hop, fpCvt, hint, hfp]
  exact hspec

/-- A small integer is a double. -/
theorem ieee_int_double (m : Mode) {k : ℤ} (hk : |k| < 2 ^ 53) :
    ieee binary64 m false (k : K) = ⟨.finite (decide (k < 0)) (k : K), false, false, false⟩ := by
  by_cases h0 : k = 0
  · rw [h0, Int.cast_zero, ieee_zero]
    rfl
  · have hsplit : k = signed (decide (k < 0)) (k.natAbs : ℤ) := by
      by_cases hneg : k < 0
      · rw [decide_eq_true hneg, signed, if_pos rfl]
        omega
      · rw [decide_eq_false hneg, signed, if_neg Bool.false_ne_true]
        omega
    have hcast : (k : K) = signed (decide (k < 0)) ((k.natAbs : K) * 2 ^ (0 : ℤ)) := by
      rw [zpow_zero, mul_one, ← Int.cast_natCast k.natAbs, ← cast_signed, ← hsplit]
    have hlt : k.natAbs < 2 ^ (binary64.fracBits + 1) := by
      have h53 : 2 ^ (binary64.fracBits + 1) = 2 ^ 53 := rfl
      have habs := Int.natCast_natAbs k
      omega
    have hexact := ieee_exact (K := K) binary64 m false (decide (k < 0)) hlt (e := 0) (by decide) (by decide)
      (Int.natAbs_ne_zero.mpr h0)
    rwa [← hcast] at hexact

theorem abs_intOperand_lt (i : FpAluIn) : |intOperand i| < 2 ^ 53 := by
  have hx := i.intRs1Data.isLt
  rw [abs_lt, intOperand, BitVec.toInt_eq_toNat_cond]
  split_ifs <;> omega

end IntToFp

section FpToFp

variable {K : Type*} [Field K] [LinearOrder K] [FloorRing K] [IsStrictOrderedRing K] {i : FpAluIn} {m : Mode}

theorem fp_to_fp (hop : i.fpAluOp = fpAluFcvt) (hint : i.intToFp = false) (hfp : i.fpToInt = false)
    (hm : modeOf (effRm i) = some m) : Returns i.fmt m (fpAlu i) (read (rs1Fmt i) i.rs1Data : Datum K) := by
  have hunpack := fpUnpack_spec (K := K) (rs1Fmt i) i.rs1Data
  rw [fpAlu_fcvt hop, fpCvt, hint, hfp]
  simp only [Bool.false_eq_true, if_false, Bool.not_false, Bool.true_and]
  cases hd : (read (rs1Fmt i) i.rs1Data : Datum K) with
  | finite s v =>
      rw [hd] at hunpack
      rw [hunpack.notNan, hunpack.notInf, hunpack.notSnan]
      exact fpRoundPack_unpacked hm hunpack
  | inf s =>
      rw [hd] at hunpack
      obtain ⟨hsign, hinf, hnan, -⟩ := hunpack
      rw [hnan, hinf, hsign]
      rfl
  | nan invalid =>
      rw [hd] at hunpack
      obtain ⟨hnan, hsnan, -⟩ := hunpack
      rw [hnan, hsnan]
      rfl

/-- Between the formats a number that both have is converted as it is. -/
theorem fp_to_fp_exact (hop : i.fpAluOp = fpAluFcvt) (hint : i.intToFp = false) (hfp : i.fpToInt = false)
    (hm : modeOf (effRm i) = some m) {d : Datum K} (hd : read (rs1Fmt i) i.rs1Data = d) (hnan : d.isNan = false)
    (hieee : ∀ s v, d = .finite s v → ieee (formatOf i.fmt) m s v = ⟨.finite s v, false, false, false⟩) :
    read i.fmt (fpAlu i).1 = d ∧ (fpAlu i).2 = 0#5 := by
  have hret := fp_to_fp (K := K) hop hint hfp hm
  rw [hd] at hret
  cases hcase : d with
  | finite s v =>
      rw [hcase, Returns, hieee s v hcase] at hret
      exact delivers_exact hret
  | inf s =>
      rw [hcase, Returns] at hret
      rw [hret]
      exact ⟨read_infinity _ _, rfl⟩
  | nan invalid =>
      rw [hcase] at hnan
      exact absurd hnan.symm Bool.false_ne_true

theorem formatOf_double {fmt : BitVec 2} (h : fmt ≠ 0b00#2) : formatOf fmt = binary64 := if_neg h

/-- Widening a single is exact. -/
theorem widen_exact (hop : i.fpAluOp = fpAluFcvt) (hint : i.intToFp = false) (hfp : i.fpToInt = false)
    (hm : modeOf (effRm i) = some m) (hsrc : rs1Fmt i = 0b00#2) (hdst : i.fmt ≠ 0b00#2) {d : Datum K}
    (hd : read 0b00#2 i.rs1Data = d) (hnan : d.isNan = false) : read i.fmt (fpAlu i).1 = d ∧ (fpAlu i).2 = 0#5 := by
  refine fp_to_fp_exact hop hint hfp hm (by rwa [hsrc]) hnan fun s v hsv => ?_
  have hunpack := fpUnpack_spec (K := K) 0b00#2 i.rs1Data
  rw [hd, hsv] at hunpack
  rw [formatOf_double hdst]
  exact ieee_unpacked hunpack (by decide) (by decide) (by decide) m

/-- Narrowing a double that a single was widened to gives that single back. -/
theorem narrow_exact (hop : i.fpAluOp = fpAluFcvt) (hint : i.intToFp = false) (hfp : i.fpToInt = false)
    (hm : modeOf (effRm i) = some m) (hdst : i.fmt = 0b00#2) {x : BitVec 64} {d : Datum K}
    (hd : read (rs1Fmt i) i.rs1Data = d) (hx : read 0b00#2 x = d) (hnan : d.isNan = false) : fpAlu i = (x, 0#5) := by
  have hexact := fp_to_fp_exact hop hint hfp hm hd hnan fun s v hsv => by
    have hunpack := fpUnpack_spec (K := K) 0b00#2 x
    rw [hx, hsv] at hunpack
    rw [hdst]
    exact ieee_unpacked hunpack le_rfl le_rfl le_rfl m
  rw [hdst] at hexact
  have hbits : x = (fpAlu i).1 := read_inj (K := K) (by rwa [hx]) (by rw [hx, hexact.1])
  rw [hbits, ← hexact.2]

end FpToFp

section Main

/-- `j` converts the result of `i` back to single precision. -/
structure NarrowsBack (i j : FpAluIn) : Prop where
  op : j.fpAluOp = fpAluFcvt
  intToFp : j.intToFp = false
  fpToInt : j.fpToInt = false
  source : j.rs2Addr.extractLsb 1 0 = i.fmt
  fmt : j.fmt = 0b00#2
  rs1Data : j.rs1Data = (fpAlu i).1

theorem rs1Fmt_fp_to_fp {i : FpAluIn} (hop : i.fpAluOp = fpAluFcvt) (hint : i.intToFp = false)
    (hfp : i.fpToInt = false) : rs1Fmt i = i.rs2Addr.extractLsb 1 0 := if_pos ⟨hop, hint, hfp⟩

/-- Conversions from the integers and between the formats. -/
theorem convert_correct (i : FpAluIn) (m : Mode) (hop : i.fpAluOp = fpAluFcvt) (hfp : i.fpToInt = false)
    (hm : modeOf (effRm i) = some m) :
    (i.intToFp = true →
      Delivers i.fmt (fpAlu i) (ieee (formatOf i.fmt) m false (intOperand i : ℚ)) ∧
      (i.fmt ≠ 0b00#2 → read i.fmt (fpAlu i).1 = .finite (decide (intOperand i < 0)) (intOperand i : ℚ) ∧
        (fpAlu i).2 = 0#5)) ∧
    (i.intToFp = false →
      Returns i.fmt m (fpAlu i) (read (i.rs2Addr.extractLsb 1 0) i.rs1Data : Datum ℚ) ∧
      (i.rs2Addr.extractLsb 1 0 = 0b00#2 → i.fmt ≠ 0b00#2 → (read 0b00#2 i.rs1Data : Datum ℚ).isNan = false →
        (read i.fmt (fpAlu i).1 : Datum ℚ) = read 0b00#2 i.rs1Data ∧ (fpAlu i).2 = 0#5 ∧
        ∀ j m', NarrowsBack i j → modeOf (effRm j) = some m' → fpAlu j = (i.rs1Data, 0#5))) := by
  refine ⟨fun hint => ?_, fun hint => ?_⟩
  · have h := int_to_fp (K := ℚ) hop hint hfp hm
    refine ⟨h, fun hdouble => ?_⟩
    rw [formatOf_double hdouble, ieee_int_double m (abs_intOperand_lt i)] at h
    exact delivers_exact h
  · rw [← rs1Fmt_fp_to_fp hop hint hfp]
    refine ⟨fp_to_fp hop hint hfp hm, fun hsrc hdst hnan => ?_⟩
    obtain ⟨hread, hflags⟩ := widen_exact (K := ℚ) hop hint hfp hm hsrc hdst rfl hnan
    refine ⟨hread, hflags, fun j m' hj hm' => ?_⟩
    have hjsrc : rs1Fmt j = i.fmt := (rs1Fmt_fp_to_fp hj.op hj.intToFp hj.fpToInt).trans hj.source
    refine narrow_exact (K := ℚ) hj.op hj.intToFp hj.fpToInt hm' hj.fmt ?_ rfl hnan
    rw [hjsrc, hj.rs1Data, hread]

/-- FCVT.D.S of one. -/
def widenOne : FpAluIn :=
  { fpAluOp := fpAluFcvt, fmt := 0b01#2, rm := 0b000#3, fcsrRm := 0b000#3, rs1Data := 0xFFFFFFFF3F800000#64
    rs2Data := 0#64, rs3Data := 0#64, intRs1Data := 0#32, intToFp := false, fpToInt := false, rs2Addr := 0#5 }

theorem convert_correct_widenOne :
    (read 0b01#2 (fpAlu widenOne).1 : Datum ℚ) = read 0b00#2 0xFFFFFFFF3F800000#64 ∧ (fpAlu widenOne).2 = 0#5 := by
  have h := ((convert_correct widenOne .nearestEven rfl rfl rfl).2 rfl).2 rfl (by decide) rfl
  exact ⟨h.1, h.2.1⟩

end Main

end VMate.FpConvert
