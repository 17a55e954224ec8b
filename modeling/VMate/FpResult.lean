import VMate.FpOrder
import VMate.FpRound
import VMate.IeeeArith

namespace VMate.FpResult

open FpUnpack FpRoundPack FpFma FpDivSqrt Rounding Ieee BitNat FpDatum FpRound FpOrder

section Words

variable {K : Type*} [Field K]

theorem read_infinity (fmt : BitVec 2) (s : Bool) : (read fmt (infinity fmt s) : Datum K) = .inf s := by
  by_cases hf : fmt = 0b00#2
  · subst hf
    exact (read_single s 0xFF#8 0#23).trans (ofFields_inf binary32 s)
  · rw [infinity, if_neg hf]
    exact (read_double hf s 0x7FF#11 0#52).trans (ofFields_inf binary64 s)

theorem read_zero (fmt : BitVec 2) (s : Bool) : (read fmt (FpDivSqrt.zero fmt s) : Datum K) = .finite s 0 := by
  have hfields (f : Format) : (f.ofFields s 0 0 : Datum K) = .finite s 0 := by
    have hexp := f.two_pow_expBits
    have hemax := f.one_le_emax
    rw [Format.ofFields, if_neg (by omega), if_pos rfl, Nat.cast_zero, zero_mul, signed_zero]
  by_cases hf : fmt = 0b00#2
  · subst hf
    exact (read_single s 0#8 0#23).trans (hfields binary32)
  · rw [FpDivSqrt.zero, if_neg hf]
    exact (read_double hf s 0#11 0#52).trans (hfields binary64)

end Words

theorem delivers_exact {K : Type*} [Field K] {fmt : BitVec 2} {r : BitVec 64 × BitVec 5} {d : Datum K}
    (h : Delivers fmt r ⟨d, false, false, false⟩) : read fmt r.1 = d ∧ r.2 = 0#5 := by
  have hnone : flags false false false false false = 0#5 := by decide
  exact ⟨h.1, h.2.trans hnone⟩

section Returns

variable {K : Type*} [Field K] [LinearOrder K] [FloorRing K] [IsStrictOrderedRing K]

/-- The unit returns the rounded exact result, or the infinity or NaN that
takes its place. -/
def Returns (fmt : BitVec 2) (m : Mode) (r : BitVec 64 × BitVec 5) : Datum K → Prop
  | .finite s x => Delivers fmt r (ieee (formatOf fmt) m s x)
  | .inf s => r = (infinity fmt s, 0#5)
  | .nan invalid => r = (canonicalNan fmt, flags invalid false false false false)

variable {fmt g : BitVec 2} {rm : BitVec 3} {m : Mode} {u : FpUnpacked} {s : Bool} {v : K}

omit [LinearOrder K] [FloorRing K] [IsStrictOrderedRing K] in
theorem exp_safe (h : FiniteUnpack (formatOf g) u s v) : -4000 ≤ u.exp.toInt ∧ u.exp.toInt ≤ 4000 := by
  have hlow := h.emin_le
  have hhigh := h.le_emax
  have hmin : (formatOf g).emin = 1 - (formatOf g).emax := rfl
  have hmax : (formatOf g).emax ≤ 1023 := emax_le g
  omega

/-- An unpacked number, packed again in any format, is the rounding of its
value. -/
theorem fpRoundPack_unpacked (hm : modeOf rm = some m) (h : FiniteUnpack (formatOf g) u s v) :
    Delivers fmt (fpRoundPack u.sign u.exp u.sig fmt rm false false) (ieee (formatOf fmt) m s v) := by
  have hspec := fpRoundPack_spec (K := K) u.exp u.sig fmt hm s (exp_safe h)
  rw [← h.value] at hspec
  rw [h.sign]
  exact hspec

/-- A number unpacked from a format rounds to itself in a format with at least
its range and precision. -/
theorem ieee_unpacked (h : FiniteUnpack (formatOf g) u s v) {f : Format} (hbits : (formatOf g).fracBits ≤ f.fracBits)
    (hlow : f.emin - f.fracBits ≤ (formatOf g).emin - (formatOf g).fracBits)
    (hhigh : (formatOf g).emax - (formatOf g).fracBits ≤ f.emax - f.fracBits) (m : Mode) :
    ieee f m s v = ⟨.finite s v, false, false, false⟩ := by
  have hfb := fracBits_le g
  obtain ⟨n, hn⟩ := h.grid
  have hvalue : v = signed s ((n : K) * 2 ^ (u.exp.toInt - (formatOf g).fracBits)) := by
    rw [h.value, hn, value_shifted, mul_comm (2 ^ (55 - (formatOf g).fracBits)) n]
  by_cases hn0 : n = 0
  · rw [hvalue, hn0, Nat.cast_zero, zero_mul, signed_zero, ieee_zero]
  · have hsig := u.sig.isLt
    have h56 : (2 : ℕ) ^ 56 = 2 ^ (55 - (formatOf g).fracBits) * 2 ^ ((formatOf g).fracBits + 1) := by
      rw [← pow_add]
      congr 1
      omega
    have hlt : n < 2 ^ (f.fracBits + 1) := by
      rw [hn, h56] at hsig
      exact lt_of_lt_of_le (Nat.lt_of_mul_lt_mul_left hsig) (Nat.pow_le_pow_right two_pos (by omega))
    have hemin := h.emin_le
    have hemax := h.le_emax
    rw [hvalue]
    exact ieee_exact f m s s hlt (by omega) (by omega) hn0

/-- A normalised significand whose last bit is sticky is packed to the
rounding of the number it stands for. -/
theorem fpRoundPack_sticky (hm : modeOf rm = some m) (sign zeroNeg : Bool) {exp : BitVec 13} {sig : BitVec 56} {t : K}
    (hexp : -4000 ≤ exp.toInt ∧ exp.toInt ≤ 4000) (hsig : 2 ^ 55 ≤ sig.toNat) (ht : 0 < t)
    (hcell : SameCell 2 (sig.toNat : K) t) :
    Delivers fmt (fpRoundPack sign exp sig fmt rm false false)
      (ieee (formatOf fmt) m zeroNeg (signed sign (t * 2 ^ (exp.toInt - 55)))) := by
  have hfb := fracBits_le fmt
  have hpos : (0 : K) < sig.toNat * 2 ^ (exp.toInt - 55) :=
    mul_pos (Nat.cast_pos.mpr (lt_of_lt_of_le (Nat.two_pow_pos 55) hsig)) (two_zpow_pos _)
  have hlog := log_scaled (K := K) (exp.toInt - 55) hsig sig.isLt
  have hieee := ieee_congr (formatOf fmt) m zeroNeg sign hpos (mul_pos ht (two_zpow_pos _))
    (by rw [hlog]; push_cast; omega)
    (SameCell.scale_two hcell (exp.toInt - 55))
  have hspec := fpRoundPack_spec (K := K) exp sig fmt hm sign hexp
  rwa [ieee_of_ne_zero _ _ _ zeroNeg (signed_ne_zero sign hpos), hieee] at hspec

end Returns

end VMate.FpResult
