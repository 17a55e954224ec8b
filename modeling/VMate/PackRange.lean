import VMate.FpCvt
import VMate.FpSqrt
import VMate.FmaFinite

namespace VMate.PackRange

open FpUnpack FpRoundPack FpFma FpDivSqrt FpCvt Rounding Ieee BitNat FpDatum FpRound FpDiv FpSqrt FmaFinite

/-- The exponents that the packer takes. -/
def InRange (exp : BitVec 13) : Prop := -4000 ≤ exp.toInt ∧ exp.toInt ≤ 4000

/-- The port `exp` of the packer in `fp_fma`. -/
def fmaExp (op : BitVec 3) (rm : BitVec 3) (rs1 rs2 rs3 : FpUnpacked) : BitVec 13 :=
  let eff2 := effRs2 op rs2
  let eff3 := effRs3 op rs1 rs2 rs3
  let pSig := if rs1.isZero || eff2.isZero then 0#112 else (0#56 ++ rs1.sig) * (0#56 ++ eff2.sig)
  let aSig := if eff3.isZero then 0#112 else eff3.sig.setWidth 112 <<< 55
  let al := align (rs1.exp.signExtend 14 + eff2.exp.signExtend 14) (eff3.exp.signExtend 14) pSig aSig
  let sum := addAligned (prodSign op rs1 eff2) (addSign op eff3) rm (0#1 ++ al.pSig ++ BitVec.ofBool al.pSticky)
    (0#1 ++ al.aSig ++ BitVec.ofBool al.aSticky)
  (al.finalExp - (0#7 ++ FpFma.lzc sum.2) + 2#14).extractLsb 12 0

/-- The port `exp` of the packer in `fp_divsqrt`. -/
def divsqrtExp (isSqrt : Bool) (rs1 rs2 : FpUnpacked) : BitVec 13 :=
  if isSqrt then (sqrtExpEven rs1).sshiftRight 1 else divExpNorm (expNorm rs1 - expNorm rs2) (divSigFull rs1 rs2)

/-- The port `exp` of the packer in `fp_cvt`. -/
def cvtExp (intToFp : Bool) (x : FpUnpacked) : BitVec 13 := if intToFp then 55#13 else x.exp

/-- `r` is a NaN, an infinity or a zero that goes past the packer, or what the
packer makes of `exp`. -/
def PackedOrSpecial (fmt : BitVec 2) (rm : BitVec 3) (exp : BitVec 13) (r : BitVec 64 × BitVec 5) : Prop :=
  r.1 = canonicalNan fmt ∨ (∃ s, r.1 = infinity fmt s ∨ r.1 = zero fmt s) ∨
    ∃ sign sig nv dz, r = fpRoundPack sign exp sig fmt rm nv dz

def PacksInRange (fmt : BitVec 2) (rm : BitVec 3) (exp : BitVec 13) (r : BitVec 64 × BitVec 5) : Prop :=
  InRange exp ∧ PackedOrSpecial fmt rm exp r

section Bounds

/-- The exponents of unpacked numbers. -/
def Bounded (u : FpUnpacked) : Prop := -1022 ≤ u.exp.toInt ∧ u.exp.toInt ≤ 1023

theorem bounded_zero {u : FpUnpacked} (h : u.exp = 0#13) : Bounded u := by
  rw [Bounded, h]
  decide

theorem bounded_fpUnpack (x : BitVec 64) (g : BitVec 2) : Bounded (fpUnpack x g) := by
  have hlt := toNat_expRaw_lt x g
  have hexpBits := (formatOf g).two_pow_expBits
  have hmin : (formatOf g).emin = 1 - (formatOf g).emax := rfl
  have hone := (formatOf g).one_le_emax
  have hmax : (formatOf g).emax ≤ 1023 := emax_le g
  cases hz : expZero (expRaw x g) g with
  | true =>
      cases hf : fracRaw x g == 0#52 with
      | true => exact bounded_zero (by simp [fpUnpack, hz, hf])
      | false =>
          have hexp : (fpUnpack x g).exp = if g = 0b00#2 then 1#13 - 127#13 else 1#13 - 1023#13 := by
            simp [fpUnpack, hz, hf]
          rw [Bounded, hexp, toInt_subnormalExp]
          omega
  | false =>
      cases hm : expMax (expRaw x g) g with
      | true =>
          refine bounded_zero ?_
          cases hf : fracRaw x g == 0#52 <;> simp [fpUnpack, hz, hm, hf]
      | false =>
          have hexp : (fpUnpack x g).exp =
              if g = 0b00#2 then (0#2 ++ expRaw x g) - 127#13 else (0#2 ++ expRaw x g) - 1023#13 := by
            simp [fpUnpack, hz, hm]
          rw [← Bool.not_eq_true, expZero_iff] at hz
          rw [← Bool.not_eq_true, expMax_iff] at hm
          rw [Bounded, hexp, toInt_normalExp]
          omega

variable {x y z : FpUnpacked}

theorem bounded_effRs2 (op : BitVec 3) (hy : Bounded y) : Bounded (effRs2 op y) := by
  rw [effRs2]
  split_ifs
  · exact bounded_zero rfl
  · exact hy

theorem bounded_effRs3 (op : BitVec 3) (x : FpUnpacked) (hy : Bounded y) (hz : Bounded z) :
    Bounded (effRs3 op x y z) := by
  rw [effRs3]
  split_ifs
  · exact hy
  · exact bounded_zero rfl
  · exact hz

theorem finalExp_align (pExp aExp : BitVec 14) (pSig aSig : BitVec 112) :
    (align pExp aExp pSig aSig).finalExp = 0#14 ∨ (align pExp aExp pSig aSig).finalExp = pExp ∨
      (align pExp aExp pSig aSig).finalExp = aExp := by
  rw [align]
  split_ifs <;> simp

theorem leadIndex_lt {w n i : ℕ} {x : BitVec w} (h : leadIndex x n = some i) : i < n := by
  induction n with
  | zero => cases h
  | succ n ih =>
      rw [leadIndex] at h
      split_ifs at h
      · cases h
        exact Nat.lt_succ_self _
      · exact Nat.lt_succ_of_lt (ih h)

theorem toNat_sub_le {w c i : ℕ} (hc : c < 2 ^ w) (hi : i ≤ c) :
    (BitVec.ofNat w c - BitVec.ofNat w i).toNat ≤ c := by
  rw [BitVec.toNat_sub_of_le]
  · rw [BitVec.toNat_ofNat, Nat.mod_eq_of_lt hc]
    exact Nat.sub_le _ _
  · rw [BitVec.le_def, BitVec.toNat_ofNat, BitVec.toNat_ofNat, Nat.mod_eq_of_lt hc, Nat.mod_eq_of_lt (hi.trans_lt hc)]
    exact hi

theorem toNat_lzc_le (w : BitVec 114) : (FpFma.lzc w).toNat ≤ 113 := by
  rw [FpFma.lzc]
  cases hi : leadIndex (w.extractLsb 113 1) 113 with
  | none => decide
  | some i => exact toNat_sub_le (by decide) (leadIndex_lt hi)

theorem inRange_fmaExp (op rm : BitVec 3) (hx : Bounded x) (hy : Bounded y) (hz : Bounded z) :
    InRange (fmaExp op rm x y z) := by
  have hy' := bounded_effRs2 op hy
  have hz' := bounded_effRs3 op x hy hz
  unfold Bounded at hx hy' hz'
  have hprod : (x.exp.signExtend 14 + (effRs2 op y).exp.signExtend 14).toInt = x.exp.toInt + (effRs2 op y).exp.toInt := by
    rw [toInt_add_of_bounds, toInt_signExtend_exp, toInt_signExtend_exp] <;>
      rw [toInt_signExtend_exp, toInt_signExtend_exp] <;> omega
  have hadd := toInt_signExtend_exp (effRs3 op x y z)
  have hzero : (0#14).toInt = 0 := rfl
  have hal (pSig aSig : BitVec 112) : -2100 ≤ (align (x.exp.signExtend 14 + (effRs2 op y).exp.signExtend 14)
      ((effRs3 op x y z).exp.signExtend 14) pSig aSig).finalExp.toInt ∧
      (align (x.exp.signExtend 14 + (effRs2 op y).exp.signExtend 14)
        ((effRs3 op x y z).exp.signExtend 14) pSig aSig).finalExp.toInt ≤ 2100 := by
    rcases finalExp_align (x.exp.signExtend 14 + (effRs2 op y).exp.signExtend 14)
      ((effRs3 op x y z).exp.signExtend 14) pSig aSig with h | h | h <;> rw [h] <;> omega
  have hout {e : BitVec 14} (he : -2100 ≤ e.toInt ∧ e.toInt ≤ 2100) (w : BitVec 114) :
      InRange ((e - (0#7 ++ FpFma.lzc w) + 2#14).extractLsb 12 0) := by
    have hlzc := toNat_lzc_le w
    rw [InRange, toInt_outExp he hlzc]
    omega
  exact hout (hal _ _) _

theorem toNat_lzc56_le (sig : BitVec 56) : (lzc56 sig).toNat ≤ 56 := by
  rw [lzc56]
  cases hi : leadIndex sig 56 with
  | none => decide
  | some i =>
      have hlt := leadIndex_lt hi
      exact (toNat_sub_le (by decide) (by omega)).trans (by decide)

theorem expNorm_range (hx : Bounded x) : -1078 ≤ (expNorm x).toInt ∧ (expNorm x).toInt ≤ 1023 := by
  have hlzc := toNat_lzc56_le x.sig
  have hext : (0#7 ++ lzc56 x.sig : BitVec 13).toInt = (lzc56 x.sig).toNat := toInt_zero_append _ (by decide)
  unfold Bounded at hx
  rw [expNorm, toInt_sub_of_bounds (by rw [hext]; omega) (by rw [hext]; omega), hext]
  omega

theorem sigNorm_zero (hx : x.sig.toNat = 0) : sigNorm x = 0#56 := by
  have hs : x.sig = 0#56 := BitVec.eq_of_toNat_eq hx
  rw [sigNorm, hs]
  exact BitVec.zero_shiftLeft _

theorem inRange_sqrtExp (hx : Bounded x) : InRange ((sqrtExpEven x).sshiftRight 1) := by
  have hxn := expNorm_range hx
  have hone : (1#13).toInt = 1 := rfl
  have heven : (expNorm x).toInt - 1 ≤ (sqrtExpEven x).toInt ∧ (sqrtExpEven x).toInt ≤ (expNorm x).toInt := by
    rw [sqrtExpEven]
    split_ifs
    · rw [toInt_sub_of_bounds (by rw [hone]; omega) (by rw [hone]; omega), hone]
      omega
    · omega
  rw [InRange, BitVec.toInt_sshiftRight, Int.shiftRight_eq_div_pow, pow_one]
  omega

theorem sig_ne_zero_of_divSigFull (hq : divSigFull x y ≠ 0#113) : x.sig.toNat ≠ 0 ∧ y.sig.toNat ≠ 0 := by
  constructor
  · intro h
    refine hq ?_
    rw [divSigFull, divNumerator, sigNorm_zero h]
    split_ifs <;> simp
  · intro h
    refine hq ?_
    rw [divSigFull, sigNorm_zero h]
    simp

theorem inRange_divExp (hx : Bounded x) (hy : Bounded y) :
    InRange (divExpNorm (expNorm x - expNorm y) (divSigFull x y)) := by
  have hxn := expNorm_range hx
  have hyn := expNorm_range hy
  have hdiff : (expNorm x - expNorm y).toInt = (expNorm x).toInt - (expNorm y).toInt :=
    toInt_sub_of_bounds (by omega) (by omega)
  by_cases hq : divSigFull x y = 0#113
  · rw [InRange, divExpNorm, if_pos hq]
    omega
  · obtain ⟨hsx, hsy⟩ := sig_ne_zero_of_divSigFull hq
    obtain ⟨hne, amt, hamt, hlog⟩ := log2_divSigFull hsx hsy
    rw [InRange, toInt_divExpNorm hne _ (by omega) hlog]
    omega

theorem inRange_divsqrtExp (isSqrt : Bool) (hx : Bounded x) (hy : Bounded y) : InRange (divsqrtExp isSqrt x y) := by
  cases isSqrt with
  | true => exact inRange_sqrtExp hx
  | false => exact inRange_divExp hx hy

theorem inRange_cvtExp (intToFp : Bool) (hx : Bounded x) : InRange (cvtExp intToFp x) := by
  unfold Bounded at hx
  rw [InRange, cvtExp]
  split_ifs
  · decide
  · omega

end Bounds

section Units

variable {x y z : FpUnpacked} (fmt : BitVec 2) (rm : BitVec 3)

theorem packs_fpFma (op : BitVec 3) (hx : Bounded x) (hy : Bounded y) (hz : Bounded z) :
    PacksInRange fmt rm (fmaExp op rm x y z) (fpFma op fmt rm x y z) := by
  refine ⟨inRange_fmaExp op rm hx hy hz, ?_⟩
  apply iteInduction (motive := PackedOrSpecial fmt rm (fmaExp op rm x y z))
  · exact fun _ => .inl rfl
  · intro _
    apply iteInduction (motive := PackedOrSpecial fmt rm (fmaExp op rm x y z))
    · exact fun _ => .inr (.inl ⟨_, .inl rfl⟩)
    · exact fun _ => .inr (.inr ⟨_, _, _, _, rfl⟩)

theorem packs_fpDivsqrt (isSqrt : Bool) (hx : Bounded x) (hy : Bounded y) :
    PacksInRange fmt rm (divsqrtExp isSqrt x y) (fpDivsqrt isSqrt fmt rm x y) := by
  refine ⟨inRange_divsqrtExp isSqrt hx hy, ?_⟩
  apply iteInduction (motive := PackedOrSpecial fmt rm (divsqrtExp isSqrt x y))
  · exact fun _ => .inl rfl
  · intro _
    apply iteInduction (motive := PackedOrSpecial fmt rm (divsqrtExp isSqrt x y))
    · exact fun _ => .inr (.inl ⟨_, .inl rfl⟩)
    · intro _
      apply iteInduction (motive := PackedOrSpecial fmt rm (divsqrtExp isSqrt x y))
      · exact fun _ => .inr (.inl ⟨_, .inr rfl⟩)
      · exact fun _ => .inr (.inr ⟨_, _, _, _, rfl⟩)

theorem packs_fpCvt (intData : BitVec 32) (rs2Addr : BitVec 5) (intToFp : Bool) (hx : Bounded x) :
    PacksInRange fmt rm (cvtExp intToFp x) (fpCvt x intData fmt rs2Addr rm intToFp false) := by
  refine ⟨inRange_cvtExp intToFp hx, ?_⟩
  cases intToFp with
  | true => exact .inr (.inr ⟨_, _, _, _, rfl⟩)
  | false =>
      rw [fpCvt]
      dsimp only
      cases hn : x.isNan with
      | true => exact .inl rfl
      | false =>
          cases hi : x.isInf with
          | true => exact .inr (.inl ⟨_, .inl rfl⟩)
          | false => exact .inr (.inr ⟨_, _, _, _, rfl⟩)

end Units

/-- `fp_round_pack` is the IEEE rounding of the number that sign, exponent and
significand stand for, on a range of exponents that none of the three units
that drive it ever leaves. -/
theorem round_pack_ieee (sign : Bool) (exp : BitVec 13) (sig : BitVec 56) (fmt : BitVec 2) {rm : BitVec 3} {m : Mode}
    (hm : modeOf rm = some m) (hexp : InRange exp) (nv dz : Bool) :
    let o : Outcome ℚ := ieee (formatOf fmt) m sign (signed sign ((sig.toNat : ℚ) * 2 ^ (exp.toInt - 55)))
    (read fmt (fpRoundPack sign exp sig fmt rm nv dz).1 = o.datum ∧
      (fpRoundPack sign exp sig fmt rm nv dz).2 = flags nv dz o.of o.uf o.nx) ∧
    (∀ op x y z, PacksInRange fmt rm (fmaExp op rm (fpUnpack x fmt) (fpUnpack y fmt) (fpUnpack z fmt))
      (fpFma op fmt rm (fpUnpack x fmt) (fpUnpack y fmt) (fpUnpack z fmt))) ∧
    (∀ isSqrt x y, PacksInRange fmt rm (divsqrtExp isSqrt (fpUnpack x fmt) (fpUnpack y fmt))
      (fpDivsqrt isSqrt fmt rm (fpUnpack x fmt) (fpUnpack y fmt))) ∧
    ∀ src intData rs2Addr intToFp x, PacksInRange fmt rm (cvtExp intToFp (fpUnpack x src))
      (fpCvt (fpUnpack x src) intData fmt rs2Addr rm intToFp false) := by
  obtain ⟨hread, hof, huf, hnx⟩ := packs_ieee (K := ℚ) sig fmt hm sign hexp
  refine ⟨⟨hread, ?_⟩, fun op x y z => ?_, fun isSqrt x y => ?_, fun src intData rs2Addr intToFp x => ?_⟩
  · rw [← hof, ← huf, ← hnx]
    rfl
  · exact packs_fpFma fmt rm op (bounded_fpUnpack x fmt) (bounded_fpUnpack y fmt) (bounded_fpUnpack z fmt)
  · exact packs_fpDivsqrt fmt rm isSqrt (bounded_fpUnpack x fmt) (bounded_fpUnpack y fmt)
  · exact packs_fpCvt fmt rm intData rs2Addr intToFp (bounded_fpUnpack x src)

/-- Half of the smallest subnormal single, rounded up. -/
theorem round_pack_ieee_tiny :
    (read 0b00#2 (fpRoundPack false (-150#13) (1#1 ++ 0#55) 0b00#2 rup false false).1 : Datum ℚ) =
      (ieee (formatOf 0b00#2) .up false (signed false (((1#1 ++ 0#55).toNat : ℚ) * 2 ^ ((-150#13).toInt - 55)))).datum :=
  (round_pack_ieee false (-150#13) (1#1 ++ 0#55) 0b00#2 rfl ⟨by decide, by decide⟩ false false).1.1

end VMate.PackRange
