import VMate.FpAlu
import VMate.FpDatum
import VMate.IeeeArith

namespace VMate.FmaExact

open Decode FpUnpack FpRoundPack FpFma FpAlu Rounding Ieee BitNat FpDatum

section Unpacked

variable {K : Type*} [Field K] [LinearOrder K] [IsStrictOrderedRing K] {f : Format} {u : FpUnpacked} {d : Datum K}

theorem FiniteUnpack.isZero_eq {s : Bool} {v : K} (h : FiniteUnpack f u s v) : u.isZero = decide (v = 0) := by
  have hpos := two_zpow_pos (K := K) (u.exp.toInt - 55)
  have hv : v = 0 ↔ u.sig.toNat = 0 := by
    rw [h.value, ← Nat.cast_eq_zero (R := K)]
    cases s with
    | false => exact mul_eq_zero_iff_right hpos.ne'
    | true => exact neg_eq_zero.trans (mul_eq_zero_iff_right hpos.ne')
  rw [Bool.eq_iff_iff, h.isZero, decide_eq_true_iff, hv]

/-- The class bits of an unpacked operand. -/
theorem Unpacks.classes (h : Unpacks f u d) :
    u.isZero = d.isZero ∧ u.isInf = d.isInf ∧ u.isSnan = d.isSignaling ∧ u.isQnan = (d.isNan && !d.isSignaling) ∧
      u.isNan = d.isNan := by
  cases d with
  | finite s v => exact ⟨FiniteUnpack.isZero_eq h, h.notInf, h.notSnan, h.notQnan, h.notNan⟩
  | inf s => exact ⟨h.2.2.2.2.2, h.2.1, h.2.2.2.1, h.2.2.2.2.1, h.2.2.1⟩
  | nan s => exact ⟨h.2.2.2.2, h.2.2.2.1, h.2.1, by rw [h.2.2.1]; rfl, h.1⟩

omit [LinearOrder K] [IsStrictOrderedRing K] in
theorem Unpacks.sign_eq (h : Unpacks f u d) (hd : d.isNan = false) : u.sign = d.sign := by
  cases d with
  | finite s v => exact h.sign
  | inf s => exact h.1
  | nan s => exact absurd hd.symm Bool.false_ne_true

end Unpacked

section Special

variable {K : Type*} [Field K] [LinearOrder K] [IsStrictOrderedRing K]

def infTimesZero (d d' : Datum K) : Bool := (d.isInf && d'.isZero) || (d.isZero && d'.isInf)

/-- A product and an addend, each under a sign of its own. -/
def fused (m : Mode) (negProd negAdd : Bool) (d1 d2 d3 : Datum K) : Datum K :=
  ((d1.mul d2).negIf negProd).add m (d3.negIf negAdd)

omit [IsStrictOrderedRing K] in
theorem isSignaling_of_infTimesZero {d d' : Datum K} (h : infTimesZero d d' = true) :
    d.isSignaling = false ∧ d'.isSignaling = false := by
  cases d <;> cases d' <;> simp_all [infTimesZero]

def productInf (d d' : Datum K) : Bool :=
  (d.isInf && !d'.isZero && !d'.isNan) || (d'.isInf && !d.isZero && !d.isNan)

omit [IsStrictOrderedRing K] in
/-- The class of a product from the classes of its factors. -/
theorem mul_classes (d1 d2 : Datum K) :
    match d1.mul d2 with
    | .nan invalid => invalid = (d1.isSignaling || d2.isSignaling || infTimesZero d1 d2) ∧
        (d1.isNan || d2.isNan || infTimesZero d1 d2) = true ∧ productInf d1 d2 = false
    | .inf s => d1.isNan = false ∧ d2.isNan = false ∧ infTimesZero d1 d2 = false ∧ productInf d1 d2 = true ∧
        s = (d1.sign ^^ d2.sign)
    | .finite _ _ => d1.isNan = false ∧ d2.isNan = false ∧ infTimesZero d1 d2 = false ∧ productInf d1 d2 = false := by
  cases d1 with
  | finite s x =>
      cases d2 with
      | inf t => by_cases hx : x = 0 <;> simp [hx, Datum.mul, infTimesZero, productInf]
      | _ => simp [Datum.mul, infTimesZero, productInf]
  | inf s =>
      cases d2 with
      | finite t y => by_cases hy : y = 0 <;> simp [hy, Datum.mul, infTimesZero, productInf]
      | _ => simp [Datum.mul, infTimesZero, productInf]
  | nan s => cases d2 <;> simp [Datum.mul, infTimesZero, productInf]

omit [Field K] [LinearOrder K] [IsStrictOrderedRing K] in
theorem isSignaling_le (d : Datum K) : (d.isSignaling || (d.isNan && !d.isSignaling)) = d.isNan := by
  cases d with
  | finite s v => rfl
  | inf s => rfl
  | nan s => cases s <;> rfl

omit [Field K] [LinearOrder K] [IsStrictOrderedRing K] in
theorem isSignaling_of_number {d : Datum K} (h : d.isNan = false) : d.isSignaling = false := by
  rw [← isSignaling_le, Bool.or_eq_false_iff] at h
  exact h.1

variable {f : Format} {u1 u2 u3 : FpUnpacked} {d1 d2 d3 : Datum K}

theorem special_eq (h1 : Unpacks f u1 d1) (h2 : Unpacks f u2 d2) (h3 : Unpacks f u3 d3) (pSign aSign : Bool) :
    special u1 u2 u3 pSign aSign =
      { nv := (d1.isSignaling || d2.isSignaling || d3.isSignaling) || (infTimesZero d1 d2 && !d3.isInf) ||
          (productInf d1 d2 && d3.isInf && (pSign != aSign))
        isNanRes := (d1.isNan || d2.isNan || d3.isNan) || infTimesZero d1 d2 ||
          (productInf d1 d2 && d3.isInf && (pSign != aSign))
        isInfRes := productInf d1 d2 || d3.isInf
        prodIsInf := productInf d1 d2 } := by
  obtain ⟨hz1, hi1, hs1, hq1, -⟩ := Unpacks.classes h1
  obtain ⟨hz2, hi2, hs2, hq2, -⟩ := Unpacks.classes h2
  obtain ⟨-, hi3, hs3, hq3, -⟩ := Unpacks.classes h3
  have hnan : (d1.isSignaling || d2.isSignaling || d3.isSignaling || (d1.isNan && !d1.isSignaling ||
      d2.isNan && !d2.isSignaling || d3.isNan && !d3.isSignaling)) = (d1.isNan || d2.isNan || d3.isNan) := by
    rw [← isSignaling_le d1, ← isSignaling_le d2, ← isSignaling_le d3]
    cases d1.isSignaling <;> cases d2.isSignaling <;> cases d3.isSignaling <;> simp
  simp only [special, hz1, hi1, hs1, hq1, hz2, hi2, hs2, hq2, hi3, hs3, hq3, isSignaling_le, hnan]
  rfl

/-- The special case logic of `fp_fma` against the exact result. An invalid
product is reported unless the addend is infinite. -/
theorem special_spec (h1 : Unpacks f u1 d1) (h2 : Unpacks f u2 d2) (h3 : Unpacks f u3 d3) (m : Mode)
    (negProd negAdd resSign : Bool) {sp : Special}
    (hsp : special u1 u2 u3 (u1.sign ^^ u2.sign ^^ negProd) (u3.sign ^^ negAdd) = sp) :
    match fused m negProd negAdd d1 d2 d3 with
    | .nan invalid => sp.isNanRes = true ∧ sp.nv = (invalid && !(infTimesZero d1 d2 && d3.isInf))
    | .inf s => sp.isNanRes = false ∧ sp.isInfRes = true ∧
        finalSign sp u3 (u1.sign ^^ u2.sign ^^ negProd) (u3.sign ^^ negAdd) resSign = s
    | .finite _ _ => sp.isNanRes = false ∧ sp.isInfRes = false ∧ sp.nv = false ∧
        finalSign sp u3 (u1.sign ^^ u2.sign ^^ negProd) (u3.sign ^^ negAdd) resSign = resSign := by
  have hg1 := Unpacks.sign_eq h1
  have hg2 := Unpacks.sign_eq h2
  have hg3 := Unpacks.sign_eq h3
  have hi3 := (Unpacks.classes h3).2.1
  have hprod := mul_classes d1 d2
  subst hsp
  rw [special_eq h1 h2 h3, fused]
  clear h1 h2 h3
  cases hP : d1.mul d2 with
  | finite s v =>
      rw [hP] at hprod
      obtain ⟨hn1, hn2, hitz, hpi⟩ := hprod
      have hs1 := isSignaling_of_number hn1
      have hs2 := isSignaling_of_number hn2
      rw [Datum.negIf_finite]
      cases d3 with
      | finite t w =>
          rw [Datum.negIf_finite]
          simp [finalSign, Datum.add, *]
      | inf t =>
          rw [Datum.negIf_inf, hg3 rfl, Datum.sign_inf]
          simp [finalSign, Datum.add, *]
      | nan t =>
          rw [Datum.negIf_nan]
          simp [Datum.add, *]
  | inf s =>
      rw [hP] at hprod
      obtain ⟨hn1, hn2, hitz, hpi, rfl⟩ := hprod
      have hs1 := isSignaling_of_number hn1
      have hs2 := isSignaling_of_number hn2
      rw [Datum.negIf_inf]
      cases d3 with
      | finite t w =>
          rw [Datum.negIf_finite]
          simp [finalSign, Datum.add, *]
      | inf t =>
          rw [Datum.negIf_inf]
          rw [hg1 hn1, hg2 hn2, hg3 rfl, Datum.sign_inf]
          generalize (d1.sign ^^ d2.sign ^^ negProd) = p
          generalize (t ^^ negAdd) = q
          cases p <;> cases q <;> simp [finalSign, Datum.add, *]
      | nan t =>
          rw [Datum.negIf_nan]
          simp [Datum.add, *]
  | nan invalid =>
      rw [hP] at hprod
      obtain ⟨rfl, hn, hpi⟩ := hprod
      rw [Datum.negIf_nan]
      cases hitz : infTimesZero d1 d2 with
      | false =>
          rw [hitz, Bool.or_false] at hn
          cases d3 <;> simp [Datum.negIf_finite, Datum.negIf_inf, Datum.negIf_nan, Datum.add, *]
      | true =>
          obtain ⟨hs1, hs2⟩ := isSignaling_of_infTimesZero hitz
          cases d3 <;> simp [Datum.negIf_finite, Datum.negIf_inf, Datum.negIf_nan, Datum.add, *]

end Special

section Operation

/-- The exact result of a multiply-add operation on its operands. -/
def exactFma {K : Type*} [Field K] [DecidableEq K] (op : BitVec 5) (m : Mode) (a b c : Datum K) : Datum K :=
  if op = fpAluFadd then a.add m b
  else if op = fpAluFsub then a.add m b.neg
  else if op = fpAluFmul then a.mul b
  else if op = fpAluFmadd then (a.mul b).add m c
  else if op = fpAluFmsub then (a.mul b).add m c.neg
  else if op = fpAluFnmsub then (a.mul b).neg.add m c
  else (a.mul b).neg.add m c.neg

theorem isFmaOp_cases {op : BitVec 5} (h : isFmaOp op = true) :
    op = fpAluFadd ∨ op = fpAluFsub ∨ op = fpAluFmul ∨ op = fpAluFmadd ∨ op = fpAluFmsub ∨ op = fpAluFnmsub ∨
      op = fpAluFnmadd := by
  simpa [isFmaOp, or_assoc] using h

variable {K : Type*} [Field K] [LinearOrder K] [IsStrictOrderedRing K] {f : Format} {u1 u2 u3 : FpUnpacked}
  {a b c : Datum K}

/-- The data of the operands that `fp_fma` computes with: it adds by
multiplying by one, and multiplies by adding a zero. -/
structure Effective (f : Format) (op : BitVec 5) (m : Mode) (u1 u2 u3 : FpUnpacked) (a b c : Datum K)
    (d2 d3 : Datum K) (negProd negAdd : Bool) : Prop where
  rs2 : Unpacks f (effRs2 (fmaOp op) u2) d2
  rs3 : Unpacks f (effRs3 (fmaOp op) u1 u2 u3) d3
  prodSign : prodSign (fmaOp op) u1 (effRs2 (fmaOp op) u2) = (u1.sign ^^ (effRs2 (fmaOp op) u2).sign ^^ negProd)
  addSign : addSign (fmaOp op) (effRs3 (fmaOp op) u1 u2 u3) = ((effRs3 (fmaOp op) u1 u2 u3).sign ^^ negAdd)
  exact : exactFma op m a b c = fused m negProd negAdd a d2 d3
  infTimesZero : (infTimesZero a d2 && d3.isInf) =
    (op != fpAluFadd && op != fpAluFsub && op != fpAluFmul && (infTimesZero a b && c.isInf))

theorem one_unpacks (hfb : f.fracBits ≤ 55) : Unpacks f one (.finite false (1 : K)) := by
  have hexp : one.exp.toInt = 0 := rfl
  have hsig : one.sig.toNat = 2 ^ 55 := rfl
  have hmax := f.one_le_emax
  have hmin : f.emin = 1 - f.emax := rfl
  refine ⟨rfl, rfl, rfl, rfl, rfl, ?_, by decide, by omega, by omega, fun _ => .inr hsig.ge, ?_⟩
  · rw [hexp, hsig]
    norm_num [signed]
  · rw [hsig]
    exact pow_dvd_pow 2 (by omega)

omit [LinearOrder K] [IsStrictOrderedRing K] in
theorem zero_unpacks (s : Bool) : Unpacks f { isZero := true, sign := s } (.finite s (0 : K)) := by
  have hexp : (0 : BitVec 13).toInt = 0 := rfl
  have hmax := f.one_le_emax
  have hmin : f.emin = 1 - f.emax := rfl
  refine ⟨rfl, rfl, rfl, rfl, rfl, ?_, iff_of_true rfl rfl, by rw [hexp]; omega, by rw [hexp]; omega,
    fun h => absurd rfl h, dvd_zero _⟩
  simp

omit [IsStrictOrderedRing K] in
theorem infTimesZero_one (d : Datum K) : infTimesZero d (.finite false 1) = false := by
  cases d <;> simp [infTimesZero]

theorem effective_one {op : BitVec 5} (hfb : f.fracBits ≤ 55) (h2 : Unpacks f u2 b) (m : Mode) {negAdd : Bool}
    (hrs2 : effRs2 (fmaOp op) u2 = one) (hrs3 : effRs3 (fmaOp op) u1 u2 u3 = u2)
    (hprod : prodSign (fmaOp op) u1 one = (u1.sign ^^ one.sign ^^ false))
    (hadd : addSign (fmaOp op) u2 = (u2.sign ^^ negAdd)) (hexact : exactFma op m a b c = a.add m (b.negIf negAdd))
    (hop : (op != fpAluFadd && op != fpAluFsub) = false) :
    Effective f op m u1 u2 u3 a b c (.finite false 1) b false negAdd := by
  refine ⟨?_, ?_, ?_, ?_, ?_, ?_⟩
  · rw [hrs2]
    exact one_unpacks hfb
  · rwa [hrs3]
  · rw [hrs2, hprod]
  · rw [hrs3, hadd]
  · rw [hexact, fused, Datum.mul_finite_one]
    rfl
  · rw [infTimesZero_one, hop]
    rfl

omit [IsStrictOrderedRing K] in
theorem effective_fma {op : BitVec 5} (h2 : Unpacks f u2 b) (h3 : Unpacks f u3 c) (m : Mode) {negProd negAdd : Bool}
    (hrs2 : effRs2 (fmaOp op) u2 = u2) (hrs3 : effRs3 (fmaOp op) u1 u2 u3 = u3)
    (hprod : prodSign (fmaOp op) u1 u2 = (u1.sign ^^ u2.sign ^^ negProd))
    (hadd : addSign (fmaOp op) u3 = (u3.sign ^^ negAdd)) (hexact : exactFma op m a b c = fused m negProd negAdd a b c)
    (hop : (op != fpAluFadd && op != fpAluFsub && op != fpAluFmul) = true) :
    Effective f op m u1 u2 u3 a b c b c negProd negAdd := by
  refine ⟨?_, ?_, ?_, ?_, hexact, ?_⟩
  · rwa [hrs2]
  · rwa [hrs3]
  · rw [hrs2, hprod]
  · rw [hrs3, hadd]
  · rw [hop, Bool.true_and]

theorem effective (hfb : f.fracBits ≤ 55) {op : BitVec 5} (hop : isFmaOp op = true) (h1 : Unpacks f u1 a)
    (h2 : Unpacks f u2 b) (h3 : Unpacks f u3 c) (m : Mode) :
    ∃ d2 d3 negProd negAdd, Effective f op m u1 u2 u3 a b c d2 d3 negProd negAdd := by
  rcases isFmaOp_cases hop with rfl | rfl | rfl | rfl | rfl | rfl | rfl
  · exact ⟨_, _, _, false, effective_one hfb h2 m rfl rfl (Bool.xor_false _).symm (Bool.xor_false _).symm rfl rfl⟩
  · exact ⟨_, _, _, true, effective_one hfb h2 m rfl rfl (Bool.xor_false _).symm (Bool.xor_true _).symm rfl rfl⟩
  · refine ⟨b, .finite (u1.sign ^^ u2.sign) 0, false, false, h2, zero_unpacks _, (Bool.xor_false _).symm,
      (Bool.xor_false _).symm, ?_, ?_⟩
    · refine (Datum.mul_add_zero m a b ?_).symm
      rintro t x t' y rfl rfl
      rw [h1.sign, h2.sign]
    · rw [Datum.isInf_finite, Bool.and_false]
      rfl
  · exact ⟨_, _, false, false, effective_fma h2 h3 m rfl rfl (Bool.xor_false _).symm (Bool.xor_false _).symm rfl rfl⟩
  · exact ⟨_, _, false, true, effective_fma h2 h3 m rfl rfl (Bool.xor_false _).symm (Bool.xor_true _).symm rfl rfl⟩
  · exact ⟨_, _, true, false, effective_fma h2 h3 m rfl rfl (Bool.xor_true _).symm (Bool.xor_false _).symm rfl rfl⟩
  · exact ⟨_, _, true, true, effective_fma h2 h3 m rfl rfl (Bool.xor_true _).symm (Bool.xor_true _).symm rfl rfl⟩

end Operation

section Alu

theorem fpAlu_fma {i : FpAluIn} (hop : isFmaOp i.fpAluOp = true) :
    fpAlu i = fpFma (fmaOp i.fpAluOp) i.fmt (effRm i) (fpUnpack i.rs1Data i.fmt) (fpUnpack i.rs2Data i.fmt)
      (fpUnpack i.rs3Data i.fmt) := by
  have hfmt : rs1Fmt i = i.fmt := by
    rw [rs1Fmt, if_neg]
    rintro ⟨h, -⟩
    rw [h] at hop
    exact absurd hop (by decide)
  rw [fpAlu, hfmt, if_pos hop]

/-- The exact result of the multiply-add operation that the inputs select. -/
def exactResult (i : FpAluIn) (m : Mode) : Datum ℚ :=
  exactFma i.fpAluOp m (read i.fmt i.rs1Data) (read i.fmt i.rs2Data) (read i.fmt i.rs3Data)

/-- What an exact result that is no finite number asks of the unit. -/
def SpecialCases (i : FpAluIn) (m : Mode) : Prop :=
  match exactResult i m with
  | .nan invalid => fpAlu i = (canonicalNan i.fmt, flags invalid false false false false)
  | .inf s => fpAlu i = (infinity i.fmt s, 0#5)
  | .finite _ _ => True

/-- A fused operation multiplies infinity by zero and adds an infinity. -/
def infTimesZeroPlusInf (i : FpAluIn) : Bool :=
  i.fpAluOp != fpAluFadd && i.fpAluOp != fpAluFsub && i.fpAluOp != fpAluFmul &&
    (infTimesZero (read i.fmt i.rs1Data : Datum ℚ) (read i.fmt i.rs2Data) && (read i.fmt i.rs3Data : Datum ℚ).isInf)

theorem fused_of_infTimesZero {d1 d2 d3 : Datum ℚ} (h : infTimesZero d1 d2 = true) (m : Mode) (negProd negAdd : Bool) :
    fused m negProd negAdd d1 d2 d3 = .nan true := by
  have hmul : d1.mul d2 = .nan true := by cases d1 <;> cases d2 <;> simp_all [infTimesZero, Datum.mul]
  rw [fused, hmul, Datum.negIf_nan]
  cases d3 <;> rfl

theorem fracBits_le_55 (fmt : BitVec 2) : (formatOf fmt).fracBits ≤ 55 := le_trans (fracBits_le fmt) (by omega)

/-- The special cases of the unit: an invalid product goes unreported when
the addend is infinite. -/
theorem special_result {i : FpAluIn} (hop : isFmaOp i.fpAluOp = true) (m : Mode) :
    match exactResult i m with
    | .nan invalid =>
        fpAlu i = (canonicalNan i.fmt, flags (invalid && !infTimesZeroPlusInf i) false false false false)
    | .inf s => fpAlu i = (infinity i.fmt s, 0#5)
    | .finite _ _ => True := by
  have h1 := fpUnpack_spec (K := ℚ) i.fmt i.rs1Data
  have h2 := fpUnpack_spec (K := ℚ) i.fmt i.rs2Data
  have h3 := fpUnpack_spec (K := ℚ) i.fmt i.rs3Data
  obtain ⟨d2, d3, negProd, negAdd, heff⟩ := effective (fracBits_le_55 i.fmt) hop h1 h2 h3 m
  have hspec := fun resSign => special_spec h1 heff.rs2 heff.rs3 m negProd negAdd resSign rfl
  rw [← heff.prodSign, ← heff.addSign, heff.infTimesZero] at hspec
  rw [exactResult, heff.exact, fpAlu_fma hop, fpFma]
  cases hfused : fused m negProd negAdd (read i.fmt i.rs1Data) d2 d3 with
  | finite s v => trivial
  | inf s =>
      simp only [hfused] at hspec ⊢
      rw [(hspec true).1, if_neg Bool.false_ne_true, (hspec true).2.1, if_pos rfl, (hspec _).2.2]
  | nan invalid =>
      simp only [hfused] at hspec ⊢
      rw [(hspec true).1, if_pos rfl, (hspec true).2]
      rfl

theorem exactResult_of_infTimesZeroPlusInf {i : FpAluIn} (hop : isFmaOp i.fpAluOp = true) (m : Mode)
    (h : infTimesZeroPlusInf i = true) : exactResult i m = .nan true := by
  have h1 := fpUnpack_spec (K := ℚ) i.fmt i.rs1Data
  have h2 := fpUnpack_spec (K := ℚ) i.fmt i.rs2Data
  have h3 := fpUnpack_spec (K := ℚ) i.fmt i.rs3Data
  obtain ⟨d2, d3, negProd, negAdd, heff⟩ := effective (fracBits_le_55 i.fmt) hop h1 h2 h3 m
  have hitz := heff.infTimesZero.trans h
  rw [Bool.and_eq_true] at hitz
  rw [exactResult, heff.exact, fused_of_infTimesZero hitz.1]

theorem special_cases_lost {i : FpAluIn} (hop : isFmaOp i.fpAluOp = true) (m : Mode)
    (h : infTimesZeroPlusInf i = true) : ¬ SpecialCases i m := by
  have hresult := special_result hop m
  rw [exactResult_of_infTimesZeroPlusInf hop m h, h] at hresult
  rw [SpecialCases, exactResult_of_infTimesZeroPlusInf hop m h, hresult]
  intro heq
  exact absurd (Prod.mk.inj heq).2 (by decide)

/-- The unit meets the rules for NaNs and infinities unless a fused operation
multiplies infinity by zero and adds an infinity. -/
theorem special_cases_iff (i : FpAluIn) (hop : isFmaOp i.fpAluOp = true) (m : Mode) :
    SpecialCases i m ↔ infTimesZeroPlusInf i = false := by
  constructor
  · intro h
    rw [← Bool.not_eq_true]
    exact fun hbad => special_cases_lost hop m hbad h
  · intro hbad
    have hresult := special_result hop m
    rw [hbad] at hresult
    rw [SpecialCases]
    cases hexact : exactResult i m with
    | finite s v => trivial
    | inf s => rwa [hexact] at hresult
    | nan invalid => simpa only [hexact, Bool.not_false, Bool.and_true] using hresult

/-- FMADD.D of infinity, zero and infinity. -/
def infZeroInf : FpAluIn :=
  { fpAluOp := fpAluFmadd, fmt := 0b01#2, rm := 0b000#3, fcsrRm := 0b000#3, rs1Data := 0x7FF0000000000000#64
    rs2Data := 0#64, rs3Data := 0x7FF0000000000000#64, intRs1Data := 0#32, intToFp := false, fpToInt := false
    rs2Addr := 0#5 }

theorem infTimesZeroPlusInf_infZeroInf : infTimesZeroPlusInf infZeroInf = true := by
  have hinf : (read 0b01#2 0x7FF0000000000000#64 : Datum ℚ) = .inf false := rfl
  have hzero : (read 0b01#2 0#64 : Datum ℚ) = .finite false (signed false (((0 : ℕ) : ℚ) * 2 ^ (-1074 : ℤ))) := rfl
  simp [infTimesZeroPlusInf, infZeroInf, infTimesZero, hinf, hzero, signed]
  decide

theorem special_cases_infZeroInf : ¬ SpecialCases infZeroInf .nearestEven :=
  special_cases_lost (by decide) .nearestEven infTimesZeroPlusInf_infZeroInf

theorem special_cases_iff_infZeroInf :
    isFmaOp infZeroInf.fpAluOp = true ∧
      (SpecialCases infZeroInf .nearestEven ↔ infTimesZeroPlusInf infZeroInf = false) :=
  ⟨by decide, special_cases_iff infZeroInf (by decide) .nearestEven⟩

end Alu

end VMate.FmaExact
