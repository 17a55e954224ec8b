import VMate.DmemBytes
import VMate.FmaFinite
import VMate.FpDiv
import VMate.FpSqrt
import VMate.FpToInt
import VMate.IsaFp

namespace VMate.IsaFpUnit

open Decode FpUnpack FpRoundPack FpFma FpCmp FpAlu Rounding Ieee FpDatum FpOrder FpResult IsaFp

section Formats

variable (fmt : Fmt) (x : BitVec 64)

theorem formatOf_code : formatOf fmt.code = fmt.format := by cases fmt <;> rfl

theorem canonicalNan_code : canonicalNan fmt.code = fmt.canonicalNan := by cases fmt <;> rfl

theorem effIn_single : effIn x 0b00#2 = if x.extractLsb 63 32 = 0xFFFFFFFF#32 then x else canonicalNan32 := by
  simp [effIn, isBoxed]

theorem unboxed_effIn : unboxed x = (effIn x 0b00#2).extractLsb 31 0 := by
  rw [effIn_single, unboxed]
  split_ifs
  · rfl
  · rfl

/-- Registers are read in the same way. -/
theorem read_code : (read fmt.code x : Datum ℚ) = fmt.value x := by
  cases fmt with
  | double => rfl
  | single =>
      rw [Fmt.value, unboxed]
      by_cases hb : x.extractLsb 63 32 = 0xFFFFFFFF#32
      · have hsign : (x.extractLsb 31 0).getLsbD 31 = x.getLsbD 31 := by simp
        have hexp : (x.extractLsb 31 0).extractLsb 30 23 = x.extractLsb 30 23 := by
          apply BitVec.eq_of_getLsbD_eq
          intro n hn
          simp only [BitVec.getLsbD_extractLsb]
          grind
        have hfrac : (x.extractLsb 31 0).extractLsb 22 0 = x.extractLsb 22 0 := by
          apply BitVec.eq_of_getLsbD_eq
          intro n hn
          simp only [BitVec.getLsbD_extractLsb]
          grind
        rw [if_pos hb, hsign, hexp, hfrac]
        exact (if_pos rfl).trans (if_pos hb)
      · rw [if_neg hb]
        exact (if_pos rfl).trans (if_neg hb)

theorem modeOf_eq (rm : BitVec 3) : modeOf rm = modeTable.find rm := by
  revert rm
  decide

end Formats

section Results

variable {fmt : Fmt} {mode : Mode} {r : Result} {d d' : Datum ℚ}

theorem delivered_of {o : Outcome ℚ} (h : Delivers fmt.code r o) : Delivered fmt o r := by
  rw [Delivers, read_code] at h
  exact h

theorem rounded_of_returns (h : Returns fmt.code mode r d) : Rounded fmt mode false d r := by
  cases d with
  | finite s v =>
      rw [Returns, formatOf_code] at h
      exact delivered_of h
  | inf s =>
      rw [Returns] at h
      rw [h]
      exact ⟨(read_code _ _).symm.trans (read_infinity _ _), rfl⟩
  | nan invalid =>
      rw [Returns, canonicalNan_code] at h
      exact h

theorem rounded_of_div (h : FpDiv.DivReturns fmt.code mode r d d') :
    Rounded fmt mode (d.divByZero d') (d.div d') r := by
  rw [FpDiv.DivReturns] at h
  cases hd : d.div d' with
  | finite s v =>
      rw [hd, formatOf_code] at h
      exact delivered_of h
  | inf s =>
      rw [hd] at h
      rw [h]
      exact ⟨(read_code _ _).symm.trans (read_infinity _ _), rfl⟩
  | nan invalid =>
      rw [hd, canonicalNan_code] at h
      exact h

theorem rootOf_returns {x : BitVec 64} (hx : fmt.value x = d) (h : FpSqrt.SqrtReturns fmt.code mode x r d) :
    RootOf fmt mode d r := by
  cases d with
  | finite s v =>
      rw [FpSqrt.SqrtReturns, canonicalNan_code, formatOf_code] at h
      rw [RootOf]
      split_ifs at h ⊢ with h0 hneg
      · rw [h, hx, h0]
        exact ⟨rfl, rfl⟩
      · exact h
      · exact delivered_of h
  | inf s =>
      rw [FpSqrt.SqrtReturns, canonicalNan_code] at h
      rw [RootOf, h]
      cases s with
      | false => exact ⟨hx, rfl⟩
      | true => rfl
  | nan signaling =>
      rw [FpSqrt.SqrtReturns, canonicalNan_code] at h
      exact h

end Results

section Fused

variable {i : FpAluIn} {m : Mode}

/-- A finite exact result goes through the aligner and the adder. -/
theorem fma_number (hop : isFmaOp i.fpAluOp = true) (hm : modeOf (effRm i) = some m) {s : Bool} {v : ℚ}
    (hexact : FmaExact.exactResult i m = .finite s v) : Delivers i.fmt (fpAlu i) (ieee (formatOf i.fmt) m s v) := by
  have h1 := fpUnpack_spec (K := ℚ) i.fmt i.rs1Data
  have h2 := fpUnpack_spec (K := ℚ) i.fmt i.rs2Data
  have h3 := fpUnpack_spec (K := ℚ) i.fmt i.rs3Data
  obtain ⟨d2, d3, negProd, negAdd, heff⟩ := FmaExact.effective (FmaExact.fracBits_le_55 i.fmt) hop h1 h2 h3 m
  have hrs2 := heff.rs2
  have hrs3 := heff.rs3
  rw [FmaExact.exactResult, heff.exact] at hexact
  obtain ⟨s1, x, s2, y, s3, z, ha, rfl, rfl⟩ := FmaFinite.finite_of_fused hexact
  rw [ha] at h1 hexact
  have hsp := fun resSign => FmaExact.special_spec h1 hrs2 hrs3 m negProd negAdd resSign rfl
  simp only [hexact] at hsp
  rw [FmaFinite.fused_finite] at hexact
  cases hexact
  rw [FmaExact.fpAlu_fma hop, fpFma, heff.prodSign, heff.addSign]
  simp only [(hsp true).1, (hsp true).2.1, (hsp true).2.2.1, (hsp _).2.2.2, Bool.false_eq_true, if_false]
  refine FmaFinite.fma_finite hm h1 hrs2 hrs3 negProd negAdd rfl ?_
  rw [h1.sign, hrs2.sign, hrs3.sign]

/-- The exact result of a multiply-add operation, rounded or put in its place. -/
theorem fma_returns (hop : isFmaOp i.fpAluOp = true) (hm : modeOf (effRm i) = some m)
    (hspare : FmaExact.infTimesZeroPlusInf i = false) : Returns i.fmt m (fpAlu i) (FmaExact.exactResult i m) := by
  have hresult := FmaExact.special_result hop m
  cases hexact : FmaExact.exactResult i m with
  | finite s v => exact fma_number hop hm hexact
  | inf s => rwa [hexact] at hresult
  | nan invalid =>
      simp only [hexact, hspare, Bool.not_false, Bool.and_true] at hresult
      exact hresult

end Fused

section Unit

/-- How an operation controls the FP unit. -/
structure UnitOp where
  fpAluOp : BitVec 5
  fmt : BitVec 2
  rm : BitVec 3
  intToFp : Bool := false
  fpToInt : Bool := false
  fpFflagsWe : Bool := true

def fusedAluOp : FusedOp → BitVec 5
  | .madd => fpAluFmadd
  | .msub => fpAluFmsub
  | .nmsub => fpAluFnmsub
  | .nmadd => fpAluFnmadd

def arithAluOp : ArithOp → BitVec 5
  | .add => fpAluFadd
  | .sub => fpAluFsub
  | .mul => fpAluFmul
  | .div => fpAluFdiv

def unitOp : FpOp → UnitOp
  | .fused op fmt rm _ _ _ _ => { fpAluOp := fusedAluOp op, fmt := fmt.code, rm }
  | .arith op fmt rm _ _ _ => { fpAluOp := arithAluOp op, fmt := fmt.code, rm }
  | .sqrt fmt rm _ _ => { fpAluOp := fpAluFsqrt, fmt := fmt.code, rm }
  | .sign op fmt _ _ _ => { fpAluOp := fpAluFsgnj, fmt := fmt.code, rm := op.code, fpFflagsWe := false }
  | .pick op fmt _ _ _ => { fpAluOp := fpAluFmin, fmt := fmt.code, rm := op.code }
  | .convert fmt rm _ _ => { fpAluOp := fpAluFcvt, fmt := fmt.code, rm }
  | .compare op fmt _ _ _ => { fpAluOp := fpAluFcmp, fmt := fmt.code, rm := op.code, fpToInt := true }
  | .toInt _ fmt rm _ _ => { fpAluOp := fpAluFcvt, fmt := fmt.code, rm, fpToInt := true }
  | .ofInt _ fmt rm _ _ => { fpAluOp := fpAluFcvt, fmt := fmt.code, rm, intToFp := true }
  | .classify fmt _ _ =>
      { fpAluOp := fpAluFclass, fmt := fmt.code, rm := 0b001#3, fpToInt := true, fpFflagsWe := false }
  | .moveToInt _ _ => { fpAluOp := fpAluFmv, fmt := 0b00#2, rm := 0b000#3, fpToInt := true, fpFflagsWe := false }
  | .moveOfInt _ _ => { fpAluOp := fpAluFmv, fmt := 0b00#2, rm := 0b000#3, intToFp := true, fpFflagsWe := false }

variable {σ : Type} {n : Nat}

/-- What the unit is given for an operation. -/
def unitIn (o : FpOp) (m : FpMachine σ n) (fcsrRm : BitVec 3) : FpAluIn :=
  { fpAluOp := (unitOp o).fpAluOp, fmt := (unitOp o).fmt, rm := (unitOp o).rm, fcsrRm
    rs1Data := m.fregs o.fields.rs1, rs2Data := m.fregs o.fields.rs2
    rs3Data := m.fregs (o.fields.funct7.extractLsb 6 2), intRs1Data := m.reg o.fields.rs1
    intToFp := (unitOp o).intToFp, fpToInt := (unitOp o).fpToInt, rs2Addr := o.fields.rs2 }

/-- The operations that the unit gets wrong: infinity times zero and an
infinity added raises no flag. -/
def Unreported (o : FpOp) (m : FpMachine σ n) : Prop :=
  match o with
  | .fused _ fmt _ _ rs1 rs2 rs3 =>
      FmaExact.infTimesZero (fmt.value (m.fregs rs1)) (fmt.value (m.fregs rs2)) = true ∧
        (fmt.value (m.fregs rs3)).isInf = true
  | _ => False

variable (m : FpMachine σ n) (frm : BitVec 3) {o : FpOp} {mode : Mode}

theorem mode_effRm {rm : BitVec 3} (hrm : o.rm = some rm) (hunit : (unitOp o).rm = rm) (h : o.mode frm = some mode) :
    modeOf (effRm (unitIn o m frm)) = some mode := by
  rw [FpOp.mode, hrm] at h
  rw [modeOf_eq, effRm, unitIn, hunit]
  exact h

section Fma

variable {m frm} {op : FusedOp} {fmt : Fmt} {rm : BitVec 3} {rd rs1 rs2 rs3 : BitVec 5}

theorem isFmaOp_fused : isFmaOp (fusedAluOp op) = true := by cases op <;> rfl

theorem rs3Data_fused : (unitIn (.fused op fmt rm rd rs1 rs2 rs3) m frm).rs3Data = m.fregs rs3 :=
  congrArg m.fregs (Isa.order_hi rs3 fmt.code)

theorem exactResult_fused : FmaExact.exactResult (unitIn (.fused op fmt rm rd rs1 rs2 rs3) m frm) mode =
    exactFused mode op (fmt.value (m.fregs rs1)) (fmt.value (m.fregs rs2)) (fmt.value (m.fregs rs3)) := by
  rw [FmaExact.exactResult, rs3Data_fused, ← read_code, ← read_code, ← read_code]
  cases op <;> rfl

theorem unreported_fused : FmaExact.infTimesZeroPlusInf (unitIn (.fused op fmt rm rd rs1 rs2 rs3) m frm) = true ↔
    Unreported (.fused op fmt rm rd rs1 rs2 rs3) m := by
  have hinf : FmaExact.infTimesZeroPlusInf (unitIn (.fused op fmt rm rd rs1 rs2 rs3) m frm) =
      (FmaExact.infTimesZero (fmt.value (m.fregs rs1)) (fmt.value (m.fregs rs2)) &&
        (fmt.value (m.fregs rs3)).isInf) := by
    rw [FmaExact.infTimesZeroPlusInf, rs3Data_fused, ← read_code, ← read_code, ← read_code]
    cases op <;> rfl
  rw [hinf, Bool.and_eq_true]
  rfl

end Fma

theorem computes_fused {op : FusedOp} {fmt : Fmt} {rm : BitVec 3} {rd rs1 rs2 rs3 : BitVec 5}
    (h : (FpOp.fused op fmt rm rd rs1 rs2 rs3).mode frm = some mode)
    (hspare : ¬ Unreported (.fused op fmt rm rd rs1 rs2 rs3) m) :
    (FpOp.fused op fmt rm rd rs1 rs2 rs3).Computes mode m (fpAlu (unitIn (.fused op fmt rm rd rs1 rs2 rs3) m frm)) := by
  have hm := mode_effRm m frm rfl rfl h
  have hret := fma_returns isFmaOp_fused hm (Bool.eq_false_iff.mpr fun hinf => hspare (unreported_fused.mp hinf))
  rw [exactResult_fused] at hret
  exact rounded_of_returns hret

theorem fpAlu_unreported {op : FusedOp} {fmt : Fmt} {rm : BitVec 3} {rd rs1 rs2 rs3 : BitVec 5}
    (hu : Unreported (.fused op fmt rm rd rs1 rs2 rs3) m) :
    fpAlu (unitIn (.fused op fmt rm rd rs1 rs2 rs3) m frm) = (fmt.canonicalNan, 0#5) := by
  have hop : isFmaOp (unitIn (.fused op fmt rm rd rs1 rs2 rs3) m frm).fpAluOp = true := isFmaOp_fused
  have hinf : FmaExact.infTimesZeroPlusInf (unitIn (.fused op fmt rm rd rs1 rs2 rs3) m frm) = true :=
    unreported_fused.mpr hu
  have hresult := FmaExact.special_result hop .nearestEven
  rw [FmaExact.exactResult_of_infTimesZeroPlusInf hop .nearestEven hinf, hinf] at hresult
  rw [← canonicalNan_code]
  exact hresult

theorem unit_unreported_flags (hu : Unreported o m) : (fpAlu (unitIn o m frm)).2 = 0#5 := by
  cases o with
  | fused => rw [fpAlu_unreported m frm hu]
  | _ => exact hu.elim

/-- An unreported operation has the right result, but not the flag. -/
theorem unit_unreported (mode : Mode) (hu : Unreported o m) (r : Result) :
    o.Computes mode m r ↔ r = ((fpAlu (unitIn o m frm)).1, raised true false false false false) := by
  cases o with
  | fused op fmt rm rd rs1 rs2 rs3 =>
      have hop : isFmaOp (unitIn (.fused op fmt rm rd rs1 rs2 rs3) m frm).fpAluOp = true := isFmaOp_fused
      have hexact := FmaExact.exactResult_of_infTimesZeroPlusInf hop mode (unreported_fused.mpr hu)
      rw [exactResult_fused] at hexact
      rw [FpOp.Computes, hexact, fpAlu_unreported m frm hu]
      exact Iff.rfl
  | _ => exact hu.elim

/-- Sums and products go through the multiply-add unit. -/
theorem computes_ring {op : ArithOp} {fmt : Fmt} {rm : BitVec 3} {rd rs1 rs2 : BitVec 5} (hop : op ≠ .div)
    (h : (FpOp.arith op fmt rm rd rs1 rs2).mode frm = some mode) :
    (FpOp.arith op fmt rm rd rs1 rs2).Computes mode m (fpAlu (unitIn (.arith op fmt rm rd rs1 rs2) m frm)) := by
  have hm := mode_effRm m frm rfl rfl h
  have hfma : isFmaOp (arithAluOp op) = true := by cases op <;> first | rfl | exact absurd rfl hop
  have hexact : FmaExact.exactResult (unitIn (.arith op fmt rm rd rs1 rs2) m frm) mode =
      exactArith mode op (fmt.value (m.fregs rs1)) (fmt.value (m.fregs rs2)) := by
    rw [FmaExact.exactResult, ← read_code, ← read_code]
    cases op <;> first | rfl | exact absurd rfl hop
  have hreported : FmaExact.infTimesZeroPlusInf (unitIn (.arith op fmt rm rd rs1 rs2) m frm) = false := by
    cases op <;> first | rfl | exact absurd rfl hop
  have hret := fma_returns hfma hm hreported
  rw [hexact] at hret
  rw [FpOp.Computes, decide_eq_false hop]
  exact rounded_of_returns hret

theorem computes_arith {op : ArithOp} {fmt : Fmt} {rm : BitVec 3} {rd rs1 rs2 : BitVec 5}
    (h : (FpOp.arith op fmt rm rd rs1 rs2).mode frm = some mode) :
    (FpOp.arith op fmt rm rd rs1 rs2).Computes mode m (fpAlu (unitIn (.arith op fmt rm rd rs1 rs2) m frm)) := by
  cases op with
  | div =>
      have hm := mode_effRm m frm rfl rfl h
      have hdiv := FpDiv.fpDivsqrt_div hm (fpUnpack_spec (K := ℚ) fmt.code (m.fregs rs1))
        (fpUnpack_spec (K := ℚ) fmt.code (m.fregs rs2))
      rw [read_code, read_code] at hdiv
      have halu := FpDiv.fpAlu_fdiv (i := unitIn (.arith .div fmt rm rd rs1 rs2) m frm) rfl
      rw [FpOp.Computes, halu]
      exact rounded_of_div hdiv
  | _ => exact computes_ring m frm (by decide) h

theorem computes_sqrt {fmt : Fmt} {rm : BitVec 3} {rd rs1 : BitVec 5}
    (h : (FpOp.sqrt fmt rm rd rs1).mode frm = some mode) :
    (FpOp.sqrt fmt rm rd rs1).Computes mode m (fpAlu (unitIn (.sqrt fmt rm rd rs1) m frm)) := by
  have hm := mode_effRm m frm rfl rfl h
  have halu := FpSqrt.fpAlu_fsqrt (i := unitIn (.sqrt fmt rm rd rs1) m frm) rfl
  have hroot : FpSqrt.SqrtReturns fmt.code mode (m.fregs rs1) (fpAlu (unitIn (.sqrt fmt rm rd rs1) m frm))
      (read fmt.code (m.fregs rs1) : Datum ℚ) := by
    rw [halu]
    exact FpSqrt.fpDivsqrt_sqrt hm _
  rw [read_code] at hroot
  exact rootOf_returns rfl hroot

theorem computes_sign {op : SignOp} {fmt : Fmt} {rd rs1 rs2 : BitVec 5} :
    (FpOp.sign op fmt rd rs1 rs2).Computes mode m (fpAlu (unitIn (.sign op fmt rd rs1 rs2) m frm)) := by
  have halu : fpAlu (unitIn (.sign op fmt rd rs1 rs2) m frm) =
      (fpSgnj (m.fregs rs1) (m.fregs rs2) fmt.code op.code, 0#5) := by cases op <;> rfl
  rw [FpOp.Computes, halu]
  cases fmt with
  | single =>
      have hsign (x : BitVec 64) : (unboxed x).getLsbD 31 = (effIn x 0b00#2).getLsbD 31 := by
        rw [unboxed_effIn]
        simp
      have hlow (x : BitVec 64) : (unboxed x).extractLsb 30 0 = (effIn x 0b00#2).extractLsb 30 0 := by
        rw [unboxed_effIn]
        apply BitVec.eq_of_getLsbD_eq
        intro k hk
        simp only [BitVec.getLsbD_extractLsb]
        grind
      rw [injectSign, hsign, hsign, hlow]
      cases op <;> rfl
  | double => cases op <;> rfl

theorem computes_pick {op : PickOp} {fmt : Fmt} {rd rs1 rs2 : BitVec 5} :
    (FpOp.pick op fmt rd rs1 rs2).Computes mode m (fpAlu (unitIn (.pick op fmt rd rs1 rs2) m frm)) := by
  have hsel := selectsAs_of (i := unitIn (.pick op fmt rd rs1 rs2) m frm) rfl
  have hresult := hsel.result
  have hflags := hsel.flags
  have hbetter : (fun d d' : Datum ℚ => if effRm (unitIn (.pick op fmt rd rs1 rs2) m frm) = 0b000#3 then d.Below d'
      else d'.Below d) = better op := by
    funext d d'
    cases op <;> rfl
  rw [hbetter] at hresult
  change Selects (better op) fmt.code (m.fregs rs1) (m.fregs rs2) _ at hresult
  rw [Selects, read_code, read_code, canonicalNan_code] at hresult
  refine ⟨fun hx hy => ?_, fun hx hy => ?_, fun hx hy => ?_, fun hx hy => ?_, ?_⟩
  · rwa [hx, hy] at hresult
  · rwa [hx, hy] at hresult
  · rwa [hx, hy] at hresult
  · rwa [hx, hy] at hresult
  · rw [← read_code, ← read_code]
    exact hflags

theorem computes_convert {fmt : Fmt} {rm : BitVec 3} {rd rs1 : BitVec 5}
    (h : (FpOp.convert fmt rm rd rs1).mode frm = some mode) :
    (FpOp.convert fmt rm rd rs1).Computes mode m (fpAlu (unitIn (.convert fmt rm rd rs1) m frm)) := by
  have hm := mode_effRm m frm rfl rfl h
  have hret := FpConvert.fp_to_fp (K := ℚ) (i := unitIn (.convert fmt rm rd rs1) m frm) rfl rfl rfl hm
  have hsource : rs1Fmt (unitIn (.convert fmt rm rd rs1) m frm) = fmt.other.code := by cases fmt <;> rfl
  rw [hsource] at hret
  change Returns fmt.code mode _ (read fmt.other.code (m.fregs rs1) : Datum ℚ) at hret
  rw [read_code] at hret
  exact rounded_of_returns hret

theorem computes_compare {op : CmpOp} {fmt : Fmt} {rd rs1 rs2 : BitVec 5} :
    (FpOp.compare op fmt rd rs1 rs2).Computes mode m (fpAlu (unitIn (.compare op fmt rd rs1 rs2) m frm)) := by
  obtain ⟨heq, hlt⟩ := order_value fmt.code (m.fregs rs1) (m.fregs rs2)
  have hcmp : ComparesAs (unitIn (.compare op fmt rd rs1 rs2) m frm) (related op) (unordered op) := by
    refine comparesAs_of rfl (c := FpCmp.compare (m.fregs rs1) (m.fregs rs2) fmt.code op.code
      (fpUnpack (m.fregs rs1) fmt.code) (fpUnpack (m.fregs rs2) fmt.code)) ?_ ?_ ?_
    · cases op <;> rfl
    · cases op with
      | le => exact Bool.or_eq_true_iff.trans ((or_congr hlt heq).trans compares_le.symm)
      | lt => exact hlt
      | eq => exact heq
    · have hnan (x : BitVec 64) := isNan_eq (K := ℚ) fmt.code x
      have hsnan (x : BitVec 64) := isSnan_eq (K := ℚ) fmt.code x
      cases op with
      | le => exact congrArg₂ or (hnan _) (hnan _)
      | lt => exact congrArg₂ or (hnan _) (hnan _)
      | eq => exact congrArg₂ or (hsnan _) (hsnan _)
  obtain ⟨hresult, hflags⟩ := hcmp
  change Truth (Compares (related op) (read fmt.code (m.fregs rs1)) (read fmt.code (m.fregs rs2))) _ at hresult
  rw [read_code, read_code] at hresult
  refine ⟨fun hp => ?_, fun hp => ?_, ?_⟩
  · exact hresult.elim And.right fun h => absurd hp h.1
  · exact hresult.elim (fun h => absurd h.1 hp) And.right
  · rw [← read_code, ← read_code]
    exact hflags

theorem unsignedCode_low (isUnsigned : Bool) : (unsignedCode isUnsigned).getLsbD 0 = isUnsigned := by
  cases isUnsigned <;> decide

theorem nearestInt_eq (isUnsigned : Bool) (d : Datum ℚ) {o : FpToInt.IntOutcome}
    (h : FpToInt.toInteger isUnsigned mode d = o) :
    nearestInt mode isUnsigned d = (o.value, raised o.nv false false false o.nx) := by
  subst h
  cases d with
  | finite s x =>
      rw [FpToInt.toInteger, FpToInt.saturate, nearestInt]
      change (if roundInt mode x < FpToInt.lowest isUnsigned then _ else if FpToInt.highest isUnsigned < roundInt mode x
        then _ else _) = _
      split_ifs <;> rfl
  | inf s => rfl
  | nan s => rfl

theorem fpCvt_toInt {u : FpUnpacked} {rm : BitVec 3} {rs2Addr : BitVec 5} {o : FpToInt.IntOutcome}
    (h : FpToInt.Converts u rm (rs2Addr.getLsbD 0) o) (intData : BitVec 32) (fmt : BitVec 2) (intToFp : Bool) :
    FpCvt.fpCvt u intData fmt rs2Addr rm intToFp true =
      ((BitVec.ofInt 32 o.value).setWidth 64, flags o.nv false false false o.nx) := by
  obtain ⟨hint, hnx⟩ := h
  rw [FpCvt.fpCvt, if_pos rfl, hint, ← hnx]

theorem computes_toInt {isUnsigned : Bool} {fmt : Fmt} {rm : BitVec 3} {rd rs1 : BitVec 5}
    (h : (FpOp.toInt isUnsigned fmt rm rd rs1).mode frm = some mode) :
    (FpOp.toInt isUnsigned fmt rm rd rs1).Computes mode m
      (fpAlu (unitIn (.toInt isUnsigned fmt rm rd rs1) m frm)) := by
  have hm := mode_effRm m frm rfl rfl h
  have hconv := FpToInt.converts hm fmt.code (m.fregs rs1) isUnsigned
  rw [read_code] at hconv
  generalize ho : FpToInt.toInteger isUnsigned mode (fmt.value (m.fregs rs1)) = o at hconv
  have hsource : rs1Fmt (unitIn (.toInt isUnsigned fmt rm rd rs1) m frm) = fmt.code := by cases fmt <;> rfl
  have halu : fpAlu (unitIn (.toInt isUnsigned fmt rm rd rs1) m frm) =
      ((BitVec.ofInt 32 o.value).setWidth 64, flags o.nv false false false o.nx) := by
    rw [FpConvert.fpAlu_fcvt rfl, hsource]
    exact fpCvt_toInt ((unsignedCode_low isUnsigned).symm ▸ hconv) _ _ _
  rw [FpOp.Computes, nearestInt_eq isUnsigned _ ho, halu]
  exact congrArg (fun x => (x, _)) ((DmemBytes.low_setWidth _).trans (BitVec.setWidth_eq _))

theorem computes_ofInt {isUnsigned : Bool} {fmt : Fmt} {rm : BitVec 3} {rd rs1 : BitVec 5}
    (h : (FpOp.ofInt isUnsigned fmt rm rd rs1).mode frm = some mode) :
    (FpOp.ofInt isUnsigned fmt rm rd rs1).Computes mode m
      (fpAlu (unitIn (.ofInt isUnsigned fmt rm rd rs1) m frm)) := by
  have hm := mode_effRm m frm rfl rfl h
  have hret := FpConvert.int_to_fp (K := ℚ) (i := unitIn (.ofInt isUnsigned fmt rm rd rs1) m frm) rfl rfl rfl hm
  have hvalue : FpConvert.intOperand (unitIn (.ofInt isUnsigned fmt rm rd rs1) m frm) =
      intValue isUnsigned (m.reg rs1) :=
    congrArg (fun b : Bool => if b then ((m.reg rs1).toNat : ℤ) else (m.reg rs1).toInt) (unsignedCode_low isUnsigned)
  rw [hvalue] at hret
  change Delivers fmt.code _ (ieee (formatOf fmt.code) mode false _) at hret
  rw [formatOf_code] at hret
  exact delivered_of hret

theorem computes_move {rd rs1 : BitVec 5} :
    (FpOp.moveToInt rd rs1).Computes mode m (fpAlu (unitIn (.moveToInt rd rs1) m frm)) ∧
      (FpOp.moveOfInt rd rs1).Computes mode m (fpAlu (unitIn (.moveOfInt rd rs1) m frm)) :=
  ⟨congrArg (fun x => (x, 0#5)) BitVec.extractLsb'_append_eq_right, rfl⟩

/-- The subnormal numbers are those with a zero exponent field. -/
theorem ofFields_small {f : Format} {neg s : Bool} {e frac : ℕ} {v : ℚ} (hf : frac < 2 ^ f.fracBits)
    (hv : (f.ofFields neg e frac : Datum ℚ) = .finite s v) : |v| < 2 ^ f.emin ↔ e = 0 := by
  have he : e ≠ 2 ^ f.expBits - 1 := by
    rintro rfl
    rw [Format.ofFields, if_pos rfl] at hv
    split_ifs at hv
  rw [ofFields_finite he] at hv
  obtain ⟨-, hv⟩ := Datum.finite.inj hv
  have habs : |v| = (f.units e frac : ℚ) * 2 ^ (f.emin - f.fracBits) := by
    rw [← hv, cast_signed, Int.cast_natCast, abs_mul, abs_signed, Nat.abs_cast, abs_of_pos (two_zpow_pos _)]
  rw [habs, binade_low f.emin f.fracBits, mul_lt_mul_iff_left₀ (two_zpow_pos _), Nat.cast_lt]
  constructor
  · intro hlt
    by_contra h0
    have hle : 2 ^ f.fracBits * 2 ^ (e - 1) ≤ f.units e frac := Format.le_units h0
    exact absurd hlt (not_lt.mpr (le_trans (Nat.le_mul_of_pos_right _ (Nat.two_pow_pos _)) hle))
  · rintro rfl
    exact hf

theorem subnormal_eq {fmt : Fmt} {x : BitVec 64} {s : Bool} {v : ℚ} (hv : fmt.value x = .finite s v) :
    (if fmt.code = 0b00#2 then x.extractLsb 30 23 == 0#8 else x.extractLsb 62 52 == 0#11) =
      decide (|v| < 2 ^ fmt.format.emin) := by
  rw [Bool.eq_iff_iff, decide_eq_true_iff]
  cases fmt with
  | single =>
      by_cases hb : x.extractLsb 63 32 = 0xFFFFFFFF#32
      · have hexp : (unboxed x).extractLsb 30 23 = x.extractLsb 30 23 := by
          rw [unboxed, if_pos hb]
          apply BitVec.eq_of_getLsbD_eq
          intro n hn
          simp only [BitVec.getLsbD_extractLsb]
          grind
        rw [Fmt.value, hexp] at hv
        exact Iff.trans (beq_iff_eq.trans BitVec.toNat_inj.symm) (ofFields_small (BitVec.isLt _) hv).symm
      · rw [Fmt.value, unboxed, if_neg hb] at hv
        cases hv
  | double => exact Iff.trans (beq_iff_eq.trans BitVec.toNat_inj.symm) (ofFields_small (BitVec.isLt _) hv).symm

theorem computes_classify {fmt : Fmt} {rd rs1 : BitVec 5} :
    (FpOp.classify fmt rd rs1).Computes mode m (fpAlu (unitIn (.classify fmt rd rs1) m frm)) := by
  have hunpack := fpUnpack_spec (K := ℚ) fmt.code (m.fregs rs1)
  rw [read_code] at hunpack
  have halu : fpAlu (unitIn (.classify fmt rd rs1) m frm) =
      ((fclassMask (unitIn (.classify fmt rd rs1) m frm)).setWidth 64, 0#5) := rfl
  have hsource : rs1Fmt (unitIn (.classify fmt rd rs1) m frm) = fmt.code := by cases fmt <;> rfl
  have hx : (unitIn (.classify fmt rd rs1) m frm).rs1Data = m.fregs rs1 := rfl
  have hfmt : (unitIn (.classify fmt rd rs1) m frm).fmt = fmt.code := rfl
  obtain ⟨hz, hi, hs, -, hn⟩ := FmaExact.Unpacks.classes hunpack
  rw [FpOp.Computes, halu, fclassMask, hsource, hx, hfmt]
  cases hd : fmt.value (m.fregs rs1) with
  | nan signaling =>
      rw [hd] at hn hs
      rw [hn, hs]
      cases signaling <;> rfl
  | inf s =>
      rw [hd] at hn hi hunpack
      rw [hn, hi, hunpack.1]
      cases s <;> rfl
  | finite s v =>
      rw [subnormal_eq hd]
      rw [hd] at hn hi hz hunpack
      rw [hn, hi, hz, hunpack.sign, classBit]
      by_cases h0 : v = 0
      · cases s <;> simp [h0]
      · by_cases hsmall : |v| < 2 ^ fmt.format.emin
        · cases s <;> simp [h0, hsmall]
        · cases s <;> simp [h0, hsmall]

/-- The FP unit computes what the instruction set says. -/
theorem unit_computes (h : o.mode frm = some mode) (hspare : ¬ Unreported o m) :
    o.Computes mode m (fpAlu (unitIn o m frm)) := by
  cases o with
  | fused => exact computes_fused m frm h hspare
  | arith => exact computes_arith m frm h
  | sqrt => exact computes_sqrt m frm h
  | sign => exact computes_sign m frm
  | pick => exact computes_pick m frm
  | convert => exact computes_convert m frm h
  | compare => exact computes_compare m frm
  | toInt => exact computes_toInt m frm h
  | ofInt => exact computes_ofInt m frm h
  | classify => exact computes_classify m frm
  | moveToInt => exact (computes_move m frm).1
  | moveOfInt => exact (computes_move m frm).2

end Unit

end VMate.IsaFpUnit
