import VMate.Pipe

namespace VMate.NanBox

open Decode FpUnpack FpRoundPack FpFma FpDivSqrt FpCmp FpCvt FpAlu Pipe

theorem isBoxed_iff {x : BitVec 64} : isBoxed x = true ↔ ∀ i, 32 ≤ i → i < 64 → x.getLsbD i = true := by
  have hall : (0xFFFFFFFF#32) = BitVec.allOnes 32 := by decide
  rw [isBoxed, beq_iff_eq, hall]
  constructor
  · intro h i hi hi'
    have hbit := congrArg (BitVec.getLsbD · (i - 32)) h
    simp only [BitVec.getLsbD_extractLsb, BitVec.getLsbD_allOnes, show 32 + (i - 32) = i by omega] at hbit
    simpa [show i - 32 ≤ 31 by omega, show i - 32 < 32 by omega] using hbit
  · intro h
    apply BitVec.eq_of_getLsbD_eq
    intro i hi
    rw [BitVec.getLsbD_extractLsb, BitVec.getLsbD_allOnes, h (32 + i) (by omega) (by omega)]
    simp

theorem isBoxed_box (x : BitVec 32) : isBoxed (box x) = true := by
  have hall : (0xFFFFFFFF#32) = BitVec.allOnes 32 := by decide
  rw [isBoxed_iff]
  intro i hi hi'
  rw [box, hall, BitVec.getLsbD_append, if_neg (by omega), BitVec.getLsbD_allOnes]
  simpa using (by omega : i - 32 < 32)

theorem or_mask_of_isBoxed {x : BitVec 64} (h : isBoxed x = true) : x ||| 0xFFFFFFFF00000000#64 = x := by
  have hmask : (0xFFFFFFFF00000000#64) = BitVec.allOnes 32 ++ 0#32 := by decide
  rw [isBoxed_iff] at h
  apply BitVec.eq_of_getLsbD_eq
  intro i hi
  rw [hmask, BitVec.getLsbD_or, BitVec.getLsbD_append]
  by_cases h32 : i < 32
  · simp [h32]
  · simp [h i (by omega) hi]

theorem isBoxed_of_or_mask {x : BitVec 64} (h : x ||| 0xFFFFFFFF00000000#64 = x) : isBoxed x = true := by
  have hmask : (0xFFFFFFFF00000000#64) = BitVec.allOnes 32 ++ 0#32 := by decide
  rw [isBoxed_iff]
  intro i hi hi'
  rw [← h, hmask, BitVec.getLsbD_or, BitVec.getLsbD_append, if_neg (by omega), BitVec.getLsbD_allOnes]
  simp [show i - 32 < 32 by omega]

/-- Boxing changes exactly the values that are not boxed yet. -/
theorem nanBoxed_eq_iff {single : Bool} {x : BitVec 64} :
    nanBoxed single x = x ↔ (single = true → isBoxed x = true) := by
  cases single with
  | false => simp [nanBoxed]
  | true => exact ⟨fun h _ => isBoxed_of_or_mask h, fun h => or_mask_of_isBoxed (h rfl)⟩

theorem isBoxed_ite {c : Prop} [Decidable c] {x y : BitVec 64 × BitVec 5} (hx : isBoxed x.1 = true)
    (hy : isBoxed y.1 = true) : isBoxed (if c then x else y).1 = true := by
  split_ifs
  · exact hx
  · exact hy

theorem isBoxed_canonicalNan : isBoxed (canonicalNan 0b00#2) = true := by decide

theorem isBoxed_infinity (sign : Bool) : isBoxed (infinity 0b00#2 sign) = true := isBoxed_box _

theorem isBoxed_zero (sign : Bool) : isBoxed (FpDivSqrt.zero 0b00#2 sign) = true := isBoxed_box _

theorem isBoxed_fpRoundPack (sign : Bool) (exp : BitVec 13) (sig : BitVec 56) (rm : BitVec 3) (nv dz : Bool) :
    isBoxed (fpRoundPack sign exp sig 0b00#2 rm nv dz).1 = true := isBoxed_box _

theorem isBoxed_fpFma (op rm : BitVec 3) (rs1 rs2 rs3 : FpUnpacked) :
    isBoxed (fpFma op 0b00#2 rm rs1 rs2 rs3).1 = true := by
  unfold fpFma
  refine isBoxed_ite isBoxed_canonicalNan (isBoxed_ite (isBoxed_infinity _) ?_)
  exact isBoxed_fpRoundPack _ _ _ _ _ _

theorem isBoxed_fpDivsqrt (isSqrt : Bool) (rm : BitVec 3) (rs1 rs2 : FpUnpacked) :
    isBoxed (fpDivsqrt isSqrt 0b00#2 rm rs1 rs2).1 = true := by
  unfold fpDivsqrt
  refine isBoxed_ite isBoxed_canonicalNan (isBoxed_ite (isBoxed_infinity _) (isBoxed_ite (isBoxed_zero _) ?_))
  exact isBoxed_fpRoundPack _ _ _ _ _ _

theorem isBoxed_minMax (rs1Raw rs2Raw : BitVec 64) (rm : BitVec 3) (rs1 rs2 : FpUnpacked) :
    isBoxed (minMax rs1Raw rs2Raw 0b00#2 rm rs1 rs2) = true := by
  have hraw (raw : BitVec 64) : isBoxed (reboxed raw 0b00#2) = true := isBoxed_box _
  unfold minMax
  split_ifs
  · exact isBoxed_canonicalNan
  all_goals exact hraw _

theorem isBoxed_fpSgnj (rs1Raw rs2Raw : BitVec 64) (rm : BitVec 3) :
    isBoxed (fpSgnj rs1Raw rs2Raw 0b00#2 rm) = true := isBoxed_box _

theorem isBoxed_fpCvt (x : FpUnpacked) (intData : BitVec 32) (rs2Addr : BitVec 5) (rm : BitVec 3) (intToFp : Bool) :
    isBoxed (fpCvt x intData 0b00#2 rs2Addr rm intToFp false).1 = true := by
  unfold fpCvt
  rw [if_neg Bool.false_ne_true]
  refine isBoxed_ite isBoxed_canonicalNan (isBoxed_ite (isBoxed_infinity _) (isBoxed_ite ?_ ?_))
  · exact isBoxed_fpRoundPack _ _ _ _ _ _
  · exact isBoxed_fpRoundPack _ _ _ _ _ _

/-- The operations of `fp_alu` whose result goes to an FP register. -/
def resultIsFp (fpAluOp : BitVec 5) (intToFp fpToInt : Bool) : Bool :=
  isFmaOp fpAluOp || fpAluOp == fpAluFdiv || fpAluOp == fpAluFsqrt || fpAluOp == fpAluFsgnj ||
    fpAluOp == fpAluFmin || (fpAluOp == fpAluFcvt && !fpToInt) || (fpAluOp == fpAluFmv && intToFp)

theorem resultIsFp_op {op : BitVec 5} {intToFp fpToInt : Bool} (h : resultIsFp op intToFp fpToInt = true) :
    op ≠ fpAluFcmp ∧ op ≠ fpAluFclass ∧ (op = fpAluFcvt → fpToInt = false) ∧ (op = fpAluFmv → intToFp = true) := by
  revert op intToFp fpToInt
  decide

theorem isBoxed_fpAlu {i : FpAluIn} (hfmt : i.fmt = 0b00#2)
    (hop : resultIsFp i.fpAluOp i.intToFp i.fpToInt = true) : isBoxed (fpAlu i).1 = true := by
  obtain ⟨hcmp, hclass, hcvt, hmv⟩ := resultIsFp_op hop
  unfold fpAlu
  dsimp only
  rw [hfmt]
  split_ifs with h1 h2 h3 h4 h5 h6
  · exact isBoxed_fpFma _ _ _ _ _
  · exact isBoxed_fpDivsqrt _ _ _ _
  · have hmin : i.fpAluOp = fpAluFmin := h3.resolve_left hcmp
    simp only [hmin, beq_self_eq_true, fpCmp, if_true]
    exact isBoxed_minMax _ _ _ _ _
  · exact isBoxed_fpSgnj _ _ _
  · rw [hcvt h5]
    exact isBoxed_fpCvt _ _ _ _ _
  · simp only [fmvResult, hmv h6, if_true]
    exact isBoxed_box _
  · simp_all [resultIsFp]

end VMate.NanBox
