import VMate.FpOrder
import VMate.NanBox

namespace VMate.BoxTransparent

open Decode FpUnpack FpRoundPack FpCmp FpAlu Pipe NanBox FpOrder

/-- A register that is read in a format may be replaced by the canonical NaN
if it holds no boxed single. -/
def Replaced (fmt : BitVec 2) (x y : BitVec 64) : Prop :=
  y = x ∨ fmt = 0b00#2 ∧ isBoxed x = false ∧ y = canonicalNan32

section Operands

variable {fmt : BitVec 2} {x x' y y' : BitVec 64}

theorem effIn_replaced (h : Replaced fmt x x') : effIn x' fmt = effIn x fmt := by
  rcases h with rfl | ⟨rfl, hx, rfl⟩
  · rfl
  · have hnan : isBoxed canonicalNan32 = true := by decide
    simp [effIn, hx, hnan]

theorem fpUnpack_replaced (h : Replaced fmt x x') : fpUnpack x' fmt = fpUnpack x fmt := by
  have heff := effIn_replaced h
  have hsign : signRaw x' fmt = signRaw x fmt := by rw [signRaw, signRaw, heff]
  have hexp : expRaw x' fmt = expRaw x fmt := by rw [expRaw, expRaw, heff]
  have hfrac : fracRaw x' fmt = fracRaw x fmt := by rw [fracRaw, fracRaw, heff]
  rw [fpUnpack, hsign, hexp, hfrac]
  rfl

/-- What the unpacker does not call a NaN was boxed, so the raw bits are the
same as well. -/
theorem eq_of_replaced (h : Replaced fmt x x') (hx : (fpUnpack x fmt).isNan = false) : x' = x := by
  rcases h with rfl | ⟨rfl, hbox, -⟩
  · rfl
  · have hb : isBoxed x = true := by rw [isBoxed, extractLsb_of_number hx rfl, beq_self_eq_true]
    exact absurd (hb.symm.trans hbox) (by decide)

theorem order_replaced (hx : Replaced fmt x x') (hy : Replaced fmt y y') :
    order x' y' fmt (fpUnpack x fmt) (fpUnpack y fmt) = order x y fmt (fpUnpack x fmt) (fpUnpack y fmt) := by
  by_cases hnan : (fpUnpack x fmt).isNan = true ∨ (fpUnpack y fmt).isNan = true
  · rw [order, order, if_pos (by simpa using hnan), if_pos (by simpa using hnan)]
  · rw [not_or, Bool.not_eq_true, Bool.not_eq_true] at hnan
    rw [eq_of_replaced hx hnan.1, eq_of_replaced hy hnan.2]

theorem minMax_replaced (hx : Replaced fmt x x') (hy : Replaced fmt y y') (rm : BitVec 3) :
    minMax x' y' fmt rm (fpUnpack x fmt) (fpUnpack y fmt) = minMax x y fmt rm (fpUnpack x fmt) (fpUnpack y fmt) := by
  rw [minMax, minMax, order_replaced hx hy]
  cases hnx : (fpUnpack x fmt).isNan <;> cases hny : (fpUnpack y fmt).isNan
  · rw [eq_of_replaced hx hnx, eq_of_replaced hy hny]
  · simp [eq_of_replaced hx hnx]
  · simp [eq_of_replaced hy hny]
  · rfl

theorem fpCmp_replaced (hx : Replaced fmt x x') (hy : Replaced fmt y y') (isMinMax : Bool) (rm : BitVec 3) :
    fpCmp isMinMax fmt rm x' y' (fpUnpack x fmt) (fpUnpack y fmt) =
      fpCmp isMinMax fmt rm x y (fpUnpack x fmt) (fpUnpack y fmt) := by
  rw [fpCmp, fpCmp, minMax_replaced hx hy, FpCmp.compare, FpCmp.compare, order_replaced hx hy]

theorem fpSgnj_replaced (hx : Replaced fmt x x') (hy : Replaced fmt y y') (rm : BitVec 3) :
    fpSgnj x' y' fmt rm = fpSgnj x y fmt rm := by
  rw [fpSgnj, fpSgnj, effIn_replaced hx, effIn_replaced hy]

end Operands

/-- The operation on other operands. -/
def withOperands (i : FpAluIn) (x y z : BitVec 64) : FpAluIn := { i with rs1Data := x, rs2Data := y, rs3Data := z }

section Alu

variable {i : FpAluIn} {x y z : BitVec 64}

theorem fclassMask_nan {i : FpAluIn} (h : (fpUnpack i.rs1Data (rs1Fmt i)).isNan = true) :
    fclassMask i = if (fpUnpack i.rs1Data (rs1Fmt i)).isSnan then 1#10 <<< 8 else 1#10 <<< 9 := by
  rw [fclassMask, if_pos h]

theorem fclassMask_replaced (hx : Replaced (rs1Fmt i) i.rs1Data x) :
    fclassMask (withOperands i x y z) = fclassMask i := by
  have hunpack : fpUnpack (withOperands i x y z).rs1Data (rs1Fmt (withOperands i x y z)) =
      fpUnpack i.rs1Data (rs1Fmt i) := fpUnpack_replaced hx
  cases hnan : (fpUnpack i.rs1Data (rs1Fmt i)).isNan with
  | true => rw [fclassMask_nan (hunpack ▸ hnan), fclassMask_nan hnan, hunpack]
  | false =>
      have heq : (withOperands i x y z).rs1Data = i.rs1Data := eq_of_replaced hx hnan
      rw [fclassMask, fclassMask, hunpack, heq]
      rfl

theorem fpAlu_replaced (hop : i.fpAluOp ≠ fpAluFmv) (hx : Replaced (rs1Fmt i) i.rs1Data x)
    (hy : Replaced i.fmt i.rs2Data y) (hz : Replaced i.fmt i.rs3Data z) :
    fpAlu (withOperands i x y z) = fpAlu i := by
  have hx' := fpUnpack_replaced hx
  have hy' := fpUnpack_replaced hy
  have hz' := fpUnpack_replaced hz
  have hfmt (h : i.fpAluOp ≠ fpAluFcvt) : rs1Fmt i = i.fmt := by rw [rs1Fmt, if_neg (by tauto)]
  have hfmt' : rs1Fmt (withOperands i x y z) = rs1Fmt i := rfl
  have hrm : effRm (withOperands i x y z) = effRm i := rfl
  rw [fpAlu, fpAlu, hfmt', hrm]
  simp only [withOperands, hx', hy', hz']
  refine ite_congr rfl (fun _ => rfl) fun _ => ite_congr rfl (fun _ => rfl) fun _ => ite_congr rfl (fun h => ?_) fun _ =>
    ite_congr rfl (fun h => ?_) fun _ => ite_congr rfl (fun _ => rfl) fun _ =>
    ite_congr rfl (fun h => absurd h hop) fun _ => ite_congr rfl (fun h => ?_) fun _ => rfl
  · have hcvt : i.fpAluOp ≠ fpAluFcvt := by rcases h with h | h <;> rw [h] <;> decide
    rw [hfmt hcvt] at hx ⊢
    exact fpCmp_replaced hx hy _ _
  · have hcvt : i.fpAluOp ≠ fpAluFcvt := by rw [h]; decide
    rw [hfmt hcvt] at hx
    rw [fpSgnj_replaced hx hy]
  · have hmask := fclassMask_replaced (y := y) (z := z) hx
    rw [withOperands] at hmask
    rw [hmask]

/-- Operands that are not boxed count as the canonical NaN, and single
results leave the unit boxed: forwarding from MEM and write-back agree. -/
theorem boxing_transparent (i : FpAluIn) :
    (∀ x y z, i.fpAluOp ≠ fpAluFmv → Replaced (rs1Fmt i) i.rs1Data x → Replaced i.fmt i.rs2Data y →
      Replaced i.fmt i.rs3Data z → fpAlu (withOperands i x y z) = fpAlu i) ∧
    (i.fmt = 0b00#2 → resultIsFp i.fpAluOp i.intToFp i.fpToInt = true →
      isBoxed (fpAlu i).1 = true ∧
        ∀ (c : WbCtrl) single d, c.fpMemRead = false → fpResult c single (fpAlu i).1 d = (fpAlu i).1) := by
  refine ⟨fun x y z hop hx hy hz => fpAlu_replaced hop hx hy hz, fun hfmt hop => ?_⟩
  have hboxed := isBoxed_fpAlu hfmt hop
  refine ⟨hboxed, fun c single d hread => ?_⟩
  rw [fpResult, hread, if_neg Bool.false_ne_true]
  exact nanBoxed_eq_iff.mpr fun _ => hboxed

end Alu

end VMate.BoxTransparent
