import VMate.Alu
import VMate.BitNat
import Mathlib.Tactic.Linarith

namespace VMate.AluMul

open Decode Alu BitNat

section

variable (a b : BitVec 32)

theorem alu_mul : alu a b aluMul = a * b := rfl

theorem alu_mulh : alu a b aluMulh = (mulhProd a b).extractLsb 63 32 := rfl

theorem alu_mulhsu : alu a b aluMulhsu = (mulhsuProd a b).extractLsb 63 32 := rfl

theorem alu_mulhu : alu a b aluMulhu = (mulhuProd a b).extractLsb 63 32 := rfl

end

/-- The high word counts signed, the low word unsigned. -/
theorem toInt_words (p : BitVec 64) :
    (p.extractLsb 63 32).toInt * 2 ^ 32 + (p.extractLsb 31 0).toNat = p.toInt := by
  have hlt := p.isLt
  simp only [BitVec.toInt_eq_toNat_cond, BitVec.extractLsb_toNat, Nat.shiftRight_eq_div_pow]
  omega

theorem toNat_words (p : BitVec 64) :
    (p.extractLsb 63 32).toNat * 2 ^ 32 + (p.extractLsb 31 0).toNat = p.toNat := by
  have hlt := p.isLt
  simp only [BitVec.extractLsb_toNat, Nat.shiftRight_eq_div_pow]
  omega

/-- The low word of a product does not depend on how the factors are
extended. -/
theorem low_mul {a b : BitVec 32} {x y : BitVec 64} (hx : x.setWidth 32 = a) (hy : y.setWidth 32 = b) :
    (x * y).extractLsb 31 0 = a * b := by
  have hlow (z : BitVec 64) : z.extractLsb 31 0 = z.setWidth 32 := by
    apply BitVec.eq_of_getLsbD_eq
    intro i hi
    simp only [BitVec.getLsbD_extractLsb, BitVec.getLsbD_setWidth, hi, decide_true, Bool.true_and, Nat.zero_add]
  rw [hlow, BitVec.setWidth_mul _ _ (by omega), hx, hy]

theorem toInt_bounds (a : BitVec 32) : -2 ^ 31 ≤ a.toInt ∧ a.toInt < 2 ^ 31 :=
  ⟨a.le_toInt, a.toInt_lt⟩

theorem toInt_mul_of_small {x y : BitVec 64} (hx : -2 ^ 31 ≤ x.toInt ∧ x.toInt < 2 ^ 31)
    (hy : -2 ^ 31 ≤ y.toInt ∧ y.toInt < 2 ^ 32) : (x * y).toInt = x.toInt * y.toInt := by
  obtain ⟨hx1, hx2⟩ := hx
  obtain ⟨hy1, hy2⟩ := hy
  rw [BitVec.toInt_mul]
  apply Int.bmod_eq_of_le
  · have hlow : -2 ^ 63 ≤ x.toInt * y.toInt := by nlinarith
    omega
  · have hhigh : x.toInt * y.toInt < 2 ^ 63 := by nlinarith
    omega

theorem toInt_mulhProd (a b : BitVec 32) : (mulhProd a b).toInt = a.toInt * b.toInt := by
  have ha := toInt_bounds a
  have hb := toInt_bounds b
  have hext (z : BitVec 32) : (z.signExtend 64).toInt = z.toInt := BitVec.toInt_signExtend_of_le (by omega)
  rw [mulhProd, toInt_mul_of_small (by rw [hext]; omega) (by rw [hext]; omega), hext, hext]

theorem setWidth_signExtend (b : BitVec 32) : (b.signExtend 64).setWidth 32 = b := by
  rw [setWidth_signExtend_of_le b (by decide), BitVec.signExtend_eq]

theorem toInt_zext (b : BitVec 32) : ((0#1 ++ b).signExtend 64).toInt = b.toNat := by
  rw [BitVec.toInt_signExtend_of_le (by omega)]
  exact toInt_zero_append b (by decide)

theorem toInt_mulhsuProd (a b : BitVec 32) : (mulhsuProd a b).toInt = a.toInt * b.toNat := by
  have ha := toInt_bounds a
  have hext : (a.signExtend 64).toInt = a.toInt := BitVec.toInt_signExtend_of_le (by omega)
  rw [mulhsuProd, toInt_mul_of_small (by rw [hext]; omega) (by rw [toInt_zext]; omega), hext, toInt_zext]

theorem toNat_mulhuProd (a b : BitVec 32) : (mulhuProd a b).toNat = a.toNat * b.toNat := by
  rw [mulhuProd, BitVec.toNat_mul, toNat_zero_append, toNat_zero_append]
  apply Nat.mod_eq_of_lt
  have ha := a.isLt
  have hb := b.isLt
  nlinarith

theorem mulh_mul (a b : BitVec 32) :
    (alu a b aluMulh).toInt * 2 ^ 32 + (alu a b aluMul).toNat = a.toInt * b.toInt := by
  have hlow : (mulhProd a b).extractLsb 31 0 = a * b := low_mul (setWidth_signExtend a) (setWidth_signExtend b)
  rw [alu_mulh, alu_mul, ← toInt_mulhProd, ← toInt_words, hlow]

theorem mulhsu_mul (a b : BitVec 32) :
    (alu a b aluMulhsu).toInt * 2 ^ 32 + (alu a b aluMul).toNat = a.toInt * b.toNat := by
  have hlow : (mulhsuProd a b).extractLsb 31 0 = a * b := by
    refine low_mul (setWidth_signExtend a) ?_
    apply BitVec.eq_of_getLsbD_eq
    intro i hi
    rw [BitVec.getLsbD_setWidth, BitVec.getLsbD_signExtend, BitVec.getLsbD_append]
    simp [hi, show i < 64 by omega, show i < 33 by omega]
  rw [alu_mulhsu, alu_mul, ← toInt_mulhsuProd, ← toInt_words, hlow]

theorem mulhu_mul (a b : BitVec 32) :
    (alu a b aluMulhu).toNat * 2 ^ 32 + (alu a b aluMul).toNat = a.toNat * b.toNat := by
  have hzext (z : BitVec 32) : (0#32 ++ z).setWidth 32 = z := by
    apply BitVec.eq_of_toNat_eq
    rw [BitVec.toNat_setWidth, toNat_zero_append, Nat.mod_eq_of_lt z.isLt]
  have hlow : (mulhuProd a b).extractLsb 31 0 = a * b := low_mul (hzext a) (hzext b)
  rw [alu_mulhu, alu_mul, ← toNat_mulhuProd, ← toNat_words, hlow]

section

variable {a b : BitVec 32}

theorem alu_divu (hb : b ≠ 0#32) : alu a b aluDivu = a / b := if_neg hb

theorem alu_remu (hb : b ≠ 0#32) : alu a b aluRemu = a % b := if_neg hb

/-- Away from its overflow case the division is that of the integers. -/
theorem toInt_div (hb : b ≠ 0#32) (ho : ¬ (a = 0x80000000#32 ∧ b = 0xFFFFFFFF#32)) :
    (alu a b aluDiv).toInt = a.toInt.tdiv b.toInt ∧ (alu a b aluRem).toInt = a.toInt.tmod b.toInt := by
  have hdiv : alu a b aluDiv = a.sdiv b := (if_neg hb).trans (if_neg ho)
  have hrem : alu a b aluRem = a.srem b := (if_neg hb).trans (if_neg ho)
  have hno : a ≠ BitVec.intMin 32 ∨ b ≠ -1#32 := not_and_or.mp ho
  rw [hdiv, hrem]
  exact ⟨BitVec.toInt_sdiv_of_ne_or_ne a b hno, BitVec.toInt_srem a b⟩

theorem div_mul_add_rem (hb : b ≠ 0#32) : alu a b aluDiv * b + alu a b aluRem = a := by
  by_cases ho : a = 0x80000000#32 ∧ b = 0xFFFFFFFF#32
  · obtain ⟨rfl, rfl⟩ := ho
    decide
  · obtain ⟨hdiv, hrem⟩ := toInt_div hb ho
    apply BitVec.eq_of_toInt_eq
    rw [BitVec.toInt_add, BitVec.toInt_mul, hdiv, hrem, Int.bmod_add_bmod, Int.tdiv_mul_add_tmod,
      BitVec.toInt_bmod_cancel]

theorem toInt_ne_zero (hb : b ≠ 0#32) : b.toInt ≠ 0 := by
  intro h
  exact hb (BitVec.eq_of_toInt_eq (h.trans BitVec.toInt_zero.symm))

theorem abs_rem_lt (hb : b ≠ 0#32) : |(alu a b aluRem).toInt| < |b.toInt| := by
  rw [Int.abs_eq_natAbs, Int.abs_eq_natAbs, Nat.cast_lt]
  by_cases ho : a = 0x80000000#32 ∧ b = 0xFFFFFFFF#32
  · obtain ⟨rfl, rfl⟩ := ho
    decide
  · rw [(toInt_div hb ho).2, Int.natAbs_tmod]
    exact Nat.mod_lt _ (Int.natAbs_pos.mpr (toInt_ne_zero hb))

theorem sign_rem (hb : b ≠ 0#32) :
    (alu a b aluRem).toInt = 0 ∨ (alu a b aluRem).toInt.sign = a.toInt.sign := by
  by_cases ho : a = 0x80000000#32 ∧ b = 0xFFFFFFFF#32
  · obtain ⟨rfl, rfl⟩ := ho
    exact .inl (by decide)
  · rw [(toInt_div hb ho).2]
    by_cases hz : a.toInt.tmod b.toInt = 0
    · exact .inl hz
    · right
      rcases lt_trichotomy a.toInt 0 with ha | ha | ha
      · have hneg : a.toInt.tmod b.toInt ≤ 0 := by
          have h := Int.tmod_nonneg b.toInt (neg_nonneg.mpr ha.le)
          rw [Int.neg_tmod] at h
          omega
        rw [Int.sign_eq_neg_one_of_neg ha, Int.sign_eq_neg_one_of_neg (lt_of_le_of_ne hneg hz)]
      · rw [ha, Int.zero_tmod] at hz
        exact absurd rfl hz
      · have hpos : 0 ≤ a.toInt.tmod b.toInt := Int.tmod_nonneg b.toInt ha.le
        rw [Int.sign_eq_one_of_pos ha, Int.sign_eq_one_of_pos (lt_of_le_of_ne hpos (Ne.symm hz))]

end

/-- The M extension of `alu` on all operands: exact products, truncating
division with its overflow case, and division by zero. -/
theorem alu_mext_exact (a b : BitVec 32) :
    (alu a b aluMulh).toInt * 2 ^ 32 + (alu a b aluMul).toNat = a.toInt * b.toInt ∧
    (alu a b aluMulhsu).toInt * 2 ^ 32 + (alu a b aluMul).toNat = a.toInt * b.toNat ∧
    (alu a b aluMulhu).toNat * 2 ^ 32 + (alu a b aluMul).toNat = a.toNat * b.toNat ∧
    (b ≠ 0#32 →
      ((alu a b aluDivu).toNat = a.toNat / b.toNat ∧ (alu a b aluRemu).toNat = a.toNat % b.toNat) ∧
      alu a b aluDiv * b + alu a b aluRem = a ∧
      |(alu a b aluRem).toInt| < |b.toInt| ∧
      ((alu a b aluRem).toInt = 0 ∨ (alu a b aluRem).toInt.sign = a.toInt.sign) ∧
      (¬ (a.toInt = -2 ^ 31 ∧ b.toInt = -1) → (alu a b aluDiv).toInt = a.toInt.tdiv b.toInt) ∧
      (a.toInt = -2 ^ 31 ∧ b.toInt = -1 → (alu a b aluDiv).toInt = -2 ^ 31 ∧ (alu a b aluRem).toInt = 0)) ∧
    (b = 0#32 → (alu a b aluDiv = BitVec.allOnes 32 ∧ alu a b aluDivu = BitVec.allOnes 32) ∧
      alu a b aluRem = a ∧ alu a b aluRemu = a) := by
  have hmin : (0x80000000#32).toInt = -2 ^ 31 := by decide
  have hone : (0xFFFFFFFF#32).toInt = -1 := by decide
  have hoverflow : a.toInt = -2 ^ 31 ∧ b.toInt = -1 ↔ a = 0x80000000#32 ∧ b = 0xFFFFFFFF#32 := by
    rw [← hmin, ← hone, BitVec.toInt_inj, BitVec.toInt_inj]
  refine ⟨mulh_mul a b, mulhsu_mul a b, mulhu_mul a b, ?_, ?_⟩
  · intro hb
    refine ⟨⟨by rw [alu_divu hb, BitVec.toNat_udiv], by rw [alu_remu hb, BitVec.toNat_umod]⟩,
      div_mul_add_rem hb, abs_rem_lt hb, sign_rem hb, ?_, ?_⟩
    · intro ho
      exact (toInt_div hb (mt hoverflow.mpr ho)).1
    · intro ho
      obtain ⟨rfl, rfl⟩ := hoverflow.mp ho
      decide
  · rintro rfl
    exact ⟨⟨rfl, rfl⟩, rfl, rfl⟩

end VMate.AluMul
