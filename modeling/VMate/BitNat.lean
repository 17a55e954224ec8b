import Mathlib.Data.BitVec
import Mathlib.Tactic.Ring

namespace VMate.BitNat

variable {v w : ℕ}

theorem toNat_append (a : BitVec v) (b : BitVec w) : (a ++ b).toNat = a.toNat * 2 ^ w + b.toNat := by
  rw [BitVec.toNat_append, ← Nat.shiftLeft_add_eq_or_of_lt b.isLt, Nat.shiftLeft_eq]

theorem toNat_zero_append (b : BitVec w) : (0#v ++ b).toNat = b.toNat := by
  rw [toNat_append, BitVec.toNat_ofNat, Nat.zero_mod, Nat.zero_mul, Nat.zero_add]

theorem toInt_zero_append (b : BitVec w) (hv : 0 < v) : (0#v ++ b).toInt = b.toNat := by
  have hlt : b.toNat * 2 < 2 ^ (v + w) := by
    calc b.toNat * 2 < 2 ^ w * 2 := Nat.mul_lt_mul_of_pos_right b.isLt two_pos
      _ = 2 ^ (1 + w) := by rw [add_comm, pow_succ]
      _ ≤ 2 ^ (v + w) := Nat.pow_le_pow_right two_pos (by omega)
  rw [BitVec.toInt_eq_toNat_of_lt (by rw [toNat_zero_append]; omega), toNat_zero_append]

theorem toNat_append_zero (a : BitVec v) : (a ++ 0#w).toNat = a.toNat * 2 ^ w := by
  rw [toNat_append, BitVec.toNat_ofNat, Nat.zero_mod, Nat.add_zero]

theorem setWidth_signExtend_of_le {u : ℕ} (x : BitVec u) (h : w ≤ v) : (x.signExtend v).setWidth w = x.signExtend w := by
  apply BitVec.eq_of_getLsbD_eq
  intro i hi
  have hiv : i < v := by omega
  rw [BitVec.getLsbD_setWidth, BitVec.getLsbD_signExtend, BitVec.getLsbD_signExtend, decide_eq_true hiv,
    decide_eq_true hi, Bool.true_and, Bool.true_and]

theorem toNat_extractLsb (x : BitVec w) (hi lo : ℕ) :
    (x.extractLsb hi lo).toNat = x.toNat / 2 ^ lo % 2 ^ (hi - lo + 1) := by
  rw [BitVec.extractLsb_toNat, Nat.shiftRight_eq_div_pow]

/-- A field that reaches the top bit needs no cut above. -/
theorem toNat_extractLsb_top (x : BitVec (w + 1)) (lo : ℕ) (h : lo ≤ w) :
    (x.extractLsb w lo).toNat = x.toNat / 2 ^ lo := by
  rw [toNat_extractLsb, Nat.mod_eq_of_lt]
  rw [Nat.div_lt_iff_lt_mul (Nat.two_pow_pos lo), ← pow_add, show w - lo + 1 + lo = w + 1 by omega]
  exact x.isLt

theorem toNat_ushiftRight (x : BitVec w) (k : ℕ) : (x >>> k).toNat = x.toNat / 2 ^ k := by
  rw [BitVec.toNat_ushiftRight, Nat.shiftRight_eq_div_pow]

theorem toNat_shiftLeft_of_lt {x : BitVec w} {k : ℕ} (h : x.toNat * 2 ^ k < 2 ^ w) :
    (x <<< k).toNat = x.toNat * 2 ^ k := by
  rw [BitVec.toNat_shiftLeft, Nat.shiftLeft_eq, Nat.mod_eq_of_lt h]

theorem getLsbD_iff (x : BitVec w) (i : ℕ) : x.getLsbD i = true ↔ x.toNat / 2 ^ i % 2 = 1 := by
  rw [← BitVec.testBit_toNat, Nat.testBit_eq_decide_div_mod_eq, decide_eq_true_iff]

theorem toNat_getLsbD (x : BitVec w) (i : ℕ) : (x.getLsbD i).toNat = x.toNat / 2 ^ i % 2 := by
  rw [← BitVec.testBit_toNat, Nat.toNat_testBit]

theorem bne_zero_iff (x : BitVec w) : (x != 0#w) = true ↔ x.toNat ≠ 0 := by
  rw [bne_iff_ne, ne_eq, ← BitVec.toNat_inj, BitVec.toNat_ofNat, Nat.zero_mod]

theorem bne_zero_eq (x : BitVec w) : (x != 0#w) = decide (x.toNat ≠ 0) := by
  rw [Bool.eq_iff_iff, bne_zero_iff, decide_eq_true_iff]

theorem getLsbD_eq (x : BitVec w) (i : ℕ) : x.getLsbD i = decide (x.toNat / 2 ^ i % 2 = 1) := by
  rw [Bool.eq_iff_iff, getLsbD_iff, decide_eq_true_iff]

theorem toNat_setWidth_ofBool (b : Bool) (hw : 0 < w) : ((BitVec.ofBool b).setWidth w).toNat = b.toNat := by
  have hlt : b.toNat < 2 ^ w := lt_of_le_of_lt (Bool.toNat_le b) (Nat.one_lt_two_pow hw.ne')
  rw [BitVec.toNat_setWidth, BitVec.toNat_ofBool, Nat.mod_eq_of_lt hlt]

/-- The low `k` bits cut out by a mask. -/
theorem toNat_and_mask (x : BitVec w) {k : ℕ} (h : k ≤ w) :
    (x &&& (BitVec.ofNat w (2 ^ k - 1))).toNat = x.toNat % 2 ^ k := by
  have hlt : 2 ^ k - 1 < 2 ^ w := by
    have := Nat.pow_le_pow_right two_pos h
    have := Nat.two_pow_pos k
    omega
  rw [BitVec.toNat_and, BitVec.toNat_ofNat, Nat.mod_eq_of_lt hlt, Nat.and_two_pow_sub_one_eq_mod]

/-- The low `k` bits cut out by a mask that is built by shifting. -/
theorem toNat_and_shiftMask (x : BitVec w) {k : ℕ} (h : k < w) :
    (x &&& ((1#w <<< k) - 1#w)).toNat = x.toNat % 2 ^ k := by
  have hlt : 2 ^ k < 2 ^ w := Nat.pow_lt_pow_right one_lt_two h
  have hone := Nat.two_pow_pos k
  have h1 : (1#w).toNat = 1 := by rw [BitVec.toNat_ofNat, Nat.mod_eq_of_lt (by omega)]
  have hshift : (1#w <<< k).toNat = 2 ^ k := by
    rw [toNat_shiftLeft_of_lt (by rw [h1, one_mul]; exact hlt), h1, one_mul]
  have hmask : (1#w <<< k) - 1#w = BitVec.ofNat w (2 ^ k - 1) := by
    apply BitVec.eq_of_toNat_eq
    rw [BitVec.toNat_sub_of_le (by rw [BitVec.le_def, h1, hshift]; exact hone), hshift, h1, BitVec.toNat_ofNat,
      Nat.mod_eq_of_lt (by omega)]
  rw [hmask, toNat_and_mask x h.le]

theorem bmod_two_pow {n : ℤ} (hlow : -2 ^ w ≤ n) (hhigh : n < 2 ^ w) : n.bmod (2 ^ (w + 1)) = n := by
  have hpow : ((2 ^ (w + 1) : ℕ) : ℤ) = 2 * 2 ^ w := by rw [pow_succ']; push_cast; rfl
  apply Int.bmod_eq_of_le <;> omega

/-- Signed arithmetic that stays in range. -/
theorem toInt_add_of_bounds {x y : BitVec (w + 1)} (hlow : -2 ^ w ≤ x.toInt + y.toInt)
    (hhigh : x.toInt + y.toInt < 2 ^ w) :
    (x + y).toInt = x.toInt + y.toInt := by
  rw [BitVec.toInt_add, bmod_two_pow hlow hhigh]

theorem toInt_sub_of_bounds {x y : BitVec (w + 1)} (hlow : -2 ^ w ≤ x.toInt - y.toInt)
    (hhigh : x.toInt - y.toInt < 2 ^ w) :
    (x - y).toInt = x.toInt - y.toInt := by
  rw [BitVec.toInt_sub, bmod_two_pow hlow hhigh]

end VMate.BitNat
