import VMate.BitNat

namespace VMate.Bytes

open BitNat

variable {w n : Nat}

def byte (x : BitVec w) (k : Nat) : BitVec 8 := x.extractLsb' (8 * k) 8

/-- The word whose byte `k` is `f k`, the lowest byte first. -/
def ofBytes (f : Nat → BitVec 8) : (n : Nat) → BitVec (8 * n)
  | 0 => 0#0
  | n + 1 => (f n ++ ofBytes f n).cast (by omega)

theorem getLsbD_byte (x : BitVec w) (k : Nat) {j : Nat} (hj : j < 8) :
    (byte x k).getLsbD j = x.getLsbD (8 * k + j) := by
  simp [byte, hj]

theorem getLsbD_ofBytes (f : Nat → BitVec 8) {j : Nat} (hj : j < 8 * n) :
    (ofBytes f n).getLsbD j = (f (j / 8)).getLsbD (j % 8) := by
  induction n with
  | zero => omega
  | succ n ih =>
      rw [ofBytes, BitVec.getLsbD_cast, BitVec.getLsbD_append]
      by_cases h : j < 8 * n
      · rw [if_pos h]
        exact ih h
      · have hq : j / 8 = n := by omega
        have hr : j - 8 * n = j % 8 := by omega
        rw [if_neg h, hq, hr]

theorem toNat_ofBytes_zero (f : Nat → BitVec 8) : (ofBytes f 0).toNat = 0 := rfl

theorem toNat_ofBytes_succ (f : Nat → BitVec 8) :
    (ofBytes f (n + 1)).toNat = (f n).toNat * 2 ^ (8 * n) + (ofBytes f n).toNat := by
  rw [ofBytes, BitVec.toNat_cast, toNat_append]

theorem byte_ofBytes (f : Nat → BitVec 8) {k : Nat} (hk : k < n) : byte (ofBytes f n) k = f k := by
  apply BitVec.eq_of_getLsbD_eq
  intro j hj
  rw [getLsbD_byte _ _ hj, getLsbD_ofBytes f (by omega)]
  congr 2 <;> omega

theorem eq_of_byte_eq {x y : BitVec (8 * n)} (h : ∀ k < n, byte x k = byte y k) : x = y := by
  apply BitVec.eq_of_getLsbD_eq
  intro j hj
  have hb := congrArg (fun b => b.getLsbD (j % 8)) (h (j / 8) (by omega))
  simp only [getLsbD_byte _ _ (Nat.mod_lt j (by decide : 0 < 8)), Nat.div_add_mod] at hb
  exact hb

theorem ofBytes_inj {f g : Nat → BitVec 8} : ofBytes f n = ofBytes g n ↔ ∀ k < n, f k = g k := by
  constructor
  · intro h k hk
    rw [← byte_ofBytes f hk, h, byte_ofBytes g hk]
  · intro h
    apply eq_of_byte_eq
    intro k hk
    rw [byte_ofBytes f hk, byte_ofBytes g hk, h k hk]

/-- The low bytes of a word are those of its truncation. -/
theorem byte_setWidth (x : BitVec w) {k v : Nat} (hk : 8 * k + 8 ≤ v) : byte (x.setWidth v) k = byte x k := by
  apply BitVec.eq_of_getLsbD_eq
  intro j hj
  rw [getLsbD_byte _ _ hj, getLsbD_byte _ _ hj, BitVec.getLsbD_setWidth, decide_eq_true (by omega), Bool.true_and]

section Append

variable (b : Nat → BitVec 8)

theorem ofBytes_one : ofBytes b 1 = b 0 := by
  apply BitVec.eq_of_toNat_eq
  simp only [toNat_ofBytes_succ, toNat_ofBytes_zero]
  omega

theorem append_two : b 1 ++ b 0 = ofBytes b 2 := by
  apply BitVec.eq_of_toNat_eq
  simp only [toNat_append, toNat_ofBytes_succ, toNat_ofBytes_zero]
  omega

theorem append_four : b 3 ++ b 2 ++ b 1 ++ b 0 = ofBytes b 4 := by
  apply BitVec.eq_of_toNat_eq
  simp only [toNat_append, toNat_ofBytes_succ, toNat_ofBytes_zero]
  omega

theorem append_eight : b 7 ++ b 6 ++ b 5 ++ b 4 ++ b 3 ++ b 2 ++ b 1 ++ b 0 = ofBytes b 8 := by
  apply BitVec.eq_of_toNat_eq
  simp only [toNat_append, toNat_ofBytes_succ, toNat_ofBytes_zero]
  omega

end Append

end VMate.Bytes
