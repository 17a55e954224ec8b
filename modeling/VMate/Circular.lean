import Mathlib.Data.BitVec
import Mathlib.Tactic.Ring

namespace VMate.Circular

variable {w : Nat} {α : Type}

/-- The slot `j` is one of the `n` slots that follow `h` on the circle of
`2 ^ w` slots, starting with `h` itself. -/
def InWindow (h : BitVec w) (n : Nat) (j : BitVec w) : Prop := (j - h).toNat < n

instance (h : BitVec w) (n : Nat) (j : BitVec w) : Decidable (InWindow h n j) :=
  inferInstanceAs (Decidable ((j - h).toNat < n))

def slots (h : BitVec w) : Nat → List (BitVec w)
  | 0 => []
  | n + 1 => slots h n ++ [h + BitVec.ofNat w n]

def contents (data : BitVec w → α) (h : BitVec w) (n : Nat) : List α := (slots h n).map data

theorem not_inWindow_zero (h j : BitVec w) : ¬ InWindow h 0 j := Nat.not_lt_zero _

theorem inWindow_head {h : BitVec w} {n : Nat} (hn : 0 < n) : InWindow h n h := by
  simpa [InWindow] using hn

theorem sub_eq_ofNat_iff {h j : BitVec w} {n : Nat} (hn : n < 2 ^ w) :
    (j - h).toNat = n ↔ j = h + BitVec.ofNat w n := by
  constructor
  · intro he
    have hj : j - h = BitVec.ofNat w n := BitVec.eq_of_toNat_eq (by simp [he, Nat.mod_eq_of_lt hn])
    rw [← hj, BitVec.add_comm, BitVec.sub_add_cancel]
  · rintro rfl
    rw [add_sub_cancel_left]
    simp [Nat.mod_eq_of_lt hn]

theorem add_toNat_sub (h j : BitVec w) : j = h + BitVec.ofNat w (j - h).toNat :=
  (sub_eq_ofNat_iff (j - h).isLt).mp rfl

theorem inWindow_add {h : BitVec w} {k n : Nat} (hk : k < 2 ^ w) :
    InWindow h n (h + BitVec.ofNat w k) ↔ k < n := by
  rw [InWindow, (sub_eq_ofNat_iff hk).mpr rfl]

theorem add_ofNat_inj {h : BitVec w} {a b : Nat} (ha : a < 2 ^ w) (hb : b < 2 ^ w) :
    h + BitVec.ofNat w a = h + BitVec.ofNat w b ↔ a = b := by
  rw [← sub_eq_ofNat_iff hb, (sub_eq_ofNat_iff ha).mpr rfl]

theorem inWindow_succ {h j : BitVec w} {n : Nat} (hn : n < 2 ^ w) :
    InWindow h (n + 1) j ↔ InWindow h n j ∨ j = h + BitVec.ofNat w n := by
  rw [InWindow, InWindow, ← sub_eq_ofNat_iff hn]
  omega

theorem sub_succ_toNat {h j : BitVec w} (hj : j ≠ h) : (j - (h + 1)).toNat + 1 = (j - h).toNat := by
  have hpos : (j - h).toNat ≠ 0 := by
    intro he
    have h0 : j - h = 0 := BitVec.eq_of_toNat_eq (by simpa using he)
    apply hj
    simpa [h0] using (BitVec.sub_add_cancel j h).symm
  have hsub : j - (h + 1) = (j - h) - 1 := sub_add_eq_sub_sub j h 1
  have hw : 0 < w := by
    rcases Nat.eq_zero_or_pos w with rfl | hw
    · exact absurd (BitVec.toNat_of_zero_length rfl _) hpos
    · exact hw
  have hone : (1 : BitVec w).toNat = 1 := BitVec.toNat_one hw
  rw [hsub, BitVec.toNat_sub_of_le]
  · rw [hone]; omega
  · show (1 : BitVec w).toNat ≤ (j - h).toNat
    rw [hone]; omega

theorem inWindow_pop {h j : BitVec w} {n : Nat} (hn : n + 1 ≤ 2 ^ w) :
    InWindow (h + 1) n j ↔ InWindow h (n + 1) j ∧ j ≠ h := by
  by_cases hj : j = h
  · subst j
    have hlast : h - (h + 1) = BitVec.allOnes w := by
      rw [← BitVec.neg_one_eq_allOnes]
      exact sub_add_cancel_left h 1
    simp only [InWindow, hlast, BitVec.toNat_allOnes, ne_eq, not_true_eq_false, and_false, iff_false]
    omega
  · have hs := sub_succ_toNat hj
    simp only [InWindow, ne_eq, hj, not_false_eq_true, and_true]
    omega

theorem slots_cons (h : BitVec w) (n : Nat) : slots h (n + 1) = h :: slots (h + 1) n := by
  induction n with
  | zero => simp [slots]
  | succ n ih =>
      have hstep : h + BitVec.ofNat w (n + 1) = h + 1 + BitVec.ofNat w n := by
        rw [BitVec.ofNat_add, BitVec.add_comm (BitVec.ofNat w n), BitVec.add_assoc]
        rfl
      rw [slots, ih, List.cons_append, hstep, slots]

theorem mem_slots {h j : BitVec w} {n : Nat} (hn : n ≤ 2 ^ w) : j ∈ slots h n ↔ InWindow h n j := by
  induction n with
  | zero => simp [slots, not_inWindow_zero]
  | succ n ih => rw [slots, List.mem_append, List.mem_singleton, ih (by omega), inWindow_succ (by omega)]

theorem contents_push (data : BitVec w → α) (h : BitVec w) (n : Nat) :
    contents data h (n + 1) = contents data h n ++ [data (h + BitVec.ofNat w n)] := by
  simp [contents, slots]

theorem contents_pop (data : BitVec w → α) (h : BitVec w) (n : Nat) :
    contents data h (n + 1) = data h :: contents data (h + 1) n := by
  simp [contents, slots_cons]

theorem contents_congr {data data' : BitVec w → α} {h : BitVec w} {n : Nat} (hn : n ≤ 2 ^ w)
    (he : ∀ j, InWindow h n j → data j = data' j) : contents data h n = contents data' h n :=
  List.map_congr_left (fun j hj => he j ((mem_slots hn).mp hj))

end VMate.Circular
