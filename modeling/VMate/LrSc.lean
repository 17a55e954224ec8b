import VMate.Dmem

namespace VMate.LrSc

open Dmem

def isLr (i : DmemIn) : Bool := i.amoEn && i.amoOp == 0b00010#5

def isSc (i : DmemIn) : Bool := i.amoEn && i.amoOp == 0b00011#5

/-- The data of an SC is the low word of the write port. -/
def scWrite (m : Nat → BitVec 8) (i : DmemIn) : Nat → BitVec 8 :=
  writeBytes m (maskedAddr i.addr) ((i.writeData.extractLsb 31 0).setWidth 64) (storeBytes i.memSize)

section Run

variable (m₀ : Nat → BitVec 8) (ins : Nat → DmemIn)

/-- The memory after `n` cycles from reset; reset does not touch the array. -/
def dmemRun : Nat → State
  | 0 => { mem := m₀, reservationAddr := 0, reservationValid := false }
  | n + 1 => dmemTick (dmemRun n) (ins n)

/-- The last LR or SC before cycle `n` is an LR to `a`. -/
def reservedBy (n : Nat) (a : BitVec 32) : Prop :=
  ∃ m, m < n ∧ isLr (ins m) = true ∧ (ins m).addr = a ∧
    ∀ k, m < k → k < n → isLr (ins k) = false ∧ isSc (ins k) = false

end Run

section Step

variable {ins : Nat → DmemIn} {n : Nat} {a : BitVec 32} {d : State} {i : DmemIn}

theorem reservedBy_lr (h : isLr (ins n) = true) : reservedBy ins (n + 1) a ↔ (ins n).addr = a := by
  constructor
  · rintro ⟨m, hm, -, ha, hlast⟩
    rcases Nat.lt_succ_iff_lt_or_eq.mp hm with hm | rfl
    · simp [(hlast n hm (Nat.lt_succ_self n)).1] at h
    · exact ha
  · rintro rfl
    exact ⟨n, Nat.lt_succ_self n, h, rfl, fun k hk hkn => by omega⟩

theorem not_isLr_of_isSc (h : isSc i = true) : isLr i = false := by
  simp only [isSc, Bool.and_eq_true, beq_iff_eq] at h
  simp [isLr, h.2]

theorem reservedBy_sc (h : isSc (ins n) = true) : ¬ reservedBy ins (n + 1) a := by
  rintro ⟨m, hm, hlr, -, hlast⟩
  rcases Nat.lt_succ_iff_lt_or_eq.mp hm with hm | rfl
  · simp [(hlast n hm (Nat.lt_succ_self n)).2] at h
  · simp [not_isLr_of_isSc h] at hlr

theorem reservedBy_other (hl : isLr (ins n) = false) (hs : isSc (ins n) = false) :
    reservedBy ins (n + 1) a ↔ reservedBy ins n a := by
  constructor
  · rintro ⟨m, hm, hlr, ha, hlast⟩
    rcases Nat.lt_succ_iff_lt_or_eq.mp hm with hm | rfl
    · exact ⟨m, hm, hlr, ha, fun k hk hkn => hlast k hk (Nat.lt_succ_of_lt hkn)⟩
    · simp [hl] at hlr
  · rintro ⟨m, hm, hlr, ha, hlast⟩
    refine ⟨m, Nat.lt_succ_of_lt hm, hlr, ha, fun k hk hkn => ?_⟩
    rcases Nat.lt_succ_iff_lt_or_eq.mp hkn with hkn | rfl
    · exact hlast k hk hkn
    · exact ⟨hl, hs⟩

theorem reservation_other (hl : isLr i = false) (hs : isSc i = false) :
    (dmemTick d i).reservationValid = d.reservationValid ∧
      (dmemTick d i).reservationAddr = d.reservationAddr := by
  simp only [isLr] at hl
  simp only [isSc] at hs
  simp [dmemTick, hl, hs]

theorem reservation_lr (h : isLr i = true) :
    (dmemTick d i).reservationValid = true ∧ (dmemTick d i).reservationAddr = i.addr := by
  simp only [isLr] at h
  simp [dmemTick, h]

theorem reservation_sc (h : isSc i = true) : (dmemTick d i).reservationValid = false := by
  have hl := not_isLr_of_isSc h
  simp only [isLr] at hl
  simp only [isSc] at h
  simp [dmemTick, h, hl]

end Step

/-- The reservation registers hold the last LR for as long as no SC follows. -/
theorem reservation_run (m₀ : Nat → BitVec 8) (ins : Nat → DmemIn) (n : Nat) (a : BitVec 32) :
    ((dmemRun m₀ ins n).reservationValid = true ∧ (dmemRun m₀ ins n).reservationAddr = a) ↔
      reservedBy ins n a := by
  induction n with
  | zero =>
      simp only [dmemRun, Bool.false_eq_true, false_and, false_iff]
      rintro ⟨m, hm, -⟩
      omega
  | succ n ih =>
      rw [dmemRun]
      cases hl : isLr (ins n) with
      | true =>
          obtain ⟨hv, ha⟩ := reservation_lr (d := dmemRun m₀ ins n) hl
          simp [hv, ha, reservedBy_lr hl]
      | false =>
          cases hs : isSc (ins n) with
          | true => simp [reservation_sc hs, reservedBy_sc hs]
          | false =>
              obtain ⟨hv, ha⟩ := reservation_other (d := dmemRun m₀ ins n) hl hs
              rw [hv, ha, ih, reservedBy_other hl hs]

theorem scSuccess_iff (m₀ : Nat → BitVec 8) (ins : Nat → DmemIn) (n : Nat) :
    scSuccess (dmemRun m₀ ins n) (ins n) = true ↔ reservedBy ins n (ins n).addr := by
  rw [← reservation_run m₀, scSuccess, Bool.and_eq_true, beq_iff_eq]

theorem readData_sc {d : State} {i : DmemIn} (h : isSc i = true) :
    readData d i = if scSuccess d i then 0#64 else 1#64 := by
  simp only [isSc] at h
  simp [readData, h]

theorem mem_sc {d : State} {i : DmemIn} (h : isSc i = true) :
    (dmemTick d i).mem = if scSuccess d i then scWrite d.mem i else d.mem := by
  simp only [isSc, Bool.and_eq_true, beq_iff_eq] at h
  have hw : executeWrite d i = scSuccess d i := by simp [executeWrite, h]
  have hd : actualWriteData d i = (i.writeData.extractLsb 31 0).setWidth 64 := by
    simp [actualWriteData, amoWriteData, h]
  simp only [dmemTick, hw, hd, scWrite]

/-- An LR and two SCs to one address. -/
def lrScSc (n : Nat) : DmemIn :=
  { memWrite := false, memRead := false, amoEn := n < 3, amoOp := if n = 0 then 0b00010#5 else 0b00011#5
    addr := 0x40#32, writeData := 9#64, memSize := 0b010#3 }

end VMate.LrSc
