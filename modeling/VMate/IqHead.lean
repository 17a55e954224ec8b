import VMate.IqFate
import Mathlib.Data.List.OfFn

namespace VMate.IqHead

open Iq IqFate

variable {depth : Nat}

/-- The opcodes of a load, a store, an FP load and an FP store. -/
def isLoadStore (opType : BitVec 32) : Bool :=
  [0b0000011#7, 0b0100011#7, 0b0000111#7, 0b0100111#7].contains (opType.extractLsb 6 0)

/-- The opcode that `control_unit` and the top level decode as an atomic. -/
def isAtomic (opType : BitVec 32) : Bool := opType.extractLsb 6 0 == 0b0101111#7

def operandsReady (i : IqIn) (e : IqEntry) : Bool :=
  (!e.rs1.wait || hit i e.rs1) && (!e.rs2.wait || hit i e.rs2) && (!e.rs3.wait || hit i e.rs3)

/-- Memory operations leave the queue at the ROB head only. -/
def MemoryAtHead (q₀ : State depth) (i : Nat → IqIn) : Prop :=
  ∀ t e, issued (iqRun q₀ i t) (i t) = some e → isLoadStore e.opType = true ∨ isAtomic e.opType = true →
    e.robIdx = (i t).robHead

/-- At cycle `t` an atomic away from the ROB head stands in the queue with its
operands, and no entry before it is ready. -/
def AtomicAhead (q₀ : State depth) (i : Nat → IqIn) (t : Nat) : Prop :=
  ∃ k, (iqRun q₀ i t k).valid = true ∧ isAtomic (iqRun q₀ i t k).opType = true ∧
    operandsReady (i t) (iqRun q₀ i t k) = true ∧ (iqRun q₀ i t k).robIdx ≠ (i t).robHead ∧
      ∀ j < k, ready (i t) (iqRun q₀ i t j) = false

theorem ready_eq (i : IqIn) (e : IqEntry) :
    ready i e = (e.valid && operandsReady i e && (!isMemOp e.opType || e.robIdx == i.robHead)) := by
  simp only [ready, operandsReady, Bool.and_assoc]

theorem isMemOp_of_isLoadStore {opType : BitVec 32} (h : isLoadStore opType = true) : isMemOp opType = true := by
  unfold isMemOp
  revert h
  unfold isLoadStore
  generalize opType.extractLsb 6 0 = op
  revert op
  decide

/-- The list of the queue has 0101011 in the place of 0101111. -/
theorem not_isMemOp_of_isAtomic {opType : BitVec 32} (h : isAtomic opType = true) : isMemOp opType = false := by
  rw [isAtomic, beq_iff_eq] at h
  simp [isMemOp, h]

theorem firstIdx_eq_some_iff {p : Fin depth → Bool} {k : Fin depth} :
    firstIdx p = some k ↔ p k = true ∧ ∀ j < k, p j = false := by
  have h := List.find?_ofFn_eq_some_of_injective (p := p) (i := k) Function.injective_id
  rw [List.ofFn_id] at h
  rw [firstIdx]
  simpa only [id, Bool.not_eq_true] using h

section Cycle

variable {q : State depth} {i : IqIn}

theorem loadStore_at_head {e : IqEntry} (h : issued q i = some e) (hm : isLoadStore e.opType = true) :
    e.robIdx = i.robHead := by
  rw [issued, Option.map_eq_some_iff] at h
  obtain ⟨k, hsel, rfl⟩ := h
  have hr := selIdx_ready hsel
  have hmem : isMemOp (q k).opType = true := isMemOp_of_isLoadStore hm
  rw [ready_eq, hmem, Bool.and_eq_true] at hr
  exact eq_of_beq hr.2

theorem issued_atomic_iff {k : Fin depth} (ha : isAtomic (q k).opType = true) :
    selIdx q i = some k ↔
      (q k).valid = true ∧ operandsReady i (q k) = true ∧ ∀ j < k, ready i (q j) = false := by
  rw [selIdx, firstIdx_eq_some_iff, ready_eq, not_isMemOp_of_isAtomic ha]
  simp [and_assoc]

end Cycle

section Run

variable {q₀ : State depth} {i : Nat → IqIn} {n t : Nat} {k : Fin depth}

theorem accepted_of_owner (h : owner q₀ i t k = some n) : accepted q₀ i n := by
  induction t with
  | zero => simp [owner] at h
  | succ t ih =>
      rcases owner_step h with ⟨rfl, hacc, -⟩ | ⟨-, -, -, ho, -⟩ | ⟨-, ho, -⟩
      · exact hacc
      · exact ih ho
      · exact ih ho

/-- What a valid entry holds was dispatched. -/
theorem opType_dispatched (h : (iqRun q₀ i t k).valid = true) :
    ∃ n, (i n).dispatchEn = true ∧ (iqRun q₀ i t k).opType = (i n).entry.opType := by
  rw [valid_iff_owner, Option.isSome_iff_exists] at h
  obtain ⟨n, ho⟩ := h
  exact ⟨n, (accepted_of_owner ho).2.2.1, (tracksEntry_run ho).own.2.1⟩

/-- Loads and stores of either register file wait for the ROB head. Atomics
do not, because the list of memory opcodes in the queue misspells theirs: the
order is kept exactly in the runs in which none of them is first in turn
while it is not at the head, so in all runs that dispatch none. -/
theorem memoryAtHead_iff (q₀ : State depth) (i : Nat → IqIn) :
    (MemoryAtHead q₀ i ↔ ∀ t, ¬ AtomicAhead q₀ i t) ∧
      ((∀ t, (i t).dispatchEn = true → isAtomic (i t).entry.opType = false) → MemoryAtHead q₀ i) := by
  have hiff : MemoryAtHead q₀ i ↔ ∀ t, ¬ AtomicAhead q₀ i t := by
    constructor
    · rintro h t ⟨k, hv, ha, hops, hne, hfirst⟩
      have hsel := (issued_atomic_iff (i := i t) ha).mpr ⟨hv, hops, hfirst⟩
      have hiss : issued (iqRun q₀ i t) (i t) = some (woken (i t) (iqRun q₀ i t k)) := by rw [issued, hsel]; rfl
      have hhead := h t _ hiss (.inr ha)
      exact hne hhead
    · rintro h t e hiss (hm | ha)
      · exact loadStore_at_head hiss hm
      · rw [issued, Option.map_eq_some_iff] at hiss
        obtain ⟨k, hsel, rfl⟩ := hiss
        obtain ⟨hv, hops, hfirst⟩ := (issued_atomic_iff ha).mp hsel
        by_contra hne
        exact h t ⟨k, hv, ha, hops, hne, hfirst⟩
  refine ⟨hiff, fun h => hiff.mpr ?_⟩
  rintro t ⟨k, hv, ha, -⟩
  obtain ⟨n, hd, hop⟩ := opType_dispatched hv
  rw [hop, h n hd] at ha
  exact Bool.false_ne_true ha

/-- `amoadd.w` dispatched with the ROB index 3 while the head is at 0. -/
def amoInputs (t : Nat) : IqIn :=
  { oooEn := true, flush := false, dispatchEn := t == 0
    entry := { robIdx := 3#4, opType := 0x0055252F#32 }
    robHead := 0#4, cdbEn := false, cdbRobIdx := 0, cdbData := 0, issueAck := true }

theorem atomic_issues_ahead : ¬ MemoryAtHead (fun _ : Fin 8 => {}) amoInputs := by
  intro h
  have hiss : issued (iqRun (fun _ : Fin 8 => {}) amoInputs 1) (amoInputs 1) =
      some { valid := true, robIdx := 3#4, opType := 0x0055252F#32 } := by decide
  exact absurd (h 1 _ hiss (.inr rfl)) (by decide)

end Run

end VMate.IqHead
