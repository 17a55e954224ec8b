import VMate.Rob
import VMate.Circular

namespace VMate.RobFifo

open Rob Circular

variable {w : Nat}

/-- The fields that travel unchanged from dispatch to commit. -/
structure Payload where
  destReg : BitVec 5
  destType : Bool
  pc : BitVec 32
  isStore : Bool
  isBranch : Bool
  instruction : BitVec 32
  deriving DecidableEq, Repr

def payload (e : RobEntry) : Payload := ⟨e.destReg, e.destType, e.pc, e.isStore, e.isBranch, e.instruction⟩

def dispatchPayload (i : RobIn w) : Payload :=
  ⟨i.destReg, i.destType, i.pc, i.isStore, i.isBranch, i.instruction⟩

/-- The occupied slots are the circular window that starts at the head. -/
structure WellFormed (r : State w) : Prop where
  valid_iff : ∀ j, (r.robData j).valid = true ↔ InWindow r.headPtr r.count.toNat j
  tail_eq : r.tailPtr = r.headPtr + BitVec.ofNat w r.count.toNat
  count_le : r.count.toNat ≤ 2 ^ w
  completed_valid : ∀ j, (r.robData j).completed = true → (r.robData j).valid = true

section Edge

theorem nextEntry_valid (r : State w) (i : RobIn w) (j : BitVec w) :
    (nextEntry r i j).valid = if retires r i && j == r.headPtr then false
      else if accepts r i && j == r.tailPtr then true else (r.robData j).valid := by
  unfold nextEntry
  split_ifs <;> simp [released, completed, dispatched]

theorem nextEntry_completed (r : State w) (i : RobIn w) (j : BitVec w) :
    (nextEntry r i j).completed = if retires r i && j == r.headPtr then false
      else if completes r i && j == i.completeIdx then true
      else if accepts r i && j == r.tailPtr then i.dispatchException else (r.robData j).completed := by
  unfold nextEntry
  split_ifs <;> simp [released, completed, dispatched]

theorem nextEntry_exception (r : State w) (i : RobIn w) (j : BitVec w) :
    (nextEntry r i j).exception = if completes r i && j == i.completeIdx then i.exception
      else if accepts r i && j == r.tailPtr then i.dispatchException else (r.robData j).exception := by
  unfold nextEntry
  split_ifs <;> simp [released, completed, dispatched]

theorem nextEntry_payload (r : State w) (i : RobIn w) (j : BitVec w) :
    payload (nextEntry r i j) =
      if accepts r i && j == r.tailPtr then dispatchPayload i else payload (r.robData j) := by
  unfold nextEntry
  split_ifs <;> simp [released, completed, dispatched, payload, dispatchPayload]

/-- What a broadcast leaves in an entry besides completing it. -/
def outcome (e : RobEntry) : BitVec 64 × Bool × BitVec 32 := (e.result, e.branchMispredicted, e.branchTarget)

theorem nextEntry_outcome (r : State w) (i : RobIn w) (j : BitVec w) :
    outcome (nextEntry r i j) = if completes r i && j == i.completeIdx then
      (i.result, i.branchMispredicted, i.branchTarget) else outcome (r.robData j) := by
  unfold nextEntry
  split_ifs <;> simp [released, completed, dispatched, outcome]

theorem robTick_gated {r : State w} {i : RobIn w} (h : i.oooEn = false) : robTick r i = r := by
  simp [robTick, h]

theorem robTick_flush {r : State w} {i : RobIn w} (h : i.oooEn = true) (hf : i.flush = true) :
    robTick r i = ⟨fun j => released (r.robData j), 0, 0, 0⟩ := by
  simp [robTick, h, hf]

theorem robTick_step {r : State w} {i : RobIn w} (h : i.oooEn = true) (hf : i.flush = false) :
    robTick r i =
      { robData := nextEntry r i
        headPtr := if retires r i then r.headPtr + 1 else r.headPtr
        tailPtr := if accepts r i then r.tailPtr + 1 else r.tailPtr
        count := if accepts r i && !retires r i then r.count + 1
          else if !accepts r i && retires r i then r.count - 1 else r.count } := by
  simp [robTick, h, hf]

theorem robFull_iff (r : State w) : robFull r = true ↔ r.count.toNat = 2 ^ w := by
  have hlt : (2 : Nat) ^ w < 2 ^ (w + 1) := by rw [Nat.pow_succ]; have := Nat.two_pow_pos w; omega
  rw [robFull, beq_iff_eq, ← BitVec.toNat_inj, BitVec.toNat_ofNat, Nat.mod_eq_of_lt hlt]

theorem commitEn_iff (r : State w) :
    commitEn r = true ↔ 0 < r.count.toNat ∧ (headEntry r).valid = true ∧ (headEntry r).completed = true := by
  simp [commitEn, BitVec.ult, and_assoc]

theorem accepts_lt {r : State w} {i : RobIn w} (hr : WellFormed r) (h : accepts r i = true) :
    r.count.toNat < 2 ^ w := by
  have hfull : robFull r ≠ true := by simp_all [accepts]
  rw [ne_eq, robFull_iff] at hfull
  exact Nat.lt_of_le_of_ne hr.count_le hfull

theorem retires_pos {r : State w} {i : RobIn w} (h : retires r i = true) : 0 < r.count.toNat := by
  rw [retires, Bool.and_eq_true, commitEn_iff] at h
  exact h.1.1

/-- The counter follows the accepted and the retired entries as a natural
number: neither the increment nor the decrement wraps. -/
theorem count_step {r : State w} {i : RobIn w} (hr : WellFormed r) (h : i.oooEn = true) (hf : i.flush = false) :
    (robTick r i).count.toNat + (retires r i).toNat = r.count.toNat + (accepts r i).toNat := by
  have hone : (1 : BitVec (w + 1)).toNat = 1 := BitVec.toNat_one (by omega)
  rw [robTick_step h hf]
  cases ha : accepts r i <;> cases hc : retires r i
  · simp
  · have hpos := retires_pos hc
    simp only [Bool.not_false, Bool.not_true, Bool.and_self, Bool.false_eq_true, if_false, if_true,
      Bool.toNat_true, Bool.toNat_false]
    rw [BitVec.toNat_sub_of_le (by rw [BitVec.le_def, hone]; omega), hone]
    omega
  · have hlt := accepts_lt hr ha
    have hb : r.count.toNat + 1 < 2 ^ (w + 1) := by rw [Nat.pow_succ]; omega
    simp only [Bool.not_false, Bool.and_self, if_true, Bool.toNat_true, Bool.toNat_false]
    rw [BitVec.toNat_add, hone, Nat.mod_eq_of_lt hb]
  · simp

end Edge

theorem wellFormed_reset : WellFormed ({} : State w) where
  valid_iff j := by simp [not_inWindow_zero]
  tail_eq := by simp
  count_le := by simp
  completed_valid j := by simp

theorem wellFormed_flush (data : BitVec w → RobEntry) :
    WellFormed (⟨fun j => released (data j), 0, 0, 0⟩ : State w) where
  valid_iff j := by simp [released, not_inWindow_zero]
  tail_eq := by simp
  count_le := by simp
  completed_valid j := by simp [released]

/-- A slot that is both the tail and occupied exists only when the buffer is full. -/
theorem tail_free {r : State w} (hr : WellFormed r) (hlt : r.count.toNat < 2 ^ w) :
    (r.robData r.tailPtr).valid = false := by
  rw [Bool.eq_false_iff, ne_eq, hr.valid_iff, hr.tail_eq, inWindow_add hlt]
  omega

theorem head_ne_tail {r : State w} {i : RobIn w} (hr : WellFormed r) (ha : accepts r i = true)
    (hc : retires r i = true) : r.headPtr ≠ r.tailPtr := by
  intro he
  have hfree := tail_free hr (accepts_lt hr ha)
  have hhead := (hr.valid_iff r.headPtr).mpr (inWindow_head (retires_pos hc))
  rw [he, hfree] at hhead
  exact Bool.false_ne_true hhead

theorem window_step {r : State w} {i : RobIn w} (hr : WellFormed r) (h : i.oooEn = true) (hf : i.flush = false)
    (j : BitVec w) :
    InWindow (robTick r i).headPtr (robTick r i).count.toNat j ↔
      (InWindow r.headPtr r.count.toNat j ∨ (accepts r i = true ∧ j = r.tailPtr)) ∧
        ¬ (retires r i = true ∧ j = r.headPtr) := by
  have hcount := count_step hr h hf
  have hhead : (robTick r i).headPtr = if retires r i then r.headPtr + 1 else r.headPtr := by
    rw [robTick_step h hf]
  have hpush (ha : accepts r i = true) (j : BitVec w) : InWindow r.headPtr (r.count.toNat + 1) j ↔
      InWindow r.headPtr r.count.toNat j ∨ j = r.tailPtr := by
    rw [inWindow_succ (accepts_lt hr ha), hr.tail_eq]
  rw [hhead]
  cases ha : accepts r i <;> cases hc : retires r i <;>
    simp only [ha, hc, Bool.toNat_true, Bool.toNat_false, Nat.add_zero] at hcount <;>
    simp only [Bool.false_eq_true, if_true, if_false, false_and, true_and, or_false, not_false_eq_true, and_true]
  · rw [hcount]
  · have hle := hr.count_le
    have hpop := inWindow_pop (h := r.headPtr) (j := j) (n := (robTick r i).count.toNat) (by omega)
    rwa [hcount] at hpop
  · rw [hcount, hpush ha]
  · have hlt := accepts_lt hr ha
    have hsame : (robTick r i).count.toNat = r.count.toNat := by omega
    rw [hsame, inWindow_pop (by omega), hpush ha]

theorem tail_step {r : State w} (hr : WellFormed r) {i : RobIn w} (h : i.oooEn = true) (hf : i.flush = false) :
    (robTick r i).tailPtr = (robTick r i).headPtr + BitVec.ofNat w (robTick r i).count.toNat := by
  have hcount := count_step hr h hf
  have hhead : (robTick r i).headPtr = if retires r i then r.headPtr + 1 else r.headPtr := by
    rw [robTick_step h hf]
  have htail : (robTick r i).tailPtr = if accepts r i then r.tailPtr + 1 else r.tailPtr := by
    rw [robTick_step h hf]
  have hsum := congrArg (BitVec.ofNat w) hcount
  rw [BitVec.ofNat_add, BitVec.ofNat_add] at hsum
  have hone (b : Bool) (x : BitVec w) : (if b then x + 1 else x) = x + BitVec.ofNat w b.toNat := by
    cases b <;> simp
  rw [hhead, htail, hone, hone, hr.tail_eq, add_assoc, add_assoc, add_comm (BitVec.ofNat w (retires r i).toNat), hsum]

theorem wellFormed_step {r : State w} (hr : WellFormed r) (i : RobIn w) : WellFormed (robTick r i) := by
  cases h : i.oooEn with
  | false => rwa [robTick_gated h]
  | true =>
      cases hf : i.flush with
      | true =>
          rw [robTick_flush h hf]
          exact wellFormed_flush r.robData
      | false =>
          have hwin := window_step hr h hf
          have hcount := count_step hr h hf
          have hdata : (robTick r i).robData = nextEntry r i := by rw [robTick_step h hf]
          refine ⟨fun j => ?_, ?_, ?_, fun j hj => ?_⟩
          · rw [hdata, hwin, ← hr.valid_iff, nextEntry_valid]
            simp only [Bool.and_eq_true, beq_iff_eq]
            by_cases hret : retires r i = true ∧ j = r.headPtr
            · simp only [hret, and_self, if_true, not_true_eq_false, and_false, Bool.false_eq_true]
            · rw [if_neg hret, and_iff_left hret]
              by_cases hacc : accepts r i = true ∧ j = r.tailPtr <;> simp [hacc]
          · exact tail_step hr h hf
          · have hle := hr.count_le
            cases ha : accepts r i with
            | false => simp only [ha, Bool.toNat_false] at hcount; omega
            | true =>
                have hlt := accepts_lt hr ha
                simp only [ha, Bool.toNat_true] at hcount
                omega
          · rw [hdata] at hj ⊢
            rw [nextEntry_completed] at hj
            rw [nextEntry_valid]
            by_cases hret : (retires r i && j == r.headPtr) = true
            · simp [hret] at hj
            · by_cases hacc : (accepts r i && j == r.tailPtr) = true
              · rw [if_neg hret, if_pos hacc]
              · rw [if_neg hret, if_neg hacc]
                by_cases hcomp : (completes r i && j == i.completeIdx) = true
                · simp only [completes, Bool.and_eq_true, beq_iff_eq] at hcomp
                  rw [hcomp.2]
                  exact hcomp.1.2
                · rw [if_neg hret, if_neg hcomp, if_neg hacc] at hj
                  exact hr.completed_valid j hj

section Fifo

/-- The queue the buffer stands for, oldest entry first. -/
def queue (r : State w) : List Payload := contents (fun j => payload (r.robData j)) r.headPtr r.count.toNat

def dispatches (r : State w) (i : RobIn w) : List Payload := if accepts r i then [dispatchPayload i] else []

def commits (r : State w) (i : RobIn w) : List Payload := if retires r i then [payload (headEntry r)] else []

theorem contents_nextEntry {r : State w} (hr : WellFormed r) (i : RobIn w) :
    contents (fun j => payload (nextEntry r i j)) r.headPtr (r.count.toNat + (accepts r i).toNat) =
      queue r ++ dispatches r i := by
  cases ha : accepts r i with
  | false =>
      have hsame : (fun j => payload (nextEntry r i j)) = fun j => payload (r.robData j) := by
        funext j
        simp [nextEntry_payload, ha]
      simp [hsame, queue, dispatches, ha]
  | true =>
      have hlt := accepts_lt hr ha
      have hold : ∀ j, InWindow r.headPtr r.count.toNat j → payload (nextEntry r i j) = payload (r.robData j) := by
        intro j hj
        have hne : j ≠ r.tailPtr := by
          rintro rfl
          rw [hr.tail_eq, inWindow_add hlt] at hj
          exact Nat.lt_irrefl _ hj
        simp [nextEntry_payload, hne]
      rw [Bool.toNat_true, contents_push, contents_congr hr.count_le hold, ← hr.tail_eq, nextEntry_payload]
      simp [queue, dispatches, ha]

theorem nextEntry_headPtr {r : State w} {i : RobIn w} (hr : WellFormed r) (hc : retires r i = true) :
    payload (nextEntry r i r.headPtr) = payload (headEntry r) := by
  rw [nextEntry_payload]
  cases ha : accepts r i with
  | false => rfl
  | true => simp [head_ne_tail hr ha hc, headEntry]

theorem queue_step {r : State w} (hr : WellFormed r) {i : RobIn w} (h : i.oooEn = true) (hf : i.flush = false) :
    queue r ++ dispatches r i = commits r i ++ queue (robTick r i) := by
  have hcount := count_step hr h hf
  rw [← contents_nextEntry hr i, ← hcount, commits, queue]
  have hdata : (robTick r i).robData = nextEntry r i := by rw [robTick_step h hf]
  have hhead : (robTick r i).headPtr = if retires r i then r.headPtr + 1 else r.headPtr := by
    rw [robTick_step h hf]
  rw [hdata, hhead]
  cases hc : retires r i with
  | false => rfl
  | true => rw [Bool.toNat_true, contents_pop, nextEntry_headPtr hr hc]; rfl

theorem commits_oldest (r : State w) (i : RobIn w) : commits r i <+: queue r := by
  cases hc : retires r i with
  | false => simp [commits, hc]
  | true =>
      obtain ⟨n, hn⟩ := Nat.exists_eq_succ_of_ne_zero (Nat.ne_of_gt (retires_pos hc))
      rw [commits, queue, hn, contents_pop]
      exact ⟨_, by rw [hc]; rfl⟩

variable (ins : Nat → RobIn w)

/-- The buffer after `n` cycles from reset under the inputs `ins`. -/
def robRun : Nat → State w
  | 0 => {}
  | n + 1 => robTick (robRun n) (ins n)

/-- The log of one kind of event since the last flush. -/
def logSinceFlush (event : State w → RobIn w → List Payload) : Nat → List Payload
  | 0 => []
  | n + 1 => if !(ins n).oooEn then logSinceFlush event n
    else if (ins n).flush then [] else logSinceFlush event n ++ event (robRun ins n) (ins n)

def accepted : Nat → List Payload := logSinceFlush ins dispatches

def committed : Nat → List Payload := logSinceFlush ins commits

theorem wellFormed_robRun (n : Nat) : WellFormed (robRun ins n) := by
  induction n with
  | zero => exact wellFormed_reset
  | succ n ih => exact wellFormed_step ih (ins n)

theorem accepted_eq (n : Nat) : accepted ins n = committed ins n ++ queue (robRun ins n) := by
  induction n with
  | zero => rfl
  | succ n ih =>
      have hr := wellFormed_robRun ins n
      simp only [accepted, committed, logSinceFlush, robRun] at ih ⊢
      cases h : (ins n).oooEn with
      | false => simpa [robTick_gated h] using ih
      | true =>
          cases hf : (ins n).flush with
          | true => simp [robTick_flush h hf, queue, contents, slots]
          | false =>
              simp only [Bool.not_true, Bool.false_eq_true, if_false]
              rw [ih, List.append_assoc, queue_step hr h hf, List.append_assoc]

/-- The commit of the current cycle counts as well, also when that cycle is
the one that flushes the buffer. -/
theorem rob_bounded_fifo (n : Nat) :
    WellFormed (robRun ins n) ∧
      (retires (robRun ins n) (ins n)).toNat ≤ (robRun ins n).count.toNat ∧
      (robRun ins (n + 1)).count.toNat =
        (if !(ins n).oooEn then (robRun ins n).count.toNat else if (ins n).flush then 0
          else (robRun ins n).count.toNat + (accepts (robRun ins n) (ins n)).toNat -
            (retires (robRun ins n) (ins n)).toNat) ∧
      committed ins n ++ commits (robRun ins n) (ins n) <+: accepted ins n := by
  have hr := wellFormed_robRun ins n
  refine ⟨hr, ?_, ?_, ?_⟩
  · cases hc : retires (robRun ins n) (ins n) with
    | false => exact Nat.zero_le _
    | true => exact retires_pos hc
  · rw [robRun]
    cases h : (ins n).oooEn with
    | false => simp [robTick_gated h]
    | true =>
        cases hf : (ins n).flush with
        | true => simp [robTick_flush h hf]
        | false =>
            have hcount := count_step hr h hf
            simp only [Bool.not_true, Bool.false_eq_true, if_false]
            omega
  · rw [accepted_eq]
    exact (List.prefix_append_right_inj _).mpr (commits_oldest _ _)

end Fifo

end VMate.RobFifo
