import VMate.RobFifo

namespace VMate.RobOutcome

open Rob RobFifo

variable {w : Nat}

section Run

variable (ins : Nat → RobIn w)

/-- The edge of cycle `c` stores a completion in slot `j`. -/
def completesAt (c : Nat) (j : BitVec w) : Bool :=
  (ins c).oooEn && !(ins c).flush && completes (robRun ins c) (ins c) && j == (ins c).completeIdx

/-- The cycle in which the instruction in slot `j` was dispatched. -/
def occupant (j : BitVec w) : Nat → Option Nat
  | 0 => none
  | n + 1 =>
    if !(ins n).oooEn then occupant j n
    else if (ins n).flush then none
    else if retires (robRun ins n) (ins n) && j == (robRun ins n).headPtr then none
    else if accepts (robRun ins n) (ins n) && j == (robRun ins n).tailPtr then some n
    else occupant j n

/-- The last cycle before `n` that stored a completion in slot `j`. -/
def lastCompletion (j : BitVec w) : Nat → Option Nat
  | 0 => none
  | n + 1 => if completesAt ins n j then some n else lastCompletion j n

end Run

section Step

variable {ins : Nat → RobIn w} {n d c : Nat} {j : BitVec w}

theorem robRun_data (h : (ins n).oooEn = true) (hf : (ins n).flush = false) (j : BitVec w) :
    (robRun ins (n + 1)).robData j = nextEntry (robRun ins n) (ins n) j := by
  rw [robRun, robTick_step h hf]

theorem completesAt_clocked (h : (ins n).oooEn = true) (hf : (ins n).flush = false) (j : BitVec w) :
    completesAt ins n j = (completes (robRun ins n) (ins n) && j == (ins n).completeIdx) := by
  simp [completesAt, h, hf]

theorem lastCompletion_spec (h : lastCompletion ins j n = some c) :
    c < n ∧ completesAt ins c j = true ∧ ∀ x, c < x → x < n → completesAt ins x j = false := by
  induction n with
  | zero => simp [lastCompletion] at h
  | succ n ih =>
      rw [lastCompletion] at h
      cases hc : completesAt ins n j with
      | true =>
          rw [hc, if_pos rfl, Option.some.injEq] at h
          subst h
          exact ⟨Nat.lt_succ_self n, hc, fun x hx hlt => by omega⟩
      | false =>
          rw [hc, if_neg Bool.false_ne_true] at h
          obtain ⟨hlt, hcc, hno⟩ := ih h
          refine ⟨Nat.lt_succ_of_lt hlt, hcc, fun x hx hxn => ?_⟩
          rcases Nat.lt_succ_iff_lt_or_eq.mp hxn with hxn | rfl
          · exact hno x hx hxn
          · exact hc

theorem lastCompletion_none (h : lastCompletion ins j n = none) (hc : c < n) : completesAt ins c j = false := by
  induction n with
  | zero => omega
  | succ n ih =>
      rw [lastCompletion] at h
      cases hn : completesAt ins n j with
      | true => simp [hn] at h
      | false =>
          rw [hn, if_neg Bool.false_ne_true] at h
          rcases Nat.lt_succ_iff_lt_or_eq.mp hc with hc | rfl
          · exact ih h hc
          · exact hn

variable (ins) in
/-- A slot shows what its last completion stored, whoever that was for. -/
theorem outcome_run (n : Nat) (j : BitVec w) :
    outcome ((robRun ins n).robData j) = match lastCompletion ins j n with
      | some c => ((ins c).result, (ins c).branchMispredicted, (ins c).branchTarget)
      | none => (0, false, 0) := by
  induction n with
  | zero => rfl
  | succ n ih =>
      rw [lastCompletion]
      cases h : (ins n).oooEn with
      | false =>
          have hc : completesAt ins n j = false := by simp [completesAt, h]
          rw [robRun, robTick_gated h, hc, if_neg Bool.false_ne_true, ih]
      | true =>
          cases hf : (ins n).flush with
          | true =>
              have hc : completesAt ins n j = false := by simp [completesAt, hf]
              rw [robRun, robTick_flush h hf, hc, if_neg Bool.false_ne_true, ← ih]
              rfl
          | false =>
              rw [robRun_data h hf, nextEntry_outcome, ih, completesAt_clocked h hf]
              split_ifs <;> rfl

theorem valid_iff_occupant (n : Nat) (j : BitVec w) :
    ((robRun ins n).robData j).valid = true ↔ (occupant ins j n).isSome = true := by
  induction n with
  | zero => simp [robRun, occupant]
  | succ n ih =>
      rw [occupant]
      cases h : (ins n).oooEn with
      | false => simpa [robRun, robTick_gated h] using ih
      | true =>
          cases hf : (ins n).flush with
          | true => simp [robRun, robTick_flush h hf, released]
          | false =>
              rw [robRun_data h hf, nextEntry_valid]
              simp only [Bool.not_true, Bool.false_eq_true, if_false]
              split_ifs
              · simp
              · simp
              · exact ih

/-- What one cycle can do to a slot that is occupied after it. -/
theorem occupant_step (h : occupant ins j (n + 1) = some d) :
    ((ins n).oooEn = false ∧ occupant ins j n = some d) ∨
    ((ins n).oooEn = true ∧ (ins n).flush = false ∧
      (retires (robRun ins n) (ins n) && j == (robRun ins n).headPtr) = false ∧
      ((d = n ∧ accepts (robRun ins n) (ins n) = true ∧ j = (robRun ins n).tailPtr) ∨
        ((accepts (robRun ins n) (ins n) && j == (robRun ins n).tailPtr) = false ∧ occupant ins j n = some d))) := by
  rw [occupant] at h
  cases he : (ins n).oooEn with
  | false => exact .inl ⟨rfl, by simpa [he] using h⟩
  | true =>
      cases hf : (ins n).flush with
      | true => simp [he, hf] at h
      | false =>
          simp only [he, hf, Bool.not_true, Bool.false_eq_true, if_false] at h
          split_ifs at h with hr ha
          · rw [Option.some.injEq] at h
            simp only [Bool.and_eq_true, beq_iff_eq] at ha
            exact .inr ⟨rfl, rfl, by simpa using hr, .inl ⟨h.symm, ha.1, ha.2⟩⟩
          · exact .inr ⟨rfl, rfl, by simpa using hr, .inr ⟨by simpa using ha, h⟩⟩

theorem occupant_lt (h : occupant ins j n = some d) : d < n := by
  induction n with
  | zero => simp [occupant] at h
  | succ n ih =>
      rcases occupant_step h with ⟨-, ho⟩ | ⟨-, -, -, ⟨rfl, -⟩ | ⟨-, ho⟩⟩
      · exact Nat.lt_succ_of_lt (ih ho)
      · exact Nat.lt_succ_self _
      · exact Nat.lt_succ_of_lt (ih ho)

/-- No completion reaches the slot in the cycle of its dispatch: it was free. -/
theorem not_completes_tail (ha : accepts (robRun ins d) (ins d) = true) :
    completesAt ins d (robRun ins d).tailPtr = false := by
  have hr := wellFormed_robRun ins d
  have hfree := tail_free hr (accepts_lt hr ha)
  rw [Bool.eq_false_iff]
  intro hc
  simp only [completesAt, completes, Bool.and_eq_true, beq_iff_eq] at hc
  rw [hc.2, hc.1.2.2] at hfree
  cases hfree

theorem not_completes_dispatch (h : occupant ins j n = some d) : completesAt ins d j = false := by
  induction n with
  | zero => simp [occupant] at h
  | succ n ih =>
      rcases occupant_step h with ⟨-, ho⟩ | ⟨-, -, -, ⟨rfl, ha, rfl⟩ | ⟨-, ho⟩⟩
      · exact ih ho
      · exact not_completes_tail ha
      · exact ih ho

/-- A completed entry was completed at dispatch, or through the port since. -/
theorem completed_by (h : occupant ins j n = some d) (hc : ((robRun ins n).robData j).completed = true) :
    (ins d).dispatchException = true ∨ ∃ c, d < c ∧ c < n ∧ completesAt ins c j = true := by
  induction n with
  | zero => simp [occupant] at h
  | succ n ih =>
      have hmono : ((ins d).dispatchException = true ∨ ∃ c, d < c ∧ c < n ∧ completesAt ins c j = true) →
          (ins d).dispatchException = true ∨ ∃ c, d < c ∧ c < n + 1 ∧ completesAt ins c j = true := by
        rintro (he | ⟨c, hdc, hcn, hcc⟩)
        · exact .inl he
        · exact .inr ⟨c, hdc, Nat.lt_succ_of_lt hcn, hcc⟩
      rcases occupant_step h with ⟨he, ho⟩ | ⟨he, hf, hret, hrest⟩
      · rw [robRun, robTick_gated he] at hc
        exact hmono (ih ho hc)
      · rw [robRun_data he hf, nextEntry_completed, hret, ← completesAt_clocked he hf] at hc
        simp only [Bool.false_eq_true, if_false] at hc
        rcases hrest with ⟨rfl, ha, rfl⟩ | ⟨hna, ho⟩
        · simp only [not_completes_tail ha, ha, beq_self_eq_true, Bool.and_self, Bool.false_eq_true,
            if_false, if_true] at hc
          exact .inl hc
        · cases hcn : completesAt ins n j with
          | true => exact .inr ⟨n, occupant_lt ho, Nat.lt_succ_self n, hcn⟩
          | false =>
              rw [hcn, hna] at hc
              simp only [Bool.false_eq_true, if_false] at hc
              exact hmono (ih ho hc)

theorem occupied_of_commitEn (h : commitEn (robRun ins n) = true) :
    ∃ d, occupant ins (robRun ins n).headPtr n = some d := by
  rw [commitEn_iff] at h
  exact Option.isSome_iff_exists.mp ((valid_iff_occupant n _).mp h.2.1)

end Step

/-- What the commit port shows in cycle `n` belongs to the instruction that
commits: a misprediction is the one its last completion reported, with the
target and the result of that completion, and nothing shown was stored before
its dispatch. -/
structure OwnOutcome (ins : Nat → RobIn w) (n : Nat) (d : Nat) : Prop where
  mispredicted : (headEntry (robRun ins n)).branchMispredicted = true →
    ∃ c, d < c ∧ lastCompletion ins (robRun ins n).headPtr n = some c ∧ (ins c).branchMispredicted = true ∧
      (headEntry (robRun ins n)).branchTarget = (ins c).branchTarget ∧
      (headEntry (robRun ins n)).result = (ins c).result
  notStale : ∀ c, lastCompletion ins (robRun ins n).headPtr n = some c → d < c

/-- The instruction dispatched in cycle `d` and now at the head was not
completed by its dispatch, or was completed through the port as well, or sits
in a slot that no completion reached before it. -/
def freshOutcome (ins : Nat → RobIn w) (n : Nat) (d : Nat) : Prop :=
  (ins d).dispatchException = false ∨
    (∃ c, d < c ∧ c < n ∧ completesAt ins c (robRun ins n).headPtr = true) ∨
    ∀ c, c < d → completesAt ins c (robRun ins n).headPtr = false

section Commit

variable {ins : Nat → RobIn w} {n d : Nat}

theorem ownOutcome_of_notStale
    (h : ∀ c, lastCompletion ins (robRun ins n).headPtr n = some c → d < c) : OwnOutcome ins n d := by
  refine ⟨fun hm => ?_, h⟩
  have hout := outcome_run ins n (robRun ins n).headPtr
  cases hl : lastCompletion ins (robRun ins n).headPtr n with
  | none =>
      simp only [hl, outcome, Prod.mk.injEq] at hout
      simp [headEntry, hout.2.1] at hm
  | some c =>
      simp only [hl, outcome, Prod.mk.injEq] at hout
      exact ⟨c, h c hl, rfl, hout.2.1 ▸ hm, hout.2.2, hout.1⟩

theorem notStale_iff (hd : occupant ins (robRun ins n).headPtr n = some d)
    (hc : commitEn (robRun ins n) = true) :
    (∀ c, lastCompletion ins (robRun ins n).headPtr n = some c → d < c) ↔ freshOutcome ins n d := by
  have hdn := occupant_lt hd
  constructor
  · intro h
    cases hl : lastCompletion ins (robRun ins n).headPtr n with
    | none => exact .inr (.inr fun c hcd => lastCompletion_none hl (hcd.trans hdn))
    | some c =>
        obtain ⟨hcn, hcc, -⟩ := lastCompletion_spec hl
        exact .inr (.inl ⟨c, h c hl, hcn, hcc⟩)
  · intro h c hl
    obtain ⟨hcn, hcc, hlast⟩ := lastCompletion_spec hl
    have hport : (∃ x, d < x ∧ x < n ∧ completesAt ins x (robRun ins n).headPtr = true) → d < c := by
      rintro ⟨x, hdx, hxn, hx⟩
      by_contra hle
      rw [hlast x (by omega) hxn] at hx
      cases hx
    rcases h with hex | hx | hno
    · rcases completed_by hd ((commitEn_iff _).mp hc).2.2 with he | hx
      · simp [hex] at he
      · exact hport hx
    · exact hport hx
    · rcases lt_trichotomy c d with hlt | rfl | hgt
      · rw [hno c hlt] at hcc
        cases hcc
      · rw [not_completes_dispatch hd] at hcc
        cases hcc
      · exact hgt

end Commit

/-- At a commit the port shows the instruction's own outcome exactly unless
the instruction was completed by its dispatch alone and an earlier occupant
of the slot had been completed. -/
theorem commit_own_outcome (ins : Nat → RobIn w) (n : Nat) (hc : commitEn (robRun ins n) = true) :
    ∃ d, occupant ins (robRun ins n).headPtr n = some d ∧ (OwnOutcome ins n d ↔ freshOutcome ins n d) := by
  obtain ⟨d, hd⟩ := occupied_of_commitEn hc
  refine ⟨d, hd, ?_⟩
  rw [← notStale_iff hd hc]
  exact ⟨fun h => h.notStale, ownOutcome_of_notStale⟩

/-- A branch is dispatched, completes as mispredicted and flushes the buffer
at its commit; an instruction with a decode exception then takes its slot. -/
def staleInputs (n : Nat) : RobIn 4 :=
  { oooEn := true, dispatchEn := n == 0 || n == 3, destReg := 0, destType := false, pc := 0, isStore := false
    isBranch := n == 0, instruction := 0, dispatchException := n == 3, dispatchExceptionCause := 2
    completeEn := n == 1, completeIdx := 0, result := 0, exception := false, exceptionCause := 0
    branchMispredicted := true, branchTarget := 0x100, commitAck := true, flush := n == 2 }

theorem commit_own_outcome_branch :
    commitEn (robRun staleInputs 2) = true ∧ ∃ d, occupant staleInputs (robRun staleInputs 2).headPtr 2 = some d ∧
      (OwnOutcome staleInputs 2 d ↔ freshOutcome staleInputs 2 d) :=
  ⟨by decide, commit_own_outcome staleInputs 2 (by decide)⟩

/-- The trapping instruction commits with the branch's misprediction. -/
theorem commit_stale_outcome :
    commitEn (robRun staleInputs 4) = true ∧ occupant staleInputs (robRun staleInputs 4).headPtr 4 = some 3 ∧
      (headEntry (robRun staleInputs 4)).branchMispredicted = true ∧
      (headEntry (robRun staleInputs 4)).branchTarget = 0x100 ∧
      (∀ c, 3 < c → c < 4 → completesAt staleInputs c (robRun staleInputs 4).headPtr = false) ∧
      ¬ OwnOutcome staleInputs 4 3 := by
  refine ⟨by decide, by decide, by decide, by decide, fun c _ _ => by omega, ?_⟩
  intro h
  have hlt := h.notStale 1 (by decide)
  omega

end VMate.RobOutcome
