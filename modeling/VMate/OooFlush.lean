import VMate.OooTrap

namespace VMate.OooFlush

open Decode Pipe Hazard RiscvTop StageCtrl RobFifo OooTrap

variable {imem : Imem} {o : OpenNets} {s : State}

section Redirect

/-- Where a flush has to send the program counter. -/
def flushTarget (s : State) : BitVec 32 :=
  if finalException s then s.csr.mtvecReg
  else if finalMretExec s then s.csr.mepcReg
  else (commitEntry s).branchTarget

/-- The program counter input that a flush really selects delivers the
target: without a redirect it is the sequential one, and with a redirect both
drivers of the net have to agree. -/
def TargetDriven (s : State) : Prop :=
  if finalException s then
    if finalPcSel s then pcTargetEx s = s.csr.mtvecReg ∧ (commitEntry s).branchTarget = s.csr.mtvecReg
    else s.pc + 4#32 = s.csr.mtvecReg
  else finalMretExec s = true ∨ pcTargetEx s = (commitEntry s).branchTarget

theorem resolve_forall_iff (a b c : BitVec 32) : (∀ u, resolve a b u = c) ↔ a = c ∧ b = c := by
  constructor
  · intro h
    have hbit : ∀ i < 32, a.getLsbD i = c.getLsbD i ∧ b.getLsbD i = c.getLsbD i := by
      intro i hi
      have hc := congrArg (BitVec.getLsbD · i) (h (~~~c))
      simp only [resolve, BitVec.getLsbD_or, BitVec.getLsbD_and, BitVec.getLsbD_xor, BitVec.getLsbD_not] at hc
      revert hc
      cases a.getLsbD i <;> cases b.getLsbD i <;> cases c.getLsbD i <;> simp [hi]
    exact ⟨BitVec.eq_of_getLsbD_eq fun i hi => (hbit i hi).1, BitVec.eq_of_getLsbD_eq fun i hi => (hbit i hi).2⟩
  · rintro ⟨rfl, rfl⟩ u
    simp [resolve]

theorem hazardUnit_stallPc (h : HazardIn) :
    (hazardUnit h).stallPc = (!(h.exceptionMem || h.mretExecMem || h.pcSelEx) &&
      (intLoadUse h || fpLoadUse h || csrHazard h || fflagsHazard h)) := by
  unfold hazardUnit
  cases h.exceptionMem || h.mretExecMem <;> cases h.pcSelEx <;>
    cases intLoadUse h || fpLoadUse h || csrHazard h || fflagsHazard h <;> rfl

theorem stallPc_of_finalFlush (hooo : oooEn s = true) (h : finalFlush s = true) : stallPc s = false := by
  have hdisp : stallDispatch s = false := by
    simp [stallDispatch, validInstIdNoStall, flushIdEx_of_finalFlush hooo h]
  have hcause : (finalException s || finalMretExec s || finalPcSel s) = true := by
    simp only [finalFlush, finalPcSel, hooo, Bool.true_and, if_true] at h ⊢
    cases he : finalException s <;> cases hm : finalMretExec s <;> simp_all
  rw [stallPc, hdisp, Bool.or_false, hazard, hazardUnit_stallPc]
  simp only [hazardIn, hcause]
  rfl

theorem decode_mret (fs : BitVec 2) (rm : BitVec 3) : (decode 0x30200073#32 fs rm).exception = false := rfl

theorem finalMretExec_of_finalException (h : TrapInv s) (hooo : oooEn s = true) (he : finalException s = true) :
    finalMretExec s = false := by
  rw [Bool.eq_false_iff]
  intro hm
  simp only [finalMretExec, hooo, if_true, Bool.and_eq_true] at hm
  obtain ⟨hcommit, hmret⟩ := hm
  simp only [finalException, hooo, if_true] at he
  obtain ⟨-, -, fs, rm, hdec⟩ := h.entry _ ((commitEn_iff s.rob).mp hcommit).2.1 he
  have hinst : (s.rob.robData s.rob.headPtr).instruction = 0x30200073#32 := beq_iff_eq.mp hmret
  rw [hinst, decode_mret] at hdec
  cases hdec

theorem pcTick_flush (h : TrapInv s) (hooo : oooEn s = true) (hf : finalFlush s = true) :
    pcTick o s = if finalMretExec s then s.csr.mepcReg
      else if finalPcSel s then resolve (pcTargetEx s) (commitEntry s).branchTarget o.contended else s.pc + 4#32 := by
  simp only [pcTick, h.mem hooo, stallPc_of_finalFlush hooo hf, finalPcTarget, hooo, Bool.false_eq_true, if_false,
    if_true]

theorem finalPcSel_of_finalFlush (hooo : oooEn s = true) (hf : finalFlush s = true) (he : finalException s = false)
    (hm : finalMretExec s = false) : finalPcSel s = true := by
  simpa [finalFlush, finalPcSel, hooo, he, hm] using hf

/-- Neither a trap nor a taken branch is sure of its target: `final_exception`
does not reach the PC, and the redirect net is also driven from EX. -/
theorem flush_target_iff (imem : Imem) (p : PowerUp) (o : Nat → OpenNets) (n : Nat)
    (hooo : oooEn (run imem p o n) = true) (hf : finalFlush (run imem p o n) = true) :
    (∀ u, (tick imem u (run imem p o n)).pc = flushTarget (run imem p o n)) ↔ TargetDriven (run imem p o n) := by
  have h := trapInv_run imem p o n
  generalize run imem p o n = s at hooo hf h ⊢
  have hresolve (c : BitVec 32) : (∀ u : OpenNets, resolve (pcTargetEx s) (commitEntry s).branchTarget u.contended = c) ↔
      pcTargetEx s = c ∧ (commitEntry s).branchTarget = c := by
    rw [← resolve_forall_iff]
    exact ⟨fun hu u => hu ⟨0, u⟩, fun hu u => hu u.contended⟩
  change (∀ u, pcTick u s = _) ↔ _
  simp only [pcTick_flush h hooo hf, flushTarget, TargetDriven]
  cases he : finalException s with
  | true =>
      rw [finalMretExec_of_finalException h hooo he]
      cases hsel : finalPcSel s with
      | true => simpa using hresolve _
      | false => exact ⟨fun hu => by simpa using hu zeroNets, fun hu _ => by simpa using hu⟩
  | false =>
      cases hm : finalMretExec s with
      | true => simp
      | false =>
          rw [finalPcSel_of_finalFlush hooo hf he hm]
          simpa using hresolve (commitEntry s).branchTarget

/-- OoO mode is switched on, then the given instruction follows. -/
def oooImage (i : BitVec 32) : Imem := imageOf [csrOooOn, i]

theorem flush_target_mret :
    finalFlush (run (oooImage 0x30200073#32) zeroPowerUp (fun _ => zeroNets) 6) = true ∧
      ∀ u, (tick (oooImage 0x30200073#32) u (run (oooImage 0x30200073#32) zeroPowerUp (fun _ => zeroNets) 6)).pc =
        flushTarget (run (oooImage 0x30200073#32) zeroPowerUp (fun _ => zeroNets) 6) :=
  ⟨by decide +kernel,
    (flush_target_iff (oooImage 0x30200073#32) zeroPowerUp (fun _ => zeroNets) 6 (by decide +kernel)
      (by decide +kernel)).mpr (by unfold TargetDriven; decide +kernel)⟩

/-- `ecall` is recorded as a trap and execution goes on behind it. -/
theorem not_flush_target_ecall :
    oooEn (run (oooImage 0x00000073#32) zeroPowerUp (fun _ => zeroNets) 5) = true ∧
      finalFlush (run (oooImage 0x00000073#32) zeroPowerUp (fun _ => zeroNets) 5) = true ∧
      (tick (oooImage 0x00000073#32) zeroNets (run (oooImage 0x00000073#32) zeroPowerUp (fun _ => zeroNets) 5)).pc ≠
        flushTarget (run (oooImage 0x00000073#32) zeroPowerUp (fun _ => zeroNets) 5) := by
  decide +kernel

end Redirect

section Spurious

variable (imem : Imem) (p : PowerUp) (o : Nat → OpenNets)

/-- Whether the last instruction dispatched into slot `j` raised an exception. -/
def lastTrap : Nat → BitVec 4 → Bool
  | 0, _ => false
  | n + 1, j =>
      if dispatchEn (run imem p o n) && j == robIdxDisp (run imem p o n) then (ctrlId (run imem p o n)).exception
      else lastTrap n j

theorem exception_eq_lastTrap (n : Nat) (j : BitVec 4) :
    ((run imem p o n).rob.robData j).exception = lastTrap imem p o n j := by
  induction n with
  | zero => rfl
  | succ n ih =>
      have h := trapInv_run imem p o n
      rw [lastTrap, ← ih]
      change ((tick imem (o n) (run imem p o n)).rob.robData j).exception = _
      generalize run imem p o n = s at h ⊢
      cases hooo : oooEn s with
      | false => simp [rob_tick_inOrder hooo, dispatchEn, hooo]
      | true =>
          cases hf : finalFlush s with
          | true => simp [rob_tick_flush hooo hf, dispatchEn_of_finalFlush hooo hf, Rob.released]
          | false =>
              rw [rob_tick_data hooo hf, nextEntry_exception, accepts_robIn]
              have hexc : (robIn (o n) s).exception = false := cdbException_eq h hooo hf
              by_cases hcomp : (Rob.completes s.rob (robIn (o n) s) && j == (robIn (o n) s).completeIdx) = true
              · rw [if_pos hcomp, hexc, eq_comm]
                have hdisp : (dispatchEn s && j == robIdxDisp s) = false := by
                  rw [Bool.eq_false_iff]
                  intro hd
                  simp only [Bool.and_eq_true, beq_iff_eq] at hd
                  obtain ⟨hd, rfl⟩ := hd
                  rw [robIdxDisp, completes_ne_tail h.wf hd] at hcomp
                  cases hcomp
                rw [hdisp, if_neg Bool.false_ne_true, Bool.eq_false_iff]
                intro he
                simp only [Rob.completes, Bool.and_eq_true, beq_iff_eq] at hcomp
                obtain ⟨⟨-, hvalid⟩, hj⟩ := hcomp
                rw [← hj] at hvalid
                obtain ⟨rfl, -⟩ := h.entry j hvalid he
                rw [finalFlush_of_exception hooo he] at hf
                cases hf
              · rw [if_neg hcomp]
                rfl

/-- A trap in OoO mode belongs to an instruction that commits now and
trapped when it was dispatched. -/
def TrapGenuine (n : Nat) : Prop :=
  finalException (run imem p o n) = true →
    commitEn (run imem p o n) = true ∧ lastTrap imem p o n (robHead (run imem p o n)) = true

/-- No trapped instruction has left its exception bit in the slot at the head
of an empty buffer. -/
def HeadClean (n : Nat) : Prop :=
  robEmpty (run imem p o n) = true → lastTrap imem p o n (robHead (run imem p o n)) = false

theorem commitEn_of_exception {s : State} (h : TrapInv s) (hne : robEmpty s = false)
    (he : (commitEntry s).exception = true) : commitEn s = true := by
  have hpos : 0 < s.rob.count.toNat := by
    rcases Nat.eq_zero_or_pos s.rob.count.toNat with hz | hpos
    · have htail := h.wf.tail_eq
      rw [hz] at htail
      have hfull : RiscvTop.robFull s = false := by
        rw [Bool.eq_false_iff]
        intro hf
        have := (robFull_iff s.rob).mp hf
        omega
      simp [robEmpty, robHead, robIdxDisp, htail, hfull] at hne
    · exact hpos
  have hvalid : (commitEntry s).valid = true := (h.wf.valid_iff _).mpr (Circular.inWindow_head hpos)
  exact (commitEn_iff s.rob).mpr ⟨hpos, hvalid, (h.entry _ hvalid he).2.1⟩

theorem trapGenuine_iff (n : Nat) (hooo : oooEn (run imem p o n) = true) :
    TrapGenuine imem p o n ↔ HeadClean imem p o n := by
  have h := trapInv_run imem p o n
  have hexc : finalException (run imem p o n) = lastTrap imem p o n (robHead (run imem p o n)) := by
    rw [← exception_eq_lastTrap, finalException, hooo, if_pos rfl]
    rfl
  rw [TrapGenuine, HeadClean, hexc]
  constructor
  · intro hg hempty
    rw [Bool.eq_false_iff]
    intro htrap
    have hcommit := (hg htrap).1
    rw [commitEn_of_count_zero (count_of_robEmpty h.wf hempty)] at hcommit
    cases hcommit
  · intro hclean htrap
    refine ⟨commitEn_of_exception h ?_ ?_, htrap⟩
    · rw [Bool.eq_false_iff]
      intro hempty
      rw [hclean hempty] at htrap
      cases htrap
    · rw [← exception_eq_lastTrap] at htrap
      exact htrap

/-- Up to any cycle the traps of OoO mode are all genuine exactly when an
empty buffer never has a stale exception bit at its head. -/
theorem traps_genuine_iff (n : Nat) :
    (∀ t ≤ n, oooEn (run imem p o t) = true → TrapGenuine imem p o t) ↔
      ∀ t ≤ n, oooEn (run imem p o t) = true → HeadClean imem p o t := by
  constructor
  · intro h t ht hooo
    exact (trapGenuine_iff imem p o t hooo).mp (h t ht hooo)
  · intro h t ht hooo
    exact (trapGenuine_iff imem p o t hooo).mpr (h t ht hooo)

/-- One cycle after the trap of `ecall` has flushed the buffer, its bit traps again. -/
theorem not_traps_genuine_ecall :
    ¬ ∀ t ≤ 6, oooEn (run (oooImage 0x00000073#32) zeroPowerUp (fun _ => zeroNets) t) = true →
      TrapGenuine (oooImage 0x00000073#32) zeroPowerUp (fun _ => zeroNets) t := by
  intro h
  have h6 := h 6 (Nat.le_refl 6) (by decide +kernel)
  exact absurd (h6 (by decide +kernel)).1 (by decide +kernel)

end Spurious

end VMate.OooFlush
