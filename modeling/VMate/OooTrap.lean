import VMate.RobFifo
import VMate.StageCtrl

namespace VMate.OooTrap

open Decode Pipe Hazard RiscvTop DecodeFacts StageCtrl RobFifo

variable {imem : Imem} {o : OpenNets} {s : State}

section Dispatch

theorem flushIdEx_of_finalFlush (hooo : oooEn s = true) (h : finalFlush s = true) : (hazard s).flushIdEx = true := by
  rw [hazard, hazardUnit_flushIdEx]
  simp only [hazardIn, finalFlush, finalPcSel, hooo, Bool.true_and, if_true] at h ⊢
  cases he : finalException s <;> cases hm : finalMretExec s <;> simp_all

theorem dispatchEn_of_finalFlush (hooo : oooEn s = true) (h : finalFlush s = true) : dispatchEn s = false :=
  dispatchEn_of_flushIdEx (flushIdEx_of_finalFlush hooo h)

/-- What the dispatch gate guarantees about an instruction that passes it. -/
theorem dispatchEn_spec (h : dispatchEn s = true) :
    oooEn s = true ∧ finalFlush s = false ∧ (hazard s).flushIdEx = false ∧ s.ifId.instruction ≠ 0#32 ∧
      robFull s = false ∧ (isSerializationReq s = true → robEmpty s = true) := by
  have hooo : oooEn s = true := by
    cases hooo : oooEn s with
    | true => rfl
    | false => simp [dispatchEn, hooo] at h
  have hflush : finalFlush s = false := by
    cases hf : finalFlush s with
    | false => rfl
    | true => rw [dispatchEn_of_finalFlush hooo hf] at h; cases h
  simp only [dispatchEn, hooo, Bool.true_and, Bool.and_eq_true, stallIfId, Bool.not_eq_true', Bool.or_eq_false_iff]
    at h
  obtain ⟨hvalid, -, hstall⟩ := h
  rw [stallDispatch, hooo, hvalid, Bool.true_and, Bool.and_true, Bool.or_eq_false_iff, Bool.or_eq_false_iff] at hstall
  simp only [validInstIdNoStall, Bool.and_eq_true, bne_iff_ne, Bool.not_eq_true'] at hvalid
  refine ⟨hooo, hflush, hvalid.2, hvalid.1, hstall.1.2, fun hser => ?_⟩
  simpa [hser] using hstall.1.1

/-- In OoO mode an instruction enters EX exactly when it is dispatched. -/
theorem idEx_dispatched (h : dispatchEn s = true) : (tick imem o s).idEx = idExIn s := by
  obtain ⟨hooo, hflush, hidEx, -⟩ := dispatchEn_spec h
  have hstall : stallDispatch s = false := by
    simp only [dispatchEn, stallIfId, Bool.and_eq_true, Bool.not_eq_true', Bool.or_eq_false_iff] at h
    exact h.2.2.2
  rw [idEx_tick, holdsId, hflush, hidEx, hstall]
  rfl

theorem idEx_not_dispatched (hooo : oooEn s = true) (h : dispatchEn s = false) :
    (tick imem o s).idEx.instruction = 0#32 ∧ (tick imem o s).idEx.ctrl = {} := by
  rw [idEx_tick]
  cases hh : holdsId s with
  | true => exact ⟨rfl, rfl⟩
  | false =>
      rw [holdsId, Bool.or_eq_false_iff, Bool.or_eq_false_iff] at hh
      obtain ⟨⟨hflush, -⟩, hstall⟩ := hh
      have hstallIfId : (hazard s).stallIfId = false := by
        cases hs : (hazard s).stallIfId with
        | false => rfl
        | true => rw [flushIdEx_of_stallIfId hs] at hflush; cases hflush
      have hzero : s.ifId.instruction = 0#32 := by
        simpa [dispatchEn, hooo, validInstIdNoStall, hflush, stallIfId, hstallIfId, hstall] using h
      rw [if_neg Bool.false_ne_true]
      exact ⟨hzero, by rw [idExIn, ctrlId, hzero]; rfl⟩

end Dispatch

section RobStep

theorem accepts_robIn : Rob.accepts s.rob (robIn o s) = dispatchEn s := by
  cases h : dispatchEn s with
  | false => simp [Rob.accepts, robIn, h]
  | true =>
      have hfull : Rob.robFull s.rob = false := (dispatchEn_spec h).2.2.2.2.1
      simp [Rob.accepts, robIn, h, hfull]

theorem retires_robIn : Rob.retires s.rob (robIn o s) = commitEn s := by
  simp [Rob.retires, robIn, commitEn]

theorem rob_tick_inOrder (hooo : oooEn s = false) : (tick imem o s).rob = s.rob := robTick_gated hooo

theorem rob_tick_flush (hooo : oooEn s = true) (hf : finalFlush s = true) :
    (tick imem o s).rob = ⟨fun j => Rob.released (s.rob.robData j), 0, 0, 0⟩ := robTick_flush hooo hf

theorem rob_tick_data (hooo : oooEn s = true) (hf : finalFlush s = false) :
    (tick imem o s).rob.robData = Rob.nextEntry s.rob (robIn o s) := by
  change (Rob.robTick s.rob (robIn o s)).robData = _
  rw [robTick_step hooo hf]

theorem rob_tick_headPtr (hooo : oooEn s = true) (hf : finalFlush s = false) :
    robHead (tick imem o s) = if commitEn s then robHead s + 1 else robHead s := by
  change (Rob.robTick s.rob (robIn o s)).headPtr = _
  rw [robTick_step hooo hf, retires_robIn]
  rfl

theorem count_of_robEmpty (hwf : WellFormed s.rob) (h : robEmpty s = true) : s.rob.count.toNat = 0 := by
  simp only [robEmpty, robHead, robIdxDisp, RiscvTop.robFull, Bool.and_eq_true, beq_iff_eq, Bool.not_eq_true'] at h
  obtain ⟨hptr, hfull⟩ := h
  have hne : s.rob.count.toNat ≠ 16 := by
    intro he
    rw [(robFull_iff s.rob).mpr he] at hfull
    cases hfull
  have hle : s.rob.count.toNat ≤ 16 := hwf.count_le
  have hzero : BitVec.ofNat 4 s.rob.count.toNat = 0#4 := by
    have htail := hwf.tail_eq
    rw [← hptr] at htail
    exact (add_eq_left (a := s.rob.headPtr)).mp htail.symm
  have hmod := congrArg BitVec.toNat hzero
  simp only [BitVec.toNat_ofNat] at hmod
  omega

theorem commitEn_of_count_zero (h : s.rob.count.toNat = 0) : commitEn s = false := by
  rw [Bool.eq_false_iff]
  intro hc
  exact absurd ((commitEn_iff s.rob).mp hc).1 (by omega)

theorem tail_of_robEmpty (h : robEmpty s = true) : s.rob.tailPtr = s.rob.headPtr := by
  simp only [robEmpty, robHead, robIdxDisp, Bool.and_eq_true, beq_iff_eq] at h
  exact h.1.symm

theorem count_of_dispatch (hwf : WellFormed s.rob) (hd : dispatchEn s = true) : s.rob.count.toNat < 16 :=
  accepts_lt (i := robIn zeroNets s) hwf (by rw [accepts_robIn, hd])

/-- An instruction is dispatched into a free slot. -/
theorem robIdxDisp_free (hwf : WellFormed s.rob) (hd : dispatchEn s = true) :
    (s.rob.robData (robIdxDisp s)).valid = false :=
  tail_free hwf (count_of_dispatch hwf hd)

theorem retires_ne_tail (hwf : WellFormed s.rob) (hd : dispatchEn s = true) :
    (Rob.retires s.rob (robIn o s) && s.rob.tailPtr == s.rob.headPtr) = false := by
  rw [Bool.and_eq_false_iff]
  cases hc : Rob.retires s.rob (robIn o s) with
  | false => exact .inl rfl
  | true => exact .inr (beq_eq_false_iff_ne.mpr (Ne.symm (head_ne_tail hwf (by rw [accepts_robIn, hd]) hc)))

/-- The slot an instruction is dispatched into takes no broadcast that cycle. -/
theorem completes_ne_tail (hwf : WellFormed s.rob) (hd : dispatchEn s = true) :
    (Rob.completes s.rob (robIn o s) && s.rob.tailPtr == (robIn o s).completeIdx) = false := by
  have hfree : (s.rob.robData s.rob.tailPtr).valid = false := robIdxDisp_free hwf hd
  rw [Bool.and_eq_false_iff]
  by_cases he : s.rob.tailPtr = (robIn o s).completeIdx
  · left
    rw [he] at hfree
    simp [Rob.completes, hfree]
  · right
    simpa using he

end RobStep

section Invariant

/-- How traps travel in OoO mode. A trapping instruction is dispatched into
an empty buffer already completed, so it is at the head with its exception
bit set one cycle later and the flush stops it before MEM. -/
structure TrapInv (s : State) : Prop where
  wf : WellFormed s.rob
  ex : oooEn s = true → s.idEx.ctrl.exception = true → (commitEntry s).exception = true
  mem : oooEn s = true → s.exMem.ctrl.exception = false
  wb : s.track.exceptionWb = false
  entry : ∀ j, (s.rob.robData j).valid = true → (s.rob.robData j).exception = true →
    j = robHead s ∧ (s.rob.robData j).completed = true ∧
      ∃ fs rm, (decode (s.rob.robData j).instruction fs rm).exception = true

theorem trapInv_reset (p : PowerUp) : TrapInv (reset p) where
  wf := wellFormed_reset
  ex _ h := (Bool.false_ne_true h).elim
  mem _ := rfl
  wb := rfl
  entry _ h := (Bool.false_ne_true h).elim

theorem finalFlush_of_exception (hooo : oooEn s = true) (h : (commitEntry s).exception = true) :
    finalFlush s = true := by
  simp [finalFlush, finalException, hooo, h]

theorem cdbException_eq (h : TrapInv s) (hooo : oooEn s = true) (hf : finalFlush s = false) :
    cdbException s = false := by
  have hex : s.idEx.ctrl.exception = false := by
    rw [Bool.eq_false_iff]
    intro he
    rw [finalFlush_of_exception hooo (h.ex hooo he)] at hf
    cases hf
  simp [cdbException, h.wb, h.mem hooo, hex]

theorem exceptionWb_step (h : TrapInv s) : (tick imem o s).track.exceptionWb = false := by
  simp only [tick, trackTick, flushMemWb_imp]
  cases hf : finalFlush s with
  | true => rfl
  | false =>
      rw [if_neg Bool.false_ne_true]
      cases hooo : oooEn s with
      | true => exact h.mem hooo
      | false =>
          simp only [finalFlush, finalException, hooo, Bool.or_eq_false_iff] at hf
          exact hf.1.1

theorem exMem_trap_step (h : TrapInv s) (hm : ModeInv s) (hooo' : oooEn (tick imem o s) = true) :
    (tick imem o s).exMem.ctrl.exception = false := by
  rw [exMem_tick]
  cases hf : finalFlush s with
  | true => rfl
  | false =>
      rw [if_neg Bool.false_ne_true]
      change s.idEx.ctrl.exception = false
      rw [Bool.eq_false_iff]
      intro he
      cases hooo : oooEn s with
      | true =>
          rw [finalFlush_of_exception hooo (h.ex hooo he)] at hf
          cases hf
      | false =>
          cases hw : s.exMem.ctrl.csrWrite with
          | true => rw [(hm.csrMem hw).1] at he; cases he
          | false => rw [oooEn_tick hw, hooo] at hooo'; cases hooo'

theorem serial_of_exception (h : (ctrlId s).exception = true) : isSerializationReq s = true := by
  simp [isSerializationReq, h]

theorem trap_dispatched (hwf : WellFormed s.rob) (hd : dispatchEn s = true) (he : (ctrlId s).exception = true) :
    s.rob.tailPtr = robHead (tick imem o s) ∧
      (Rob.nextEntry s.rob (robIn o s) s.rob.tailPtr).completed = true ∧
      ∃ fs rm, (decode (Rob.nextEntry s.rob (robIn o s) s.rob.tailPtr).instruction fs rm).exception = true := by
  obtain ⟨hooo, hf, -, -, -, hser⟩ := dispatchEn_spec hd
  have hempty := hser (serial_of_exception he)
  have hcommit := commitEn_of_count_zero (count_of_robEmpty hwf hempty)
  refine ⟨?_, ?_, s.csr.mstatusFs, fcsrRmMem s, ?_⟩
  · rw [rob_tick_headPtr hooo hf, hcommit, tail_of_robEmpty hempty]
    rfl
  · rw [nextEntry_completed, completes_ne_tail hwf hd, retires_robIn, hcommit, accepts_robIn, hd]
    simpa [robIn] using he
  · have hinst : (Rob.nextEntry s.rob (robIn o s) s.rob.tailPtr).instruction = s.ifId.instruction := by
      have hp := congrArg Payload.instruction (nextEntry_payload s.rob (robIn o s) s.rob.tailPtr)
      rw [accepts_robIn, hd] at hp
      simpa [payload, dispatchPayload, robIn] using hp
    rw [hinst]
    exact he

theorem entry_step (h : TrapInv s) (j : BitVec 4) (hv : ((tick imem o s).rob.robData j).valid = true)
    (he : ((tick imem o s).rob.robData j).exception = true) :
    j = robHead (tick imem o s) ∧ ((tick imem o s).rob.robData j).completed = true ∧
      ∃ fs rm, (decode ((tick imem o s).rob.robData j).instruction fs rm).exception = true := by
  cases hooo : oooEn s with
  | false =>
      rw [robHead, rob_tick_inOrder hooo] at *
      exact h.entry j hv he
  | true =>
      cases hf : finalFlush s with
      | true =>
          rw [rob_tick_flush hooo hf] at hv
          exact (Bool.false_ne_true hv).elim
      | false =>
          have hexc : (robIn o s).exception = false := cdbException_eq h hooo hf
          rw [rob_tick_data hooo hf] at hv he ⊢
          rw [nextEntry_exception, hexc] at he
          split_ifs at he with hcomp hacc
          · rw [Bool.and_eq_true, accepts_robIn, beq_iff_eq] at hacc
            obtain ⟨hd, rfl⟩ := hacc
            exact trap_dispatched h.wf hd he
          · rw [nextEntry_valid] at hv
            split_ifs at hv with hret
            obtain ⟨hj, -⟩ := h.entry j hv he
            have hhead : (commitEntry s).exception = true := by rw [hj] at he; exact he
            rw [finalFlush_of_exception hooo hhead] at hf
            cases hf

theorem trapInv_step (h : TrapInv s) (hm : ModeInv s) : TrapInv (tick imem o s) where
  wf := wellFormed_step h.wf _
  ex := fun hooo' he => by
    have hd : dispatchEn s = true := by
      cases hooo : oooEn s with
      | true =>
          cases hd : dispatchEn s with
          | true => rfl
          | false => rw [(idEx_not_dispatched hooo hd).2] at he; cases he
      | false =>
          cases hw : s.exMem.ctrl.csrWrite with
          | true =>
              have hflush := flushIdEx_of_csrHazard (s := s) (by simp [csrHazard, hazardIn, hw])
              rw [idEx_tick, holdsId, hflush] at he
              cases he
          | false => rw [oooEn_tick hw, hooo] at hooo'; cases hooo'
    obtain ⟨hooo, hf, -⟩ := dispatchEn_spec hd
    rw [idEx_dispatched hd] at he
    have hser := (dispatchEn_spec hd).2.2.2.2.2 (serial_of_exception he)
    have hhead : robHead (tick imem o s) = s.rob.tailPtr := by
      rw [rob_tick_headPtr hooo hf, commitEn_of_count_zero (count_of_robEmpty h.wf hser), tail_of_robEmpty hser]
      rfl
    change ((tick imem o s).rob.robData (robHead (tick imem o s))).exception = true
    rw [hhead, rob_tick_data hooo hf, nextEntry_exception, completes_ne_tail h.wf hd, accepts_robIn, hd]
    simpa [robIn, idExIn] using he
  mem := exMem_trap_step h hm
  wb := exceptionWb_step h
  entry := entry_step h

theorem trapInv_run (imem : Imem) (p : PowerUp) (o : Nat → OpenNets) (n : Nat) : TrapInv (run imem p o n) := by
  induction n with
  | zero => exact trapInv_reset p
  | succ n ih => exact trapInv_step ih (modeInv_run imem p o n)

end Invariant

end VMate.OooTrap
