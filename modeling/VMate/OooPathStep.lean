import VMate.OooExec

namespace VMate.OooPathStep

open Decode Pipe Hazard RegFile RiscvTop SeqExec DecodeFacts StageCtrl RobFifo OooTrap OooWindow OooTimeline OooSerial
  OooForward Speculate OooPath OooOperand OooExec
open OooResult (wbValue low_append exCdbData_iff memCdbData_iff isBoxed_of_own)
open InOrderSim (IdMatches)

variable {imem : Imem} {o : OpenNets} {a0 : Arch} {pos : Nat → Slot} {s : State} {k : Nat}

section Trace

/-- What the commit of an instruction shows: its address, its word and the
write to a register file, with the file, the register and the value. -/
structure Retired where
  pc : BitVec 32
  instruction : BitVec 32
  write : Option (Bool × BitVec 5 × BitVec 64)
  deriving DecidableEq, Repr

/-- What OoO mode commits in a cycle. -/
def commitsOf (s : State) : List Retired :=
  if commitEn s then
    [⟨(commitEntry s).pc, (commitEntry s).instruction,
      if commitRegWrite s then some ((commitEntry s).destType, (commitEntry s).destReg, (commitEntry s).result)
      else none⟩]
  else []

def refRetired (imem : Imem) (a : Arch) : Retired :=
  ⟨a.pc, (idExOf imem a).instruction,
    if (idExOf imem a).ctrl.regWrite || (idExOf imem a).ctrl.fpWe then
      some ((idExOf imem a).ctrl.fpWe, rdOf (idExOf imem a).instruction, refValue imem a)
    else none⟩

/-- What the reference retires in its first `k` steps, blank words left out. -/
def refTrace (imem : Imem) (a0 : Arch) (k : Nat) : List Retired :=
  trace (refPath imem a0) (fun i => refRetired imem (archAt imem a0 i)) k

end Trace

section Commit

variable (hp : OnPath imem a0 pos s) (hr : RunInv s) (hc : commitEn s = true)

include hp hr hc

theorem head_entry : 0 < occ s ∧ (commitEntry s).completed = true ∧
    EntryHolds imem (archPos imem a0 pos 0) (commitEntry s) (commitRegWrite s) := by
  obtain ⟨hpos, hcomp⟩ := (commitEn_eq hr.trap.wf).mp hc
  have he := hp.entry 0 hpos hp.window.head
  rw [entryAt, slot_zero] at he
  exact ⟨hpos, hcomp, he⟩

theorem commitsOf_head : commitsOf s = [refRetired imem (archPos imem a0 pos 0)] := by
  obtain ⟨-, hcomp, he⟩ := head_entry hp hr hc
  rw [commitsOf, if_pos hc, refRetired, he.pc, he.instruction, he.destType, he.destReg, ← he.write]
  cases hw : commitRegWrite s with
  | false => rfl
  | true => rw [he.result hcomp hw]

/-- The commit port writes what the reference writes. -/
theorem commit_writes (hooo : oooEn s = true) :
    intWrite s.regs (intPort s) = (execOne imem (archPos imem a0 pos 0)).regs ∧
      fpWrite s.fpr (fpPort s) = (execOne imem (archPos imem a0 pos 0)).fpr := by
  obtain ⟨-, hcomp, he⟩ := head_entry hp hr hc
  obtain ⟨hregs, hfpr⟩ := regs_execOne he.trap
  have hexc : (commitEntry s).exception = false := hp.quiet _
  rw [hregs, hfpr, hp.regs, hp.fpr]
  refine ⟨?_, ?_⟩
  · cases hw : (idExOf imem (archPos imem a0 pos 0)).ctrl.regWrite with
    | false =>
        rw [intWrite_of_we_false, intWrite_of_we_false]
        · exact hw
        · simp only [intPort, hooo, if_true, he.write, he.destType, hw]
          cases (idExOf imem (archPos imem a0 pos 0)).ctrl.fpWe <;> simp
    | true =>
        have hfp := fpWe_of_regWrite hw
        have hwrite : commitRegWrite s = true := by rw [he.write, hw]; rfl
        have hport : intPort s = intWb (memWbOf (archPos imem a0 pos 0) (exMemOf imem (archPos imem a0 pos 0))) := by
          simp only [intPort, hooo, if_true, hc, hwrite, he.destType, hfp, hexc, he.destReg, he.result hcomp hwrite,
            refValue_int hfp, low_append]
          rw [intWb, show (memWbOf (archPos imem a0 pos 0) (exMemOf imem (archPos imem a0 pos 0))).ctrl.regWrite = true
            from hw]
          rfl
        rw [hport]
  · cases hw : (idExOf imem (archPos imem a0 pos 0)).ctrl.fpWe with
    | false =>
        rw [fpWrite_of_we_false, fpWrite_of_we_false]
        · exact hw
        · simp only [fpPort, hooo, if_true, he.destType, hw, Bool.and_false, Bool.false_and]
    | true =>
        have hwrite : commitRegWrite s = true := by rw [he.write, hw, Bool.or_true]
        have hport : fpPort s = fpWb (memWbOf (archPos imem a0 pos 0) (exMemOf imem (archPos imem a0 pos 0))) := by
          simp only [fpPort, hooo, if_true, hc, hwrite, he.destType, hw, hexc, he.destReg, he.result hcomp hwrite,
            refValue_fp hw]
          rw [fpWb, show (memWbOf (archPos imem a0 pos 0) (exMemOf imem (archPos imem a0 pos 0))).ctrl.fpWe = true
            from hw]
          rfl
        rw [hport]

theorem commitIsMret_eq : commitIsMret s = (idExOf imem (archPos imem a0 pos 0)).ctrl.mretExec := by
  obtain ⟨-, -, he⟩ := head_entry hp hr hc
  rw [commitIsMret, he.instruction]
  cases hm : (idExOf imem (archPos imem a0 pos 0)).ctrl.mretExec with
  | true => rw [he.mret hm]; rfl
  | false =>
      rw [beq_eq_false_iff_ne]
      intro hword
      rw [idExOf_ctrl, hword] at hm
      cases hm

/-- A flush at commit is a turn of the reference, and the other way round. -/
theorem finalFlush_iff (hooo : oooEn s = true) : finalFlush s = true ↔ turns imem (archPos imem a0 pos 0) = true := by
  obtain ⟨-, hcomp, he⟩ := head_entry hp hr hc
  rw [finalFlush, finalException_false hp hooo, finalMretExec, hooo, hc, commitIsMret_eq hp hr hc, he.sel hcomp, turns,
    leavesMem, show (exMemOf imem (archPos imem a0 pos 0)).ctrl.exception = false from he.trap]
  simp only [if_true, Bool.true_and, Bool.false_or, Bool.or_eq_true]
  exact or_comm

end Commit

section Broadcast

variable (hp : OnPath imem a0 pos s) (hr : RunInv s) (hs : Sound o s) (hooo : oooEn s = true)

include hp hr hs hooo

/-- What the bus carries for a live entry is what the reference has. -/
theorem broadcast_eq (hk : k < occ s) (hl : (pos k).live = true)
    (hit : (cdbEn s && cdbRobIdx s == slot s k) = true) :
    (s.robRegWriteArray (slot s k) = true → cdbData o s = refValue imem (archPos imem a0 pos k)) ∧
      cdbPcSel s = refSel imem (archPos imem a0 pos k) ∧ cdbPcTarget s = refTarget imem (archPos imem a0 pos k) := by
  have he := hp.entry k hk hl
  rcases cdb_hits hr.inv hr.trap hooo hk hit with ⟨hg, hocc⟩ | ⟨hg, hocc⟩ | ⟨hg, hocc⟩
  · have hv := grantEx_valid hg
    obtain ⟨hexMem, hsel, htgt⟩ := execute_eq hp hr hs hooo hv hocc hl
    have hctrl := (hp.ex hv k hocc hl).ctrl
    have hinst := (hp.ex hv k hocc hl).instruction
    refine ⟨fun hw => ?_, by simp [cdbPcSel, hg, grantEx_alone hg, hsel],
      by simp [cdbPcTarget, hg, grantEx_alone hg, htgt]⟩
    have hready : exReady s = true := by
      simp only [grantEx, exWantsCdb, Bool.and_eq_true, Bool.or_eq_true] at hg
      refine hg.1.1.2.resolve_right fun hexc => ?_
      rw [hctrl, he.trap] at hexc
      cases hexc
    have hdata : cdbData o s = exCdbData s := by
      rw [cdbData, (grantEx_alone hg).1, (grantEx_alone hg).2]
      rfl
    have hdec : s.idEx.ctrl = (decode s.idEx.instruction (archPos imem a0 pos k).csr.mstatusFs
        (archPos imem a0 pos k).csr.frmReg).toExCtrl := by rw [hctrl, hinst, idExOf_ctrl]
    rw [hdata, (exCdbData_iff
      (d := Dmem.readData (archPos imem a0 pos k).dmem (dmemInOf (exMemOf imem (archPos imem a0 pos k))))
      (k := CsrFile.csrRdata (archPos imem a0 pos k).csr (csrAddrOf (exMemOf imem (archPos imem a0 pos k)))) hdec
      (by rw [hctrl, ← he.write]; exact hw) hready).mpr (hs.muxEx hg), hexMem]
    rfl
  · have hv := grantMem_valid hg
    have hmem := hp.mem hv k hocc hl
    refine ⟨fun _ => ?_, by simp [cdbPcSel, hg, grantMem_alone hg, hmem.sel],
      by simp [cdbPcTarget, hg, grantMem_alone hg, hmem.target]⟩
    have hready : memReady s = true := by
      simp only [grantMem, memWantsCdb, hr.trap.mem hooo, Bool.or_false, Bool.and_eq_true] at hg
      exact hg.1.2.2
    have hdata : cdbData o s = memCdbData o s := by
      rw [cdbData, grantMem_alone hg, hg]
      rfl
    rw [hdata, (memCdbData_iff (idExOf_ctrl (archPos imem a0 pos k)) hmem.exMem hready).mpr (hs.muxMem hg),
      (memWb_of_mem hp hv hocc hl).2.2]
    rfl
  · have hv := ((grantWb_spec hr.trap).mp hg).1
    have hwb := hp.wb hv k hocc hl
    refine ⟨fun _ => ?_, by simp [cdbPcSel, hg, hwb.sel], by simp [cdbPcTarget, hg, hwb.target]⟩
    have hdata : cdbData o s = wbCdbData s := by
      rw [cdbData, hg]
      rfl
    have hval : refValue imem (archPos imem a0 pos k) = wbValue s.memWb := by
      rw [hwb.memWb]
      rfl
    rw [hdata, wbCdbData, hval]
    cases hfp : s.memWb.ctrl.fpWe with
    | false => rw [wbValue, hfp]; rfl
    | true =>
        rw [if_pos rfl]
        refine fpWbDataWb_eq hr.boxed hfp fun hread hsingle => ?_
        have hown : cdbInstruction s = (idExOf imem (archPos imem a0 pos k)).instruction := by
          rw [Bool.and_eq_true, beq_iff_eq] at hit
          rw [cdbInstruction, hit.2]
          exact he.instruction
        rw [finalInstructionWb, finalFmtWb, hooo, if_pos rfl, if_pos rfl, hown] at hsingle
        rw [hwb.memWb] at hfp hread ⊢
        exact isBoxed_of_own (idExOf_ctrl (archPos imem a0 pos k)) rfl hfp hread hsingle

/-- A live entry that does not commit stays as it is, or takes its own result. -/
theorem entry_step (hf : finalFlush s = false) (hk : k < occ s) (hl : (pos k).live = true)
    (hc : ¬ (commitEn s = true ∧ robHead s = slot s k)) :
    EntryHolds imem (archPos imem a0 pos k) ((tick imem o s).rob.robData (slot s k))
      ((tick imem o s).robRegWriteArray (slot s k)) := by
  have he := hp.entry k hk hl
  have hv := entryAt_valid hr.trap.wf hk
  obtain ⟨hpay, hwr⟩ := payload_tick imem o hr.trap.wf hv
  have hout (h : ((tick imem o s).rob.robData (slot s k)).completed = true) :=
    outcome_tick hr.trap.wf hooo hf hv hc h
  have hsame {e e' : Rob.RobEntry} (h : outcome e = outcome e') : e.result = e'.result ∧
      e.branchMispredicted = e'.branchMispredicted ∧ e.branchTarget = e'.branchTarget := by
    simpa only [outcome, Prod.mk.injEq] using h
  have hhit (hen : cdbEn s = true) (hidx : cdbRobIdx s = slot s k) := broadcast_eq hp hr hs hooo hk hl
    (by rw [hen, hidx]; exact beq_self_eq_true _)
  have hbus {e : Rob.RobEntry} {x : BitVec 64} {b : Bool} {q : BitVec 32} (h : outcome e = (x, b, q)) :
      e.result = x ∧ e.branchMispredicted = b ∧ e.branchTarget = q := by
    simpa only [outcome, Prod.mk.injEq] using h
  refine ⟨he.present, ?_, ?_, ?_, ?_, ?_, he.trap, he.mret, fun hcomp hw => ?_, fun hcomp => ?_, fun hcomp => ?_⟩
  · exact (congrArg Payload.pc hpay).trans he.pc
  · exact (congrArg Payload.instruction hpay).trans he.instruction
  · exact (congrArg Payload.destReg hpay).trans he.destReg
  · exact (congrArg Payload.destType hpay).trans he.destType
  · exact hwr.trans he.write
  · rw [hwr] at hw
    rcases hout hcomp with ⟨hen, hidx, h⟩ | ⟨hold, h⟩
    · exact (hbus h).1.trans ((hhit hen hidx).1 hw)
    · exact (hsame h).1.trans (he.result hold hw)
  · rcases hout hcomp with ⟨hen, hidx, h⟩ | ⟨hold, h⟩
    · exact (hbus h).2.1.trans (hhit hen hidx).2.1
    · exact (hsame h).2.1.trans (he.sel hold)
  · rcases hout hcomp with ⟨hen, hidx, h⟩ | ⟨hold, h⟩
    · exact (hbus h).2.2.trans (hhit hen hidx).2.2
    · exact (hsame h).2.2.trans (he.target hold)

end Broadcast

section Dispatch

variable (hp : OnPath imem a0 pos s) (hr : RunInv s) (hs : Sound o s) (hd : dispatchEn s = true)
  (hl : (pos (occ s)).live = true)

include hp hd hl

/-- On the right path ID holds the next instruction of the reference. -/
theorem front_of_dispatch : s.ifId = fetch imem (archPos imem a0 pos (occ s)).pc ∧
    s.pc = (archPos imem a0 pos (occ s)).pc + 4#32 := by
  rcases hp.front hl with ⟨hif, -⟩ | h
  · exact absurd (by rw [hif]; rfl) (dispatchEn_spec hd).2.2.2.1
  · exact h

include hr

theorem decode_of_dispatch : (ctrlId s).toExCtrl = (idExOf imem (archPos imem a0 pos (occ s))).ctrl ∧
    immOutId s = (idExOf imem (archPos imem a0 pos (occ s))).immOut := by
  have hflush := (dispatchEn_spec hd).2.2.1
  rw [hazard, hazardUnit_flushIdEx] at hflush
  simp only [Bool.or_eq_false_iff, csrHazard] at hflush
  obtain ⟨-, ⟨-, hex, hmem⟩, -⟩ := hflush
  obtain ⟨hfs, hrm⟩ := rm_id hp hr hl hmem hex
  have hdec : ctrlId s = decode (fetch imem (archPos imem a0 pos (occ s)).pc).instruction
      (archPos imem a0 pos (occ s)).csr.mstatusFs (archPos imem a0 pos (occ s)).csr.frmReg := by
    rw [ctrlId, InOrderSim.fcsrRmMem_of_csrQuiet hmem, (front_of_dispatch hp hd hl).1, hfs, hrm]
  refine ⟨by rw [hdec]; rfl, ?_⟩
  rw [immOutId, hdec, (front_of_dispatch hp hd hl).1]
  rfl

theorem exHolds_dispatched : ExHolds imem (tick imem o s) (archPos imem a0 pos (occ s)) := by
  obtain ⟨hctrl, himm⟩ := decode_of_dispatch hp hr hd hl
  have hif := (front_of_dispatch hp hd hl).1
  refine ⟨?_, ?_, ?_, ?_, ?_⟩
  · rw [idEx_dispatched hd, idExIn, hif]; rfl
  · rw [idEx_dispatched hd, idExIn, hif]; rfl
  · rw [idEx_dispatched hd, idExIn, hif]; rfl
  · rw [idEx_dispatched hd]; exact himm
  · rw [idEx_dispatched hd]; exact hctrl

include hs

theorem entryHolds_dispatched : EntryHolds imem (archPos imem a0 pos (occ s))
    ((tick imem o s).rob.robData (robIdxDisp s)) ((tick imem o s).robRegWriteArray (robIdxDisp s)) := by
  obtain ⟨hctrl, -⟩ := decode_of_dispatch hp hr hd hl
  have hif := (front_of_dispatch hp hd hl).1
  obtain ⟨-, -, hpay, hwr⟩ := dispatched_tick imem o hr.trap.wf hd
  have hnot : ((tick imem o s).rob.robData (robIdxDisp s)).completed = false :=
    (completed_dispatched hr.trap.wf hd).trans (hs.trap hd)
  have hinst : s.ifId.instruction = (idExOf imem (archPos imem a0 pos (occ s))).instruction := by rw [hif]; rfl
  have hno (h : ((tick imem o s).rob.robData (robIdxDisp s)).completed = true) : False := by
    rw [hnot] at h
    cases h
  refine ⟨?_, ?_, ?_, ?_, ?_, ?_, ?_, ?_, fun h => (hno h).elim, fun h => (hno h).elim, fun h => (hno h).elim⟩
  · rw [isBlank, ← hinst]
    exact beq_eq_false_iff_ne.mpr (dispatchEn_spec hd).2.2.2.1
  · exact (congrArg Payload.pc hpay).trans (by rw [dispatchPayload, robIn, hif]; rfl)
  · exact (congrArg Payload.instruction hpay).trans hinst
  · exact (congrArg Payload.destReg hpay).trans (congrArg rdOf hinst)
  · exact (congrArg Payload.destType hpay).trans (congrArg (fun c : ExCtrl => c.fpWe) hctrl)
  · rw [hwr, ← hctrl]
  · rw [← hctrl]
    exact hs.trap hd
  · rw [← hctrl, ← hinst]
    exact hs.mret hd

end Dispatch

section Front

variable (hooo : oooEn s = true) (hf : finalFlush s = false)

include hooo hf

theorem hazard_quiet : hazard s =
    if InOrder.stalls s then { stallPc := true, stallIfId := true, flushIdEx := true } else {} := by
  have hcause : finalException s = false ∧ finalMretExec s = false ∧ finalPcSel s = false := by
    simp only [finalFlush, hooo, Bool.true_and, Bool.or_eq_false_iff] at hf
    refine ⟨hf.1.1, hf.2, ?_⟩
    rw [finalPcSel, if_pos hooo]
    exact hf.1.2
  rw [hazard, hazardUnit]
  simp only [hazardIn, InOrder.stalls, hcause.1, hcause.2.1, hcause.2.2, Bool.or_self, Bool.false_eq_true, if_false]

theorem dispatchEn_quiet : dispatchEn s = (s.ifId.instruction != 0#32 && !stallIfId s) := by
  rw [dispatchEn, hooo, Bool.true_and, validInstIdNoStall, stallIfId, hazard_quiet hooo hf]
  cases InOrder.stalls s <;> simp

variable (ht : TrapInv s)

include ht

variable (imem o) in
theorem front_tick : (tick imem o s).ifId = (if stallIfId s then s.ifId else fetch imem s.pc) ∧
    (tick imem o s).pc = if stallIfId s then s.pc else s.pc + 4#32 := by
  have hhaz := hazard_quiet hooo hf
  have hm : finalMretExec s = false := by
    simp only [finalFlush, Bool.or_eq_false_iff] at hf
    exact hf.2
  have hsel : finalPcSel s = false := by
    simp only [finalFlush, hooo, Bool.true_and, Bool.or_eq_false_iff] at hf
    rw [finalPcSel, if_pos hooo]
    exact hf.1.2
  refine ⟨?_, ?_⟩
  · simp only [tick, pipeTick, hf, hhaz, stallIfId]
    cases InOrder.stalls s <;> rfl
  · simp only [tick, pcTick, ht.mem hooo, hm, hsel, stallPc, stallIfId, hhaz, Bool.false_eq_true, if_false]
    cases InOrder.stalls s <;> rfl

/-- A blank word leaves ID. -/
def blankPasses (s : State) : Bool :=
  !stallIfId s && s.ifId.instruction == 0#32 && s.ifId.pcPlus4 == s.ifId.pc + 4#32

/-- The window after a cycle without a flush. -/
def nextPos (imem : Imem) (a0 : Arch) (s : State) (pos : Nat → Slot) : Nat → Slot :=
  advance (refPath imem a0) (occ s) (commitEn s) (dispatchEn s) (blankPasses s && (pos (occ s)).live) pos

variable (hp : OnPath imem a0 pos s)

include hp

omit hooo hf ht in
theorem blank_of_passes (h : (blankPasses s && (pos (occ s)).live) = true) :
    (pos (occ s)).live = true ∧ isBlank imem (archPos imem a0 pos (occ s)) = true := by
  rw [Bool.and_eq_true, blankPasses, Bool.and_eq_true, Bool.and_eq_true, beq_iff_eq, beq_iff_eq] at h
  obtain ⟨⟨⟨-, hword⟩, hpc⟩, hl⟩ := h
  refine ⟨hl, ?_⟩
  rcases hp.front hl with ⟨hif, -⟩ | ⟨hif, -⟩
  · rw [hif] at hpc
    cases hpc
  · rw [hif] at hword
    exact beq_iff_eq.mpr hword

/-- The front end follows the next position. -/
theorem front_step (hc : (commitEn s).toNat ≤ occ s)
    (hl : (nextPos imem a0 s pos (occ s - (commitEn s).toNat + (dispatchEn s).toNat)).live = true) :
    IdMatches imem (tick imem o s)
      (archPos imem a0 (nextPos imem a0 s pos) (occ s - (commitEn s).toNat + (dispatchEn s).toNat)).pc := by
  obtain ⟨hif', hpc'⟩ := front_tick imem o hooo hf ht
  have hdisp := dispatchEn_quiet hooo hf
  rw [archPos]
  cases hd : dispatchEn s with
  | true =>
      rw [hd, Bool.toNat_true, nextPos, hd, (advance_taken hc).2] at hl
      rw [Bool.toNat_true, nextPos, hd, (advance_taken hc).2]
      obtain ⟨hlive, hturn⟩ := (linked_after (P := refPath imem a0) (pos (occ s))).live_left hl
      obtain ⟨-, hpc⟩ := front_of_dispatch hp hd hlive
      have hstall : stallIfId s = false := by
        rw [hd, eq_comm, Bool.and_eq_true, Bool.not_eq_true'] at hdisp
        exact hdisp.2
      rw [hstall, if_neg Bool.false_ne_true] at hif' hpc'
      have hnext : (archAt imem a0 (after (refPath imem a0) (pos (occ s))).idx).pc = s.pc := by
        rw [after_of_live hlive, hpc, archAt_succ]
        exact nextPc_of_not_turns hturn
      rw [hnext]
      exact .inr ⟨hif', hpc'⟩
  | false =>
      rw [hd, Bool.toNat_false, Nat.add_zero, nextPos, hd] at hl
      rw [Bool.toNat_false, Nat.add_zero, nextPos, hd]
      cases hb : blankPasses s && (pos (occ s)).live with
      | true =>
          obtain ⟨hlive, hblank⟩ := blank_of_passes hp hb
          rw [Bool.and_eq_true, blankPasses, Bool.and_eq_true, Bool.and_eq_true, Bool.not_eq_true', beq_iff_eq] at hb
          obtain ⟨⟨⟨hstall, -⟩, hpc4⟩, -⟩ := hb
          rw [hstall, if_neg Bool.false_ne_true] at hif' hpc'
          rcases hp.front hlive with ⟨hif, -⟩ | ⟨-, hpc⟩
          · rw [hif] at hpc4
            cases hpc4
          · have hnext : (archAt imem a0 ((pos (occ s)).idx + 1)).pc = s.pc := by
              rw [archAt_succ, hpc]
              exact nextPc_of_not_turns (turns_of_blank hblank)
            rw [advance_blank hc, hnext]
            exact .inr ⟨hif', hpc'⟩
      | false =>
          rw [hb, advance_idle hc] at hl
          rw [advance_idle hc]
          cases hstall : stallIfId s with
          | true =>
              rw [hstall, if_pos rfl] at hif' hpc'
              rw [IdMatches, hif', hpc']
              exact hp.front hl
          | false =>
              rw [hstall, if_neg Bool.false_ne_true] at hif' hpc'
              rcases hp.front hl with ⟨-, hpc⟩ | ⟨hif, hpc⟩
              · exact .inr ⟨by rw [hif', hpc], by rw [hpc', hpc]⟩
              · -- a word that is not blank would have been dispatched
                rw [hl, Bool.and_true, blankPasses, hstall] at hb
                rw [hd, hstall] at hdisp
                have hword : s.ifId.instruction = 0#32 := by simpa using hdisp.symm
                rw [hword, hif] at hb
                simp [fetch] at hb

end Front

end VMate.OooPathStep
