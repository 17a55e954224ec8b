import VMate.SeqExec
import VMate.DecodeFacts

namespace VMate.StageCtrl

open Decode Pipe Hazard RiscvTop DecodeFacts

variable {imem : Imem} {o : OpenNets} {s : State}

section Tick

theorem hazardUnit_flushExMem (h : HazardIn) : (hazardUnit h).flushExMem = (h.exceptionMem || h.mretExecMem) := by
  unfold hazardUnit
  cases h.exceptionMem || h.mretExecMem <;> cases h.pcSelEx <;>
    cases intLoadUse h || fpLoadUse h || csrHazard h || fflagsHazard h <;> rfl

theorem hazardUnit_flushIdEx (h : HazardIn) :
    (hazardUnit h).flushIdEx = (h.exceptionMem || h.mretExecMem || h.pcSelEx ||
      (intLoadUse h || fpLoadUse h || csrHazard h || fflagsHazard h)) := by
  unfold hazardUnit
  cases h.exceptionMem || h.mretExecMem <;> cases h.pcSelEx <;>
    cases intLoadUse h || fpLoadUse h || csrHazard h || fflagsHazard h <;> rfl

theorem flushExMem_imp : ((hazard s).flushExMem || finalFlush s) = finalFlush s := by
  rw [hazard, hazardUnit_flushExMem, finalFlush]
  simp only [hazardIn]
  cases finalException s <;> cases finalMretExec s <;> simp

theorem flushMemWb_imp : ((hazard s).flushMemWb || finalFlush s) = finalFlush s := by
  have h : (hazard s).flushMemWb = (hazard s).flushExMem := by
    rw [hazard, hazardUnit]
    split_ifs <;> rfl
  rw [h, flushExMem_imp]

theorem memWb_tick : (tick imem o s).memWb =
    if finalFlush s then {} else memWbIn s.exMem (dmemRdataMem s) (csrRdataMem s) := by
  simp only [tick, pipeTick, flushMemWb_imp, Bool.false_eq_true, if_false]

theorem exMem_tick : (tick imem o s).exMem =
    if finalFlush s then {} else exMemIn s.idEx (operandsEx s) (fcsrRmMem s) := by
  simp only [tick, pipeTick, flushExMem_imp, Bool.false_eq_true, if_false]

/-- ID hands nothing on to EX. -/
def holdsId (s : State) : Bool := (hazard s).flushIdEx || finalFlush s || stallDispatch s

theorem idEx_tick : (tick imem o s).idEx = if holdsId s then {} else idExIn s := by
  simp only [tick, pipeTick, Bool.false_eq_true, if_false]
  rfl

theorem flushIdEx_of_stallIfId (h : (hazard s).stallIfId = true) : (hazard s).flushIdEx = true := by
  revert h
  rw [hazard, hazardUnit]
  split_ifs <;> simp

theorem flushIdEx_of_csrHazard (h : csrHazard (hazardIn s) = true) : (hazard s).flushIdEx = true := by
  simp [hazard, hazardUnit_flushIdEx, h]

theorem dispatchEn_of_flushIdEx (h : (hazard s).flushIdEx = true) : dispatchEn s = false := by
  simp [dispatchEn, validInstIdNoStall, h]

theorem validEx_tick : (tick imem o s).track.validEx = (dispatchEn s && !finalFlush s) := by
  simp only [tick, trackTick]
  cases hf : (hazard s).flushIdEx with
  | true => simp [dispatchEn_of_flushIdEx hf]
  | false => cases finalFlush s <;> simp

theorem validMem_tick : (tick imem o s).track.validMem = (s.track.validEx && !finalFlush s) := by
  simp only [tick, trackTick, flushExMem_imp]
  cases finalFlush s <;> simp

theorem validWb_tick : (tick imem o s).track.validWb = (s.track.validMem && !finalFlush s) := by
  simp only [tick, trackTick, flushMemWb_imp]
  cases finalFlush s <;> simp

/-- Without a flush the bookkeeping moves along with the instructions. -/
theorem track_tick (hf : finalFlush s = false) : (tick imem o s).track =
    { validEx := dispatchEn s
      robIdxEx := if (hazard s).flushIdEx then s.track.robIdxEx else robIdxDisp s
      validMem := s.track.validEx, robIdxMem := s.track.robIdxEx, cdbDoneMem := grantEx s
      pcSelMem := pcSelEx s, pcTargetMem := pcTargetEx s
      validWb := s.track.validMem, robIdxWb := s.track.robIdxMem
      cdbDoneWb := s.track.cdbDoneMem || grantMem s
      exceptionWb := s.exMem.ctrl.exception, exceptionCauseWb := s.exMem.ctrl.exceptionCause
      pcSelWb := s.track.pcSelMem, pcTargetWb := s.track.pcTargetMem } := by
  have hmem : (hazard s).flushExMem = false := by simpa [hf] using flushExMem_imp (s := s)
  have hwb : (hazard s).flushMemWb = false := by simpa [hf] using flushMemWb_imp (s := s)
  have hd : (if (hazard s).flushIdEx then false else dispatchEn s) = dispatchEn s := by
    cases he : (hazard s).flushIdEx with
    | true => rw [dispatchEn_of_flushIdEx he]; rfl
    | false => rfl
  simp only [tick, trackTick, hmem, hwb, hf, Bool.or_false, Bool.false_eq_true, if_false, hd]

end Tick

section Legs

theorem forwardedInt_legs (rs rdMem rdWb : BitVec 5) (weMem weWb : Bool) (data : BitVec 32) :
    forwardedInt s (forwardInt rs rdMem weMem rdWb weWb) rs data =
      if weMem && rdMem != 0#5 && rdMem == rs then forwardDataMem s
      else if weWb && rdWb != 0#5 && rdWb == rs then wbDataWb s
      else if commitFwdMatch s rs then (commitEntry s).result.extractLsb 31 0 else data := by
  unfold forwardedInt forwardInt
  cases weMem && rdMem != 0#5 && rdMem == rs <;> cases weWb && rdWb != 0#5 && rdWb == rs <;> rfl

theorem forwardedFp_legs (rs rdMem rdWb : BitVec 5) (weMem weWb : Bool) (data : BitVec 64) :
    forwardedFp s (forwardFp rs rdMem weMem rdWb weWb) rs data =
      if weMem && rdMem == rs then s.exMem.fpAluResult
      else if weWb && rdWb == rs then fpWbDataWb s
      else if commitFwdMatchFp s rs then (commitEntry s).result else data := by
  unfold forwardedFp forwardFp
  cases weMem && rdMem == rs <;> cases weWb && rdWb == rs <;> rfl

end Legs

section Decoded

/-- Every pipeline register controls its stage as the decoder said for the
instruction it holds, at the mode bits of that time. -/
structure CtrlDecoded (s : State) : Prop where
  idEx : ∃ fs rm, s.idEx.ctrl = (decode s.idEx.instruction fs rm).toExCtrl
  exMem : ∃ fs rm, s.exMem.ctrl = (decode s.exMem.instruction fs rm).toMemCtrl
  memWb : ∃ fs rm, s.memWb.ctrl = (decode s.memWb.instruction fs rm).toWbCtrl

theorem ctrlDecoded_step (h : CtrlDecoded s) : CtrlDecoded (tick imem o s) := by
  refine ⟨?_, ?_, ?_⟩
  · rw [idEx_tick]
    split_ifs
    · exact ⟨0, 0, rfl⟩
    · exact ⟨s.csr.mstatusFs, fcsrRmMem s, rfl⟩
  · obtain ⟨fs, rm, he⟩ := h.idEx
    rw [exMem_tick]
    split_ifs
    · exact ⟨0, 0, rfl⟩
    · exact ⟨fs, rm, congrArg ExCtrl.toMemCtrl he⟩
  · obtain ⟨fs, rm, he⟩ := h.exMem
    rw [memWb_tick]
    split_ifs
    · exact ⟨0, 0, rfl⟩
    · exact ⟨fs, rm, congrArg MemCtrl.toWbCtrl he⟩

theorem ctrlDecoded_run (imem : Imem) (p : PowerUp) (o : Nat → OpenNets) (n : Nat) :
    CtrlDecoded (run imem p o n) := by
  induction n with
  | zero => exact ⟨⟨0, 0, rfl⟩, ⟨0, 0, rfl⟩, ⟨0, 0, rfl⟩⟩
  | succ n ih => exact ctrlDecoded_step ih

end Decoded

section Mode

/-- Behind an instruction that writes a CSR the next stage is free, so the
mode switches with nothing of the reorder buffer in EX or MEM. -/
structure ModeInv (s : State) : Prop where
  csrMem : s.exMem.ctrl.csrWrite = true → s.idEx = {} ∧ s.track.validEx = false
  inOrder : oooEn s = false → s.track.validEx = false ∧ s.track.validMem = false

theorem oooEn_tick (h : s.exMem.ctrl.csrWrite = false) : oooEn (tick imem o s) = oooEn s := by
  have hw : (csrIn s).csrWrite = false := h
  simp only [oooEn, tick, CsrFile.csrTick, hw, Bool.false_eq_true, if_false]
  split_ifs <;> rfl

theorem dispatchEn_of_csrWriteMem (h : s.exMem.ctrl.csrWrite = true) : dispatchEn s = false :=
  dispatchEn_of_flushIdEx (flushIdEx_of_csrHazard (by simp [csrHazard, hazardIn, h]))

theorem modeInv_step (h : ModeInv s) : ModeInv (tick imem o s) := by
  refine ⟨fun hw => ?_, fun hooo => ?_⟩
  · have hex : s.idEx.ctrl.csrWrite = true := by
      rw [exMem_tick] at hw
      split_ifs at hw
      exact hw
    have hflush := flushIdEx_of_csrHazard (s := s) (by simp [csrHazard, hazardIn, hex])
    refine ⟨?_, ?_⟩
    · rw [idEx_tick, holdsId, hflush]
      rfl
    · rw [validEx_tick, dispatchEn_of_flushIdEx hflush]
      rfl
  · rw [validEx_tick, validMem_tick]
    cases hw : s.exMem.ctrl.csrWrite with
    | true => simp [dispatchEn_of_csrWriteMem hw, (h.csrMem hw).2]
    | false =>
        rw [oooEn_tick hw] at hooo
        simp [dispatchEn, hooo, (h.inOrder hooo).1]

theorem modeInv_run (imem : Imem) (p : PowerUp) (o : Nat → OpenNets) (n : Nat) : ModeInv (run imem p o n) := by
  induction n with
  | zero => exact ⟨fun h => (Bool.false_ne_true h).elim, fun _ => ⟨rfl, rfl⟩⟩
  | succ n ih => exact modeInv_step ih

end Mode

end VMate.StageCtrl
