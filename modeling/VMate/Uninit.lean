import VMate.OooFlush
import VMate.OooSpace

namespace VMate.Uninit

open Decode Pipe NanBox FpUnpack RegFile RiscvTop RobFifo OooTrap OooFlush OooSpace

attribute [ext] State

/-- `s` with other contents in what reset leaves alone. -/
def withStorage (s : State) (w : BitVec 4 → Bool) (q : Iq.State 8) : State := { s with robRegWriteArray := w, iq := q }

section Wires

variable {s : State} {w : BitVec 4 → Bool} {q : Iq.State 8} (o : OpenNets)
  (hw : commitEn s = true → w (robHead s) = s.robRegWriteArray (robHead s)) (hq : Iq.iqFull q = Iq.iqFull s.iq)

include hw

theorem commitRegWrite_withStorage :
    (commitEn s && commitRegWrite (withStorage s w q)) = (commitEn s && commitRegWrite s) := by
  cases hc : commitEn s with
  | false => rfl
  | true =>
      change (true && w (robHead s)) = (true && s.robRegWriteArray (robHead s))
      rw [hw hc]

theorem commitFwdMatch_withStorage (rs : BitVec 5) : commitFwdMatch (withStorage s w q) rs = commitFwdMatch s rs := by
  have h := commitRegWrite_withStorage (q := q) hw
  change (oooEn s && commitEn s && commitRegWrite (withStorage s w q) && _ && _ && _) = _
  rw [commitFwdMatch, Bool.and_assoc (oooEn s), h, ← Bool.and_assoc]
  rfl

theorem commitFwdMatchFp_withStorage (rs : BitVec 5) :
    commitFwdMatchFp (withStorage s w q) rs = commitFwdMatchFp s rs := by
  have h := commitRegWrite_withStorage (q := q) hw
  change (oooEn s && commitEn s && commitRegWrite (withStorage s w q) && _ && _) = _
  rw [commitFwdMatchFp, Bool.and_assoc (oooEn s), h, ← Bool.and_assoc]
  rfl

theorem operandsEx_withStorage : operandsEx (withStorage s w q) = operandsEx s := by
  simp only [operandsEx, forwardedInt, forwardedFp, commitFwdMatch_withStorage hw, commitFwdMatchFp_withStorage hw]
  rfl

theorem intPort_withStorage : intPort (withStorage s w q) = intPort s := by
  have h := commitRegWrite_withStorage (q := q) hw
  simp only [intPort]
  congr 1
  change (if oooEn s then commitEn s && commitRegWrite (withStorage s w q) && _ && _ else _) = _
  rw [h]
  rfl

theorem fpPort_withStorage : fpPort (withStorage s w q) = fpPort s := by
  have h := commitRegWrite_withStorage (q := q) hw
  simp only [fpPort]
  congr 1
  change (if oooEn s then commitEn s && commitRegWrite (withStorage s w q) && _ && _ else _) = _
  rw [h]
  rfl

theorem idExIn_withStorage : idExIn (withStorage s w q) = idExIn s := by
  simp only [idExIn, rs1DataId, rs2DataId, fpRs1DataId, fpRs2DataId, fpRs3DataId, intPort_withStorage hw,
    fpPort_withStorage hw]
  rfl

theorem pcSelEx_withStorage : pcSelEx (withStorage s w q) = pcSelEx s := by
  rw [pcSelEx, operandsEx_withStorage hw]
  rfl

theorem pcTargetEx_withStorage : pcTargetEx (withStorage s w q) = pcTargetEx s := by
  rw [pcTargetEx, operandsEx_withStorage hw]
  rfl

theorem finalPcSel_withStorage : finalPcSel (withStorage s w q) = finalPcSel s := by
  rw [finalPcSel, pcSelEx_withStorage hw]
  rfl

theorem finalPcTarget_withStorage : finalPcTarget o (withStorage s w q) = finalPcTarget o s := by
  rw [finalPcTarget, pcTargetEx_withStorage hw]
  rfl

theorem hazard_withStorage : hazard (withStorage s w q) = hazard s := by
  rw [hazard, hazardIn, finalPcSel_withStorage hw]
  rfl

theorem validInst_withStorage : validInstIdNoStall (withStorage s w q) = validInstIdNoStall s := by
  rw [validInstIdNoStall, hazard_withStorage hw]
  rfl

include hq

theorem stallDispatch_withStorage : stallDispatch (withStorage s w q) = stallDispatch s := by
  rw [stallDispatch, validInst_withStorage hw]
  change (oooEn s && (_ || Iq.iqFull q) && _) = _
  rw [hq]
  rfl

theorem stallPc_withStorage : stallPc (withStorage s w q) = stallPc s := by
  rw [stallPc, hazard_withStorage hw, stallDispatch_withStorage hw hq]
  rfl

theorem stallIfId_withStorage : stallIfId (withStorage s w q) = stallIfId s := by
  rw [stallIfId, hazard_withStorage hw, stallDispatch_withStorage hw hq]
  rfl

theorem dispatchEn_withStorage : dispatchEn (withStorage s w q) = dispatchEn s := by
  rw [dispatchEn, validInst_withStorage hw, stallIfId_withStorage hw hq]
  rfl

theorem pcTick_withStorage : pcTick o (withStorage s w q) = pcTick o s := by
  rw [pcTick, stallPc_withStorage hw hq, finalPcSel_withStorage hw, finalPcTarget_withStorage o hw]
  rfl

theorem trackTick_withStorage : trackTick (withStorage s w q) = trackTick s := by
  simp only [trackTick, hazard_withStorage hw, dispatchEn_withStorage hw hq, pcSelEx_withStorage hw,
    pcTargetEx_withStorage hw]
  rfl

theorem ratIn_withStorage : ratIn (withStorage s w q) = ratIn s := by
  rw [ratIn, dispatchEn_withStorage hw hq]
  rfl

omit hq in
theorem cdbData_withStorage : cdbData o (withStorage s w q) = cdbData o s := by
  simp only [cdbData, exCdbData, fpAluResultEx, aluResultEx, operandsEx_withStorage hw]
  rfl

omit hq in
theorem cdbTarget_withStorage : cdbPcSel (withStorage s w q) = cdbPcSel s ∧
    cdbPcTarget (withStorage s w q) = cdbPcTarget s := by
  refine ⟨?_, ?_⟩
  · rw [cdbPcSel, pcSelEx_withStorage hw]
    rfl
  · rw [cdbPcTarget, pcTargetEx_withStorage hw]
    rfl

theorem robIn_withStorage : robIn o (withStorage s w q) = robIn o s := by
  rw [robIn, dispatchEn_withStorage hw hq, cdbData_withStorage o hw, (cdbTarget_withStorage hw).1,
    (cdbTarget_withStorage hw).2]
  rfl

omit hq in
theorem iqDispatch_withStorage : iqDispatch (withStorage s w q) = iqDispatch s := by
  simp only [iqDispatch, rs1DataId, rs2DataId, fpRs1DataId, fpRs2DataId, fpRs3DataId, intPort_withStorage hw,
    fpPort_withStorage hw]
  rfl

end Wires

section Step

variable {s : State} {w : BitVec 4 → Bool} {q : Iq.State 8} (imem : Imem) (o : OpenNets)
  (hw : commitEn s = true → w (robHead s) = s.robRegWriteArray (robHead s)) (hq : Iq.iqFull q = Iq.iqFull s.iq)

include hw hq in
/-- Storage that is not in use has no effect outside itself. -/
theorem tick_withStorage : tick imem o (withStorage s w q) = withStorage (tick imem o s)
    (tick imem o (withStorage s w q)).robRegWriteArray (tick imem o (withStorage s w q)).iq := by
  ext1
  case pc => exact pcTick_withStorage o hw hq
  case ifId =>
    change pipeTick ((hazard (withStorage s w q)).flushIfId || finalFlush s) (stallIfId (withStorage s w q)) _ _ _ = _
    rw [hazard_withStorage hw, stallIfId_withStorage hw hq]
    rfl
  case idEx =>
    change pipeTick ((hazard (withStorage s w q)).flushIdEx || finalFlush s || stallDispatch (withStorage s w q)) _ _ _
      (idExIn (withStorage s w q)) = _
    rw [hazard_withStorage hw, stallDispatch_withStorage hw hq, idExIn_withStorage hw]
    rfl
  case exMem =>
    change pipeTick ((hazard (withStorage s w q)).flushExMem || finalFlush s) _ _ _
      (exMemIn s.idEx (operandsEx (withStorage s w q)) (fcsrRmMem s)) = _
    rw [hazard_withStorage hw, operandsEx_withStorage hw]
    rfl
  case memWb =>
    change pipeTick ((hazard (withStorage s w q)).flushMemWb || finalFlush s) _ _ _ _ = _
    rw [hazard_withStorage hw]
    rfl
  case regs =>
    change intWrite s.regs (intPort (withStorage s w q)) = _
    rw [intPort_withStorage hw]
    rfl
  case fpr =>
    change fpWrite s.fpr (fpPort (withStorage s w q)) = _
    rw [fpPort_withStorage hw]
    rfl
  case rob =>
    change Rob.robTick s.rob (robIn o (withStorage s w q)) = _
    rw [robIn_withStorage o hw hq]
    rfl
  case rat =>
    change Rat.ratTick s.rat (ratIn (withStorage s w q)) = _
    rw [ratIn_withStorage hw hq]
    rfl
  case track => exact trackTick_withStorage hw hq
  all_goals rfl

end Step

section Queue

variable {q q' : Iq.State 8} {i : Iq.IqIn}

/-- The queues hold the same entries. -/
def SameEntries (q q' : Iq.State 8) : Prop :=
  ∀ k, (q' k).valid = (q k).valid ∧ ((q k).valid = true → q' k = q k)

theorem allocIdx_of_same (h : SameEntries q q') : Iq.allocIdx q' = Iq.allocIdx q :=
  congrArg Iq.firstIdx (funext fun k => congrArg not (h k).1)

theorem selIdx_of_same (h : SameEntries q q') : Iq.selIdx q' i = Iq.selIdx q i := by
  refine congrArg Iq.firstIdx (funext fun k => ?_)
  obtain ⟨hvalid, heq⟩ := h k
  cases hv : (q k).valid with
  | true => rw [heq hv]
  | false => simp only [Iq.ready, hvalid, hv, Bool.false_and]

/-- The entry at `k` after an edge depends on the queue through its two
priority loops and the entry itself. -/
def entryTick (e : Iq.IqEntry) (i : Iq.IqIn) (selected allocated : Bool) : Iq.IqEntry :=
  if !i.oooEn then e
  else if i.flush then { e with valid := false }
  else if i.dispatchEn && allocated then { Iq.woken i i.entry with valid := true }
  else if e.valid then Iq.woken i (if i.issueAck && selected then { e with valid := false } else e)
  else if i.issueAck && selected then { e with valid := false } else e

theorem iqTick_apply (k : Fin 8) : Iq.iqTick q i k =
    entryTick (q k) i (Iq.selIdx q i == some k) (Iq.allocIdx q == some k) := by
  cases hooo : i.oooEn with
  | false => simp [Iq.iqTick, entryTick, hooo]
  | true =>
      cases hf : i.flush with
      | true => simp [Iq.iqTick, entryTick, hooo, hf]
      | false => simp [Iq.iqTick, entryTick, hooo, hf]

theorem entryTick_invalid {e e' : Iq.IqEntry} (he : e.valid = false) (he' : e'.valid = false)
    (selected allocated : Bool) :
    (entryTick e' i selected allocated).valid = (entryTick e i selected allocated).valid ∧
      ((entryTick e i selected allocated).valid = true →
        entryTick e' i selected allocated = entryTick e i selected allocated) := by
  have hkept : e'.valid = e.valid ∧ (e.valid = true → e' = e) :=
    ⟨he'.trans he.symm, fun hv => by rw [he] at hv; cases hv⟩
  simp only [entryTick, he, he', Bool.false_eq_true, if_false]
  split_ifs
  · exact hkept
  · exact ⟨rfl, False.elim⟩
  · exact ⟨rfl, fun _ => rfl⟩
  · exact ⟨rfl, False.elim⟩
  · exact hkept

theorem iqTick_same (h : SameEntries q q') : SameEntries (Iq.iqTick q i) (Iq.iqTick q' i) := by
  intro k
  obtain ⟨hvalid, heq⟩ := h k
  rw [iqTick_apply, iqTick_apply, allocIdx_of_same h, selIdx_of_same h]
  cases hv : (q k).valid with
  | true => rw [heq hv]; exact ⟨rfl, fun _ => rfl⟩
  | false => exact entryTick_invalid hv (hvalid.trans hv) _ _

end Queue

section Run

/-- `s'` differs from `s` at most in storage that is not in use. -/
structure Agree (s s' : State) : Prop where
  rest : s' = withStorage s s'.robRegWriteArray s'.iq
  written : ∀ j, (s.rob.robData j).valid = true → s'.robRegWriteArray j = s.robRegWriteArray j
  queued : SameEntries s.iq s'.iq

variable {imem : Imem} {o : OpenNets} {s s' : State}

theorem iqIn_withStorage (o : OpenNets) {w : BitVec 4 → Bool} {q : Iq.State 8}
    (hw : commitEn s = true → w (robHead s) = s.robRegWriteArray (robHead s)) (hq : SameEntries s.iq q) :
    iqIn o (withStorage s w q) = iqIn o s := by
  have hfull : Iq.iqFull q = Iq.iqFull s.iq := congrArg Option.isNone (allocIdx_of_same hq)
  have hissue (i : Iq.IqIn) : Iq.issueEn q i = Iq.issueEn s.iq i := congrArg Option.isSome (selIdx_of_same hq)
  simp only [iqIn, dispatchEn_withStorage hw hfull, iqDispatch_withStorage hw, cdbData_withStorage o hw]
  exact congrArg (fun b => { iqIn o s with issueAck := b }) (hissue _)

theorem Agree.head (h : Agree s s') (hc : commitEn s = true) :
    s'.robRegWriteArray (robHead s) = s.robRegWriteArray (robHead s) :=
  h.written _ ((commitEn_iff s.rob).mp hc).2.1

theorem Agree.full (h : Agree s s') : Iq.iqFull s'.iq = Iq.iqFull s.iq :=
  congrArg Option.isNone (allocIdx_of_same h.queued)

theorem valid_tick (hooo : oooEn s = true) {j : BitVec 4} (hv : ((tick imem o s).rob.robData j).valid = true) :
    (dispatchEn s = true ∧ j = robIdxDisp s) ∨ (s.rob.robData j).valid = true := by
  cases hf : finalFlush s with
  | true =>
      rw [rob_tick_flush hooo hf] at hv
      exact (Bool.false_ne_true hv).elim
  | false =>
      rw [rob_tick_data hooo hf, nextEntry_valid] at hv
      split_ifs at hv with hret hacc
      · rw [Bool.and_eq_true, accepts_robIn, beq_iff_eq] at hacc
        exact .inl hacc
      · exact .inr hv

/-- The slots in use have been written since they were filled. -/
theorem written_step (h : Agree s s') {j : BitVec 4} (hv : ((tick imem o s).rob.robData j).valid = true) :
    (tick imem o s').robRegWriteArray j = (tick imem o s).robRegWriteArray j := by
  have hd : dispatchEn s' = dispatchEn s := by
    rw [h.rest]
    exact dispatchEn_withStorage h.head h.full
  have hsame : ((ctrlId s').regWrite || (ctrlId s').fpWe) = ((ctrlId s).regWrite || (ctrlId s).fpWe) := by
    rw [h.rest]
    rfl
  have hidx : robIdxDisp s' = robIdxDisp s := by rw [h.rest]; rfl
  have hor : (dispatchEn s = true ∧ j = robIdxDisp s) ∨ (s.rob.robData j).valid = true := by
    cases hooo : oooEn s with
    | true => exact valid_tick hooo hv
    | false =>
        rw [rob_tick_inOrder hooo] at hv
        exact .inr hv
  simp only [tick, hd, hsame, hidx]
  cases hdisp : dispatchEn s with
  | false => exact h.written j (hor.resolve_left fun hn => by rw [hdisp] at hn; cases hn.1)
  | true =>
      by_cases hj : j = robIdxDisp s
      · simp [hj]
      · simp [hj, h.written j (hor.resolve_left fun hn => hj hn.2)]

theorem queued_step (h : Agree s s') : SameEntries (tick imem o s).iq (tick imem o s').iq := by
  have hin : iqIn o s' = iqIn o s := by
    rw [h.rest]
    exact iqIn_withStorage o h.head h.queued
  change SameEntries (Iq.iqTick s.iq (iqIn o s)) (Iq.iqTick s'.iq (iqIn o s'))
  rw [hin]
  exact iqTick_same h.queued

theorem agree_step (h : Agree s s') : Agree (tick imem o s) (tick imem o s') where
  rest := by
    have ht := tick_withStorage imem o h.head h.full
    rwa [← h.rest] at ht
  written _ hv := written_step h hv
  queued := queued_step h

end Run

/-- What reset leaves uninitialised is never read: runs that start with other
contents of the write-enable array and of the issue queue agree in every
register, in memory, in the CSRs and in what is in flight. -/
theorem powerUp_unobservable (imem : Imem) (p : PowerUp) (w : BitVec 4 → Bool) (q : Iq.State 8) (o : Nat → OpenNets)
    (n : Nat) : Agree (run imem p o n) (run imem { p with robRegWriteArray := w, iqPayload := q } o n) := by
  induction n with
  | zero => exact ⟨rfl, fun j hv => (Bool.false_ne_true hv).elim, fun k => ⟨rfl, fun hv => (Bool.false_ne_true hv).elim⟩⟩
  | succ n ih => exact agree_step ih

section Nets

variable {imem : Imem} {s : State} {q : Iq.State 8} {o o' : OpenNets}

/-- No entry in use waits for an operand. -/
def Unwaiting (q : Iq.State 8) : Prop := ∀ k, (q k).valid = true → settled (q k)

theorem unwaiting_step (h : Unwaiting s.iq) : Unwaiting (tick imem o s).iq := by
  intro k hv
  change ((Iq.iqTick s.iq (iqIn o s)) k).valid = true at hv
  change settled ((Iq.iqTick s.iq (iqIn o s)) k)
  have hentry : settled (iqIn o s).entry := ⟨rfl, rfl, rfl⟩
  rw [iqTick_apply] at hv ⊢
  unfold entryTick at hv ⊢
  split_ifs at hv ⊢ with hooo hf hd he hi
  · exact h k hv
  · rw [woken_settled hentry]
    exact hentry
  · cases hv
  · rw [woken_settled (h k he)]
    exact h k he
  · exact h k hv

theorem unwaiting_run (imem : Imem) (p : PowerUp) (o : Nat → OpenNets) (n : Nat) : Unwaiting (run imem p o n).iq := by
  induction n with
  | zero => exact fun k hv => (Bool.false_ne_true hv).elim
  | succ n ih => exact unwaiting_step ih

/-- What is on the CDB matters to entries that wait only. -/
theorem iqTick_data (h : Unwaiting q) (i : Iq.IqIn) (hi : settled i.entry) (d : BitVec 64) :
    Iq.iqTick q { i with cdbData := d } = Iq.iqTick q i := by
  funext k
  have hsel : Iq.selIdx q { i with cdbData := d } = Iq.selIdx q i := rfl
  rw [iqTick_apply, iqTick_apply, hsel]
  unfold entryTick
  split_ifs with hooo hf hd hv ht
  · rfl
  · rfl
  · exact congrArg (fun e : Iq.IqEntry => { e with valid := true }) ((woken_settled hi).trans (woken_settled hi).symm)
  · have hgone : settled { q k with valid := false } := h k hv
    exact (woken_settled hgone).trans (woken_settled hgone).symm
  · exact (woken_settled (h k hv)).trans (woken_settled (h k hv)).symm
  all_goals rfl

/-- The next state does not depend on what the open nets read as: a control
transfer that commits goes where the branch adder in EX points as well, and an
FP result that is broadcast from MEM is boxed already. -/
structure Determined (s : State) : Prop where
  target : oooEn s = true → s.exMem.ctrl.exception = false → finalMretExec s = false → finalPcSel s = true →
    pcTargetEx s = (commitEntry s).branchTarget
  result : oooEn s = true → finalFlush s = false → grantMem s = true →
    (s.rob.robData s.track.robIdxMem).valid = true → s.exMem.ctrl.fpWe = true → s.exMem.ctrl.fpMemRead = false →
      isBoxed s.exMem.fpAluResult = true

theorem finalFlush_of_finalPcSel (hooo : oooEn s = true) (hsel : finalPcSel s = true) : finalFlush s = true := by
  rw [finalPcSel, if_pos hooo] at hsel
  rw [finalFlush, hooo, Bool.true_and, hsel, Bool.or_true, Bool.true_or]

theorem pcTick_determined : (∀ o', pcTick o' s = pcTick o s) ↔ (oooEn s = true → s.exMem.ctrl.exception = false →
    finalMretExec s = false → finalPcSel s = true → pcTargetEx s = (commitEntry s).branchTarget) := by
  constructor
  · intro h hooo hx hm hsel
    have hst := stallPc_of_finalFlush hooo (finalFlush_of_finalPcSel hooo hsel)
    have hpc (o' : OpenNets) :
        pcTick o' s = resolve (pcTargetEx s) (commitEntry s).branchTarget o'.contended := by
      rw [pcTick, hx, hm, hst, hsel, finalPcTarget, hooo]
      rfl
    obtain ⟨hex, hcommit⟩ := (resolve_forall_iff (pcTargetEx s) (commitEntry s).branchTarget (pcTick o s)).mp fun u => by
      rw [← hpc ⟨0#32, u⟩]
      exact h ⟨0#32, u⟩
    exact hex.trans hcommit.symm
  · intro h o'
    unfold pcTick
    split_ifs with hx hm hst hsel
    · rfl
    · rfl
    · rfl
    · rw [finalPcTarget, finalPcTarget]
      cases hooo : oooEn s with
      | true =>
          rw [h hooo (Bool.eq_false_iff.mpr hx) (Bool.eq_false_iff.mpr hm) hsel]
          simp [resolve]
      | false => simp [resolve]
    · rfl

/-- The result lines of the ROB matter when an entry completes. -/
theorem robTick_result (r : Rob.State 4) (i : Rob.RobIn 4) (d : BitVec 64) (h : Rob.completes r i = true → d = i.result) :
    Rob.robTick r { i with result := d } = Rob.robTick r i := by
  cases hc : Rob.completes r i with
  | true => rw [h hc]
  | false =>
      have hc' : Rob.completes r { i with result := d } = false := hc
      have hentry : Rob.nextEntry r { i with result := d } = Rob.nextEntry r i := by
        funext j
        unfold Rob.nextEntry
        rw [hc, hc']
        rfl
      unfold Rob.robTick
      rw [hentry]
      rfl

theorem nextEntry_result {r : Rob.State 4} {i : Rob.RobIn 4} (h : Rob.completes r i = true) :
    (Rob.nextEntry r i i.completeIdx).result = i.result := by
  simp only [Rob.nextEntry, h, beq_self_eq_true, Bool.and_self, if_true]
  split_ifs <;> rfl

theorem not_grantWb (hg : grantMem s = true) : grantWb s = false := by
  rw [grantMem, Bool.and_eq_true, Bool.not_eq_true'] at hg
  exact hg.2

theorem completes_of_grantMem (hooo : oooEn s = true) (hg : grantMem s = true) (o : OpenNets) :
    Rob.completes s.rob (robIn o s) = (s.rob.robData s.track.robIdxMem).valid := by
  have hen : cdbEn s = true := by rw [cdbEn, hooo, hg, Bool.or_true, Bool.true_or, Bool.and_self]
  have hidx : cdbRobIdx s = s.track.robIdxMem := by
    rw [cdbRobIdx, not_grantWb hg, if_neg Bool.false_ne_true, hg, if_pos rfl]
  change (cdbEn s && (s.rob.robData (cdbRobIdx s)).valid) = _
  rw [hen, hidx, Bool.true_and]

theorem cdbData_of_grantMem (hg : grantMem s = true) (hwe : s.exMem.ctrl.fpWe = true)
    (hload : s.exMem.ctrl.fpMemRead = false) (o : OpenNets) :
    cdbData o s = nanBoxed (isSinglePrecisionMem o s) s.exMem.fpAluResult := by
  rw [cdbData, not_grantWb hg, if_neg Bool.false_ne_true, hg, if_pos rfl, memCdbData, hwe, if_pos rfl, memFpData, fpResult,
    hload, if_neg Bool.false_ne_true]

theorem cdbData_closed (h : grantMem s = true → s.exMem.ctrl.fpWe = true → s.exMem.ctrl.fpMemRead = false → False)
    (o o' : OpenNets) : cdbData o' s = cdbData o s := by
  rw [cdbData, cdbData]
  split_ifs with hwb hg
  · rfl
  · rw [memCdbData, memCdbData]
    split_ifs with hwe
    · rw [memFpData, memFpData, fpResult, fpResult]
      cases hload : s.exMem.ctrl.fpMemRead with
      | true => rfl
      | false => exact (h hg hwe hload).elim
    · rfl
  · rfl

theorem robTick_determined : (∀ o', (tick imem o' s).rob = (tick imem o s).rob) ↔
    (oooEn s = true → finalFlush s = false → grantMem s = true → (s.rob.robData s.track.robIdxMem).valid = true →
      s.exMem.ctrl.fpWe = true → s.exMem.ctrl.fpMemRead = false → isBoxed s.exMem.fpAluResult = true) := by
  constructor
  · intro h hooo hf hg hv hwe hload
    have hresult (o' : OpenNets) : nanBoxed (isSinglePrecisionMem o' s) s.exMem.fpAluResult =
        ((tick imem o s).rob.robData (cdbRobIdx s)).result := by
      rw [← cdbData_of_grantMem hg hwe hload o', ← h o', rob_tick_data hooo hf]
      exact (nextEntry_result ((completes_of_grantMem hooo hg o').trans hv)).symm
    have hsingle : isSinglePrecisionMem ⟨0x00000000#32, 0#32⟩ s = true := by
      rw [isSinglePrecisionMem, if_pos hooo]
      decide
    have hdouble : isSinglePrecisionMem ⟨0x02000000#32, 0#32⟩ s = false := by
      rw [isSinglePrecisionMem, if_pos hooo]
      decide
    have hboth := (hresult ⟨0x00000000#32, 0#32⟩).trans (hresult ⟨0x02000000#32, 0#32⟩).symm
    rw [hsingle, hdouble] at hboth
    exact nanBoxed_eq_iff.mp hboth rfl
  · intro h o'
    change Rob.robTick s.rob (robIn o' s) = Rob.robTick s.rob (robIn o s)
    cases hooo : oooEn s with
    | false => rw [Rob.robTick, Rob.robTick, if_pos, if_pos] <;> simp [robIn, hooo]
    | true =>
        cases hf : finalFlush s with
        | true => exact (robTick_flush hooo hf).trans (robTick_flush hooo hf).symm
        | false =>
            refine robTick_result s.rob (robIn o s) (cdbData o' s) fun hc => ?_
            by_cases hm : grantMem s = true ∧ s.exMem.ctrl.fpWe = true ∧ s.exMem.ctrl.fpMemRead = false
            · obtain ⟨hg, hwe, hload⟩ := hm
              rw [completes_of_grantMem hooo hg] at hc
              have hbox := h hooo hf hg hc hwe hload
              change cdbData o' s = cdbData o s
              rw [cdbData_of_grantMem hg hwe hload, cdbData_of_grantMem hg hwe hload, nanBoxed_eq_iff.mpr fun _ => hbox,
                nanBoxed_eq_iff.mpr fun _ => hbox]
            · exact cdbData_closed (fun hg hwe hload => hm ⟨hg, hwe, hload⟩) o o'

theorem tick_determined (hq : Unwaiting s.iq) : (∀ o', tick imem o' s = tick imem o s) ↔ Determined s := by
  constructor
  · intro h
    exact ⟨pcTick_determined.mp fun o' => congrArg State.pc (h o'),
      robTick_determined.mp fun o' => congrArg State.rob (h o')⟩
  · intro h o'
    ext1
    case pc => exact pcTick_determined.mpr h.target o'
    case rob => exact robTick_determined.mpr h.result o'
    case iq => exact iqTick_data hq (iqIn o s) ⟨rfl, rfl, rfl⟩ (cdbData o' s)
    all_goals rfl

end Nets

/-- The nets that are undriven or driven twice can be observed in a run exactly
where a cycle is not determined without them. In in-order mode every cycle is. -/
theorem openNets_unobservable_iff (imem : Imem) (p : PowerUp) (o : Nat → OpenNets) (n : Nat) :
    (∀ o', ∀ m ≤ n, run imem p o' m = run imem p o m) ↔ ∀ k < n, Determined (run imem p o k) := by
  constructor
  · intro h k hk
    have hdet : (∀ u, tick imem u (run imem p o k) = tick imem (o k) (run imem p o k)) ↔ Determined (run imem p o k) :=
      tick_determined (unwaiting_run imem p o k)
    refine hdet.mp fun u => ?_
    have hnow := h (Function.update o k u) k (by omega)
    have hnext := h (Function.update o k u) (k + 1) hk
    rw [run, run, hnow, Function.update_self] at hnext
    exact hnext
  · intro h o' m
    induction m with
    | zero => exact fun _ => rfl
    | succ m ih =>
        intro hm
        rw [run, run, ih (by omega)]
        exact (tick_determined (unwaiting_run imem p o m)).mpr (h m hm) (o' m)

end VMate.Uninit
