import VMate.OooPathStep
import VMate.OooFlush

namespace VMate.OooRefine

open Decode Pipe RegFile RiscvTop SeqExec DecodeFacts StageCtrl RobFifo OooTrap OooWindow OooTimeline OooSerial OooForward
  Speculate OooPath OooOperand OooExec OooPathStep
open OooResult (wbValue)

section Step

variable {imem : Imem} {o : OpenNets} {a0 : Arch} {pos : Nat → Slot} {s : State} {k : Nat}
  (hp : OnPath imem a0 pos s) (hr : RunInv s) (hs : Sound o s) (hooo : oooEn s = true) (hf : finalFlush s = false)

include hp hr

/-- What is in EX cannot commit. -/
theorem commit_le : (commitEn s).toNat + s.track.validEx.toNat ≤ occ s := by
  cases hc : commitEn s with
  | false =>
      cases hv : s.track.validEx with
      | false => exact Nat.zero_le _
      | true =>
          obtain ⟨k, hk, -⟩ := hr.inv.ex hv
          rw [hk]
          exact Nat.le_add_left _ _
  | true =>
      have hpos := ((commitEn_eq hr.trap.wf).mp hc).1
      cases hv : s.track.validEx with
      | false => exact hpos
      | true =>
          obtain ⟨k, hk, -, hcomp, -⟩ := hr.inv.ex hv
          have hk0 : k ≠ 0 := by
            rintro rfl
            rw [commitEn_head hr.trap.wf hc, (hp.ex hv 0 hk hp.window.head).ctrl,
              (hp.entry 0 (by omega) hp.window.head).trap] at hcomp
            cases hcomp
          simp only [Bool.toNat_true]
          omega

include hooo hf

theorem occ_next (o : OpenNets) :
    occ (tick imem o s) = occ s - (commitEn s).toNat + (dispatchEn s).toNat := by
  have hocc := occ_tick imem o hr.trap.wf hooo hf
  have hle := commit_le hp hr
  omega

theorem not_turn (hc : commitEn s = true) : 0 < occ s ∧ (refPath imem a0).turn (pos 0).idx = false := by
  refine ⟨((commitEn_eq hr.trap.wf).mp hc).1, ?_⟩
  rw [Bool.eq_false_iff]
  intro ht
  rw [(finalFlush_iff hp hr hc hooo).mpr ht] at hf
  cases hf

theorem window_next (o : OpenNets) : Window (refPath imem a0) (occ (tick imem o s)) (nextPos imem a0 s pos) := by
  rw [occ_next hp hr hooo hf]
  exact hp.window.advance (not_turn hp hr hooo hf) (blank_of_passes hp)

omit hooo hf in
/-- What blank words do not change is found where it was. -/
theorem value_kept {α : Type} {f : Arch → α} (hb : ∀ a q, f { a with pc := q } = f a)
    (hk : k ≤ occ s - (commitEn s).toNat) :
    f (archPos imem a0 (nextPos imem a0 s pos) k) = f (archPos imem a0 pos (k + (commitEn s).toNat)) := by
  have hle := commit_le hp hr
  exact advance_value (P := refPath imem a0) (f := fun i => f (archAt imem a0 i)) (value_of_blanks hb) (by omega)
    (fun h => (blank_of_passes hp h).2) hk

omit hp hr hooo hf in
theorem pos_kept (imem : Imem) (a0 : Arch) (pos : Nat → Slot) (hk : k < occ s - (commitEn s).toNat) :
    nextPos imem a0 s pos k = pos (k + (commitEn s).toNat) :=
  advance_kept hk

omit hooo hf in
theorem pos_taken (hd : dispatchEn s = true) :
    nextPos imem a0 s pos (occ s - (commitEn s).toNat) = pos (occ s) := by
  have hle := commit_le hp hr
  rw [nextPos, hd]
  exact (advance_taken (by omega)).1

theorem files_next (o : OpenNets) : (tick imem o s).regs = (archPos imem a0 (nextPos imem a0 s pos) 0).regs ∧
    (tick imem o s).fpr = (archPos imem a0 (nextPos imem a0 s pos) 0).fpr := by
  have hregs := value_kept hp hr (f := Arch.regs) (fun _ _ => rfl) (Nat.zero_le _)
  have hfpr := value_kept hp hr (f := Arch.fpr) (fun _ _ => rfl) (Nat.zero_le _)
  rw [hregs, hfpr]
  change intWrite s.regs (intPort s) = _ ∧ fpWrite s.fpr (fpPort s) = _
  cases hc : commitEn s with
  | false =>
      rw [intWrite_of_we_false (by simp [intPort, hooo, hc]), fpWrite_of_we_false (by simp [fpPort, hooo, hc])]
      exact ⟨hp.regs, hp.fpr⟩
  | true =>
      obtain ⟨hint, hfp⟩ := commit_writes hp hr hc hooo
      have hpos := (not_turn hp hr hooo hf hc).1
      rw [hint, hfp]
      exact ⟨(value_next hp (f := Arch.regs) (fun _ _ => rfl) hpos hp.window.head).symm,
        (value_next hp (f := Arch.fpr) (fun _ _ => rfl) hpos hp.window.head).symm⟩

omit hp hr hooo in
theorem valid_next (o : OpenNets) : (tick imem o s).track.validEx = dispatchEn s ∧
    (tick imem o s).track.validMem = s.track.validEx ∧ (tick imem o s).track.validWb = s.track.validMem := by
  rw [track_tick hf]
  exact ⟨rfl, rfl, rfl⟩

/-- A return that arrives at the head has not gone further than EX. -/
theorem reach_next (o : OpenNets) (hhead : ¬ MretHead imem a0 pos s) :
    reach imem a0 (nextPos imem a0 s pos) (tick imem o s) = occ s - (commitEn s).toNat - s.track.validEx.toNat := by
  obtain ⟨hvE, hvM, -⟩ := valid_next hf o
  have hocc := occ_next hp hr hooo hf o
  have hwin := window_next hp hr hooo hf o
  rw [reach, hvE, hvM, hocc, Nat.add_sub_cancel]
  split_ifs with hhead'
  · by_contra hne
    have hlt : 0 < occ s - (commitEn s).toNat := by omega
    obtain ⟨-, hret⟩ := hhead'
    have hkept := pos_kept imem a0 pos hlt
    have hlive := hwin.head
    rw [archPos, hkept, ← archPos] at hret
    rw [hkept] at hlive
    cases hc : commitEn s with
    | false =>
        rw [hc] at hret hlt
        exact hhead ⟨hlt, hret⟩
    | true =>
        rw [hc, Bool.toNat_true] at hret hlive hlt
        have he := hp.entry 1 (by omega) hlive
        exact absurd (pos_of_serial hp hr (by omega) hlive (serial_of_mret hret he.mret)) (by omega)
  · rfl

include hs

theorem memory_next : (tick imem o s).dmem =
      (archPos imem a0 (nextPos imem a0 s pos) (reach imem a0 (nextPos imem a0 s pos) (tick imem o s))).dmem ∧
    (tick imem o s).csr =
      (archPos imem a0 (nextPos imem a0 s pos) (reach imem a0 (nextPos imem a0 s pos) (tick imem o s))).csr := by
  have hx := finalException_false hp hooo
  have hm : finalMretExec s = false := by
    simp only [finalFlush, Bool.or_eq_false_iff] at hf
    exact hf.2
  by_cases hhead : MretHead imem a0 pos s
  · have hc : commitEn s = false := by
      rw [Bool.eq_false_iff]
      intro hc
      have hturn := (not_turn hp hr hooo hf hc).2
      rw [show (refPath imem a0).turn (pos 0).idx = true from turns_of_mret hhead.2] at hturn
      cases hturn
    have hkept : nextPos imem a0 s pos 0 = pos 0 := by
      have h := pos_kept imem a0 pos (k := 0) (by rw [hc]; exact hhead.1)
      rwa [hc] at h
    have hocc := occ_next hp hr hooo hf o
    rw [hc, Bool.toNat_false, Nat.sub_zero] at hocc
    have hhead' : MretHead imem a0 (nextPos imem a0 s pos) (tick imem o s) := by
      refine ⟨by rw [hocc]; exact Nat.lt_add_right _ hhead.1, ?_⟩
      rw [archPos, hkept]
      exact hhead.2
    obtain ⟨hw, hfl⟩ := mret_still hp hr hs hooo hhead
    have hw' := hw
    simp only [writesState, Bool.or_eq_false_iff] at hw'
    have hdmem := hp.dmem
    have hcsr := hp.csr
    rw [reach, if_pos hhead] at hdmem hcsr
    rw [reach, if_pos hhead', archPos, hkept, ← archPos, ← hdmem, ← hcsr]
    exact ⟨dmem_frame hw, csr_still hx hm hw'.2 hfl⟩
  · obtain ⟨hdmem, hcsr⟩ := mem_tick hp hr hs hooo hm hhead
    have hle := commit_le hp hr
    have hk : occ s - (commitEn s).toNat - s.track.validEx.toNat + (commitEn s).toNat =
        occ s - s.track.validEx.toNat := by omega
    rw [reach_next hp hr hooo hf o hhead, value_kept hp hr (f := Arch.dmem) (fun _ _ => rfl) (by omega),
      value_kept hp hr (f := Arch.csr) (fun _ _ => rfl) (by omega), hk]
    exact ⟨hdmem, hcsr⟩

theorem entry_next (hk : k < occ (tick imem o s)) (hl : (nextPos imem a0 s pos k).live = true) :
    EntryHolds imem (archPos imem a0 (nextPos imem a0 s pos) k) (entryAt (tick imem o s) k)
      ((tick imem o s).robRegWriteArray (slot (tick imem o s) k)) := by
  have hle := commit_le hp hr
  have hocc := occ_next hp hr hooo hf o
  have hbound := occ_le hr.inv
  rw [entryAt, slot_tick hooo hf]
  by_cases hlt : k < occ s - (commitEn s).toNat
  · have hkept := pos_kept imem a0 pos hlt
    rw [hkept] at hl
    rw [archPos, hkept, ← archPos]
    refine entry_step hp hr hs hooo hf (by omega) hl fun hc => ?_
    rw [← slot_zero] at hc
    have h0 := (slot_inj (by omega) (by omega)).mp hc.2
    rw [hc.1, Bool.toNat_true] at h0
    omega
  · have hd : dispatchEn s = true := by
      by_contra hd
      rw [Bool.eq_false_iff.mpr hd, Bool.toNat_false] at hocc
      omega
    rw [hd, Bool.toNat_true] at hocc
    obtain rfl : k = occ s - (commitEn s).toNat := by omega
    have htaken := pos_taken hp hr hd
    rw [htaken] at hl
    rw [archPos, htaken, ← archPos, Nat.sub_add_cancel (by omega), ← robIdxDisp_eq hr.trap.wf]
    exact entryHolds_dispatched hp hr hs hd hl

theorem stages_next :
    ((tick imem o s).track.validEx = true → ∀ k, occ (tick imem o s) = k + 1 → (nextPos imem a0 s pos k).live = true →
      ExHolds imem (tick imem o s) (archPos imem a0 (nextPos imem a0 s pos) k)) ∧
    ((tick imem o s).track.validMem = true →
      ∀ k, occ (tick imem o s) = k + 1 + (tick imem o s).track.validEx.toNat →
      (nextPos imem a0 s pos k).live = true →
      MemHolds imem (tick imem o s) (archPos imem a0 (nextPos imem a0 s pos) k)) ∧
    ((tick imem o s).track.validWb = true →
      ∀ k, occ (tick imem o s) = k + 1 + (tick imem o s).track.validEx.toNat + (tick imem o s).track.validMem.toNat →
      (nextPos imem a0 s pos k).live = true →
      WbHolds imem (tick imem o s) (archPos imem a0 (nextPos imem a0 s pos) k)) := by
  obtain ⟨hvE, hvM, hvW⟩ := valid_next hf o
  have hocc := occ_next hp hr hooo hf o
  have hle := commit_le hp hr
  refine ⟨fun hv k hk hl => ?_, fun hv k hk hl => ?_, fun hv k hk hl => ?_⟩
  · rw [hvE] at hv
    rw [hv, Bool.toNat_true] at hocc
    obtain rfl : k = occ s - (commitEn s).toNat := by omega
    have htaken := pos_taken hp hr hv
    rw [htaken] at hl
    rw [archPos, htaken, ← archPos]
    exact exHolds_dispatched hp hr hv hl
  · rw [hvM] at hv
    rw [hvE] at hk
    rw [hv, Bool.toNat_true] at hle
    have hlt : k < occ s - (commitEn s).toNat := by omega
    have hkept := pos_kept imem a0 pos hlt
    rw [hkept] at hl
    rw [archPos, hkept, ← archPos]
    obtain ⟨hexMem, hsel, htgt⟩ := execute_eq hp hr hs hooo hv (by omega) hl
    refine ⟨?_, ?_, ?_⟩
    · rw [exMem_tick, hf, if_neg Bool.false_ne_true, hexMem]
    · rw [track_tick hf, ← hsel]
    · rw [track_tick hf, ← htgt]
  · rw [hvW] at hv
    rw [hvE, hvM] at hk
    obtain ⟨m, hmk, -⟩ := hr.inv.mem hv
    have hlt : k < occ s - (commitEn s).toNat := by omega
    have hkept := pos_kept imem a0 pos hlt
    rw [hkept] at hl
    rw [archPos, hkept, ← archPos]
    have hmem := hp.mem hv _ (by omega) hl
    refine ⟨?_, ?_, ?_⟩
    · rw [memWb_tick, hf, if_neg Bool.false_ne_true]
      exact (memWb_of_mem hp hv (by omega) hl).2.2
    · rw [track_tick hf, ← hmem.sel]
    · rw [track_tick hf, ← hmem.target]

omit hs in
theorem settled_next (hv : (tick imem o s).track.validWb = true)
    (hset : occ (tick imem o s) = (tick imem o s).track.validEx.toNat + (tick imem o s).track.validMem.toNat)
    (fp : Bool) (rs : BitVec 5) (hrs : Named fp rs)
    (hw : writesReg fp (tick imem o s).memWb.ctrl (tick imem o s).memWb.instruction rs = true) :
    regValue fp (tick imem o s) rs = wbValue (tick imem o s).memWb := by
  obtain ⟨hvE, hvM, hvW⟩ := valid_next hf o
  have hocc := occ_next hp hr hooo hf o
  have hle := commit_le hp hr
  rw [hvW] at hv
  rw [hvE, hvM] at hset
  obtain ⟨m, hmk, -⟩ := hr.inv.mem hv
  have hcle := Bool.toNat_le (commitEn s)
  obtain rfl : m = 0 := by omega
  have hc1 : (commitEn s).toNat = 1 := by omega
  have hlive := hp.window.head
  have hmemWb : (tick imem o s).memWb = memWbOf (archPos imem a0 pos 0) (exMemOf imem (archPos imem a0 pos 0)) := by
    rw [memWb_tick, hf, if_neg Bool.false_ne_true]
    exact (memWb_of_mem hp hv (by omega) hlive).2.2
  obtain ⟨hregs, hfpr⟩ := files_next hp hr hooo hf o
  have hval : regValue fp (tick imem o s) rs = archReg fp (archPos imem a0 (nextPos imem a0 s pos) 0) rs := by
    rw [regValue, archReg, hregs, hfpr]
  rw [hmemWb] at hw ⊢
  rw [hval, value_kept hp hr (f := fun a => archReg fp a rs) (fun _ _ => rfl) (Nat.zero_le _), hc1,
    archReg_next hp hrs (by omega) hlive]
  exact if_pos hw

theorem quiet_next (j : BitVec 4) : ((tick imem o s).rob.robData j).exception = false := by
  have hexc : (robIn o s).exception = false := cdbException_eq hr.trap hooo hf
  rw [rob_tick_data hooo hf, nextEntry_exception, hexc, accepts_robIn]
  split_ifs with h1 h2
  · rfl
  · rw [Bool.and_eq_true] at h2
    exact hs.trap h2.1
  · exact hp.quiet j

theorem onPath_next : OnPath imem a0 (nextPos imem a0 s pos) (tick imem o s) := by
  obtain ⟨hregs, hfpr⟩ := files_next hp hr hooo hf o
  obtain ⟨hdmem, hcsr⟩ := memory_next hp hr hs hooo hf
  obtain ⟨hex, hmem, hwb⟩ := stages_next hp hr hs hooo hf
  have hle := commit_le hp hr
  refine ⟨window_next hp hr hooo hf o, hregs, hfpr, hdmem, hcsr, fun hl => ?_, fun k hk hl => ?_, hex, hmem, hwb,
    settled_next hp hr hooo hf, quiet_next hp hr hs hooo hf⟩
  · rw [occ_next hp hr hooo hf o] at hl ⊢
    exact front_step hooo hf hr.trap hp (by omega) hl
  · exact entry_next hp hr hs hooo hf hk hl

end Step

section Flush

variable {imem : Imem} {o : OpenNets} {a0 : Arch} {pos : Nat → Slot} {s : State}
  (hp : OnPath imem a0 pos s) (hr : RunInv s) (hs : Sound o s) (hooo : oooEn s = true) (hf : finalFlush s = true)

/-- A flush resumes the reference behind the instruction that commits. -/
def restartPos (pos : Nat → Slot) : Nat → Slot := fun _ => ⟨true, (pos 0).idx + 1⟩

include hp hr hooo hf

theorem commit_of_flush : commitEn s = true ∧ turns imem (archPos imem a0 pos 0) = true := by
  have hc : commitEn s = true := by
    by_contra hc
    rw [finalFlush, finalException_false hp hooo, finalMretExec, if_pos hooo, Bool.eq_false_iff.mpr hc] at hf
    simp at hf
  exact ⟨hc, (finalFlush_iff hp hr hc hooo).mp hf⟩

include hs

theorem memory_flush : (tick imem o s).dmem = (execOne imem (archPos imem a0 pos 0)).dmem ∧
    (tick imem o s).csr = (execOne imem (archPos imem a0 pos 0)).csr := by
  obtain ⟨hc, hturn⟩ := commit_of_flush hp hr hooo hf
  have hpos := ((commitEn_eq hr.trap.wf).mp hc).1
  have hret : finalMretExec s = (idExOf imem (archPos imem a0 pos 0)).ctrl.mretExec := by
    rw [finalMretExec, if_pos hooo, hc, commitIsMret_eq hp hr hc, Bool.true_and]
  cases hm : (idExOf imem (archPos imem a0 pos 0)).ctrl.mretExec with
  | true => exact mret_tick hp hr hs hooo ⟨hpos, hm⟩ (hret.trans hm)
  | false =>
      have hle := commit_le hp hr
      rw [hc, Bool.toNat_true] at hle
      have hbehind := hp.window.eq_of_turn hturn (k := occ s - s.track.validEx.toNat) (by omega) (Nat.sub_le _ _)
      obtain ⟨hdmem, hcsr⟩ := mem_tick hp hr hs hooo (hret.trans hm) fun hhead => by
        rw [hhead.2] at hm
        cases hm
      rw [archPos, hbehind, archAt_succ] at hdmem hcsr
      exact ⟨hdmem, hcsr⟩

/-- The program counter goes where the reference goes. -/
theorem pc_flush : (tick imem o s).pc = (execOne imem (archPos imem a0 pos 0)).pc := by
  obtain ⟨hc, hturn⟩ := commit_of_flush hp hr hooo hf
  obtain ⟨hpos, hcomp, he⟩ := head_entry hp hr hc
  have hret : finalMretExec s = (idExOf imem (archPos imem a0 pos 0)).ctrl.mretExec := by
    rw [finalMretExec, if_pos hooo, hc, commitIsMret_eq hp hr hc, Bool.true_and]
  have hx := finalException_false hp hooo
  change pcTick o s = nextPc imem (archPos imem a0 pos 0)
  rw [OooFlush.pcTick_flush hr.trap hooo hf, hret, nextPc]
  simp only [he.trap, Bool.false_eq_true, if_false]
  cases hm : (idExOf imem (archPos imem a0 pos 0)).ctrl.mretExec with
  | true =>
      have hcsr := hp.csr
      rw [reach, if_pos (show MretHead imem a0 pos s from ⟨hpos, hm⟩)] at hcsr
      rw [if_pos rfl, if_pos rfl, hcsr]
  | false =>
      have hsel := OooFlush.finalPcSel_of_finalFlush hooo hf hx (hret.trans hm)
      have hmiss : (commitEntry s).branchMispredicted = true := by
        rw [finalPcSel, if_pos hooo, hc, Bool.true_and] at hsel
        exact hsel
      have htgt := hs.target hc hmiss
      rw [finalPcTarget, if_pos hooo, he.target hcomp] at htgt
      have hmiss' : pcSelOf (idExOf imem (archPos imem a0 pos 0))
          (operandsOf (idExOf imem (archPos imem a0 pos 0))) = true := (he.sel hcomp).symm.trans hmiss
      rw [if_neg Bool.false_ne_true, if_neg Bool.false_ne_true, hsel, if_pos rfl, if_pos hmiss', he.target hcomp, htgt]
      rfl

theorem onPath_flush : OnPath imem a0 (restartPos pos) (tick imem o s) := by
  obtain ⟨hc, hturn⟩ := commit_of_flush hp hr hooo hf
  obtain ⟨hregs, hfpr⟩ := commit_writes hp hr hc hooo
  obtain ⟨hdmem, hcsr⟩ := memory_flush hp hr hs hooo hf
  have hocc : occ (tick imem o s) = 0 := occ_tick_flush hooo hf
  have hvE : (tick imem o s).track.validEx = false := by rw [validEx_tick, hf, Bool.not_true, Bool.and_false]
  have hvM : (tick imem o s).track.validMem = false := by rw [validMem_tick, hf, Bool.not_true, Bool.and_false]
  have hvW : (tick imem o s).track.validWb = false := by rw [validWb_tick, hf, Bool.not_true, Bool.and_false]
  have hnext : archAt imem a0 ((pos 0).idx + 1) = execOne imem (archPos imem a0 pos 0) := archAt_succ _
  refine ⟨?_, ?_, ?_, ?_, ?_, fun _ => .inl ⟨?_, ?_⟩, fun k hk => ?_, fun hv => ?_, fun hv => ?_, fun hv => ?_,
    fun hv => ?_, fun j => ?_⟩
  · rw [hocc]
    exact window_start _
  · exact hregs.trans (congrArg Arch.regs hnext.symm)
  · exact hfpr.trans (congrArg Arch.fpr hnext.symm)
  · exact hdmem.trans (congrArg Arch.dmem hnext.symm)
  · exact hcsr.trans (congrArg Arch.csr hnext.symm)
  · simp [tick, pipeTick, hf]
  · exact (pc_flush hp hr hs hooo hf).trans (congrArg Arch.pc hnext.symm)
  · rw [hocc] at hk
    exact absurd hk (Nat.not_lt_zero k)
  · rw [hvE] at hv
    cases hv
  · rw [hvM] at hv
    cases hv
  · rw [hvW] at hv
    cases hv
  · rw [hvW] at hv
    cases hv
  · rw [rob_tick_flush hooo hf]
    exact hp.quiet j

end Flush

end VMate.OooRefine
