import VMate.OooOperand

namespace VMate.OooExec

open Decode Pipe Hazard RegFile RiscvTop SeqExec DecodeFacts StageCtrl RobFifo OooTrap OooWindow OooSerial OooForward
  Speculate OooPath OooOperand
open OooResult (append_inj)
open InOrderSim (fcsrRmMem_of_csrQuiet csrTick_rm exMemIn_congr)

variable {imem : Imem} {o : OpenNets} {a0 : Arch} {pos : Nat → Slot} {s : State} {k : Nat}

section Stages

variable (hp : OnPath imem a0 pos s) (hr : RunInv s)

theorem serial_of_mret {a : Arch} (h : (idExOf imem a).ctrl.mretExec = true)
    (hw : (idExOf imem a).ctrl.mretExec = true → (idExOf imem a).instruction = 0x30200073#32) :
    serialOpcode (idExOf imem a).instruction = true := by
  rw [hw h]
  rfl

include hr

/-- Every entry in the buffer is that of an instruction in EX, MEM or WB, or
it is completed and commits now. -/
theorem stage_of_pos (hk : k < occ s) :
    (s.track.validEx = true ∧ occ s = k + 1) ∨
      (s.track.validMem = true ∧ occ s = k + 1 + s.track.validEx.toNat) ∨
      (s.track.validWb = true ∧ occ s = k + 1 + s.track.validEx.toNat + s.track.validMem.toNat) ∨
      (k = 0 ∧ commitEn s = true ∧
        occ s = 1 + s.track.validEx.toNat + s.track.validMem.toNat + s.track.validWb.toNat) := by
  have hbit (b : Bool) (h : 0 < b.toNat) : b = true := by
    cases b with
    | false => exact absurd h (Nat.lt_irrefl 0)
    | true => rfl
  have he := Bool.toNat_le s.track.validEx
  have hm := Bool.toNat_le s.track.validMem
  have hw := Bool.toNat_le s.track.validWb
  by_cases h1 : occ s ≤ k + s.track.validEx.toNat
  · exact .inl ⟨hbit _ (by omega), by omega⟩
  by_cases h2 : occ s ≤ k + s.track.validEx.toNat + s.track.validMem.toNat
  · exact .inr (.inl ⟨hbit _ (by omega), by omega⟩)
  by_cases h3 : occ s ≤ k + s.track.validEx.toNat + s.track.validMem.toNat + s.track.validWb.toNat
  · exact .inr (.inr (.inl ⟨hbit _ (by omega), by omega⟩))
  · rcases hr.inv.lag with hlag | ⟨hlag, hcomp⟩
    · omega
    · exact .inr (.inr (.inr ⟨by omega, (commitEn_eq hr.trap.wf).mpr ⟨by omega, hcomp⟩, by omega⟩))

include hp

/-- A serialised instruction is the oldest one. -/
theorem pos_of_serial (hk : k < occ s) (hl : (pos k).live = true)
    (hser : serialOpcode (idExOf imem (archPos imem a0 pos k)).instruction = true) : k = 0 := by
  rcases stage_of_pos hr hk with ⟨hv, hocc⟩ | ⟨hv, hocc⟩ | ⟨hv, hocc⟩ | ⟨h0, -⟩
  · obtain ⟨j, hj, -, -, hj0⟩ := hr.inv.ex hv
    have hj0 := hj0 (.inl (by rw [(hp.ex hv k hocc hl).instruction]; exact hser))
    omega
  · obtain ⟨j, hj, -, -, hj0⟩ := hr.inv.mem hv
    have hj0 := hj0 (by rw [(hp.mem hv k hocc hl).exMem]; exact hser)
    omega
  · rcases hr.inv.wb hv with ⟨j, hj, -, -, hj0⟩ | ⟨hj, -⟩
    · have hj0 := hj0 (by rw [(hp.wb hv k hocc hl).memWb]; exact hser)
      omega
    · omega
  · exact h0

/-- What MEM holds at the position `k` does not write if it is not live. -/
theorem quiet_of_wrong (hv : s.track.validMem = true) (hk : occ s = k + 1 + s.track.validEx.toNat)
    (hl : (pos k).live = false) : writesState s.exMem.ctrl = false := by
  rw [Bool.eq_false_iff]
  intro hw
  obtain ⟨fs, rm, hctrl⟩ := hr.decoded.exMem
  obtain ⟨j, hj, -, -, hser⟩ := hr.inv.mem hv
  rw [hctrl] at hw
  have hj0 := hser (decode_writesState hw).1
  obtain rfl : k = 0 := by omega
  rw [hp.window.head] at hl
  cases hl

/-- Behind a redirect that is still in flight MEM is shadowed. -/
theorem shadowed_of_wrong (hk : occ s = k + 1 + s.track.validEx.toNat)
    (hl : (pos k).live = false) : shadowed s = true := by
  obtain ⟨j, hj, hjl, hturn⟩ := hp.window.exists_turn (by omega) hl
  have he := hp.entry j (by omega) hjl
  have hcase : (idExOf imem (archPos imem a0 pos j)).ctrl.mretExec = true ∨
      refSel imem (archPos imem a0 pos j) = true := by
    have h : turns imem (archPos imem a0 pos j) = true := hturn
    rw [turns, leavesMem, show (exMemOf imem (archPos imem a0 pos j)).ctrl.exception = false from he.trap,
      Bool.false_or, Bool.or_eq_true] at h
    exact h
  have hb := Bool.toNat_le s.track.validEx
  rcases stage_of_pos hr (k := j) (by omega) with ⟨-, hocc⟩ | ⟨-, hocc⟩ | ⟨hw, hocc⟩ | ⟨rfl, hc, -⟩
  · omega
  · omega
  · have hwb := hp.wb hw j hocc hjl
    rw [shadowed, hw, hwb.sel, hwb.memWb]
    rcases hcase with hm | hs
    · have hword : (memWbOf (archPos imem a0 pos j) (exMemOf imem (archPos imem a0 pos j))).instruction = _ := he.mret hm
      simp [hword]
    · simp [hs]
  · rw [entryAt, slot_zero] at he
    have hcomp := ((commitEn_eq hr.trap.wf).mp hc).2
    rw [shadowed, hc, show (commitEntry s).branchMispredicted = _ from he.sel hcomp, commitIsMret,
      show (commitEntry s).instruction = _ from he.instruction]
    rcases hcase with hm | hs
    · simp [he.mret hm]
    · simp [hs]

end Stages

section Execute

variable (hp : OnPath imem a0 pos s) (hr : RunInv s) (hs : Sound o s) (hooo : oooEn s = true)

theorem forwardedInt_zero (sel : BitVec 2) (data : BitVec 32) (h : sel = forwardSel false s 0#5) :
    forwardedInt s sel 0#5 data = data := by
  have hm (rd : BitVec 5) : (rd != 0#5 && rd == 0#5) = false := by
    by_cases hrd : rd = 0#5 <;> simp [hrd]
  rw [h, forwardSel, if_neg Bool.false_ne_true, forwardedInt_legs, Bool.and_assoc, hm, Bool.and_false, Bool.and_assoc,
    hm, Bool.and_false, commitFwdMatch]
  by_cases hd : (commitEntry s).destReg = 0#5 <;> simp [hd]

/-- Between its place and the next one an instruction that writes no CSR
leaves what the decoder and the FP unit read. -/
def RmAt (s : State) (a : Arch) : Prop := a.csr.mstatusFs = s.csr.mstatusFs ∧ a.csr.frmReg = s.csr.frmReg

include hp

theorem rm_next (hk : k < occ s) (hl : (pos k).live = true)
    (hw : (idExOf imem (archPos imem a0 pos k)).ctrl.csrWrite = false) (h : RmAt s (archPos imem a0 pos k)) :
    RmAt s (archPos imem a0 pos (k + 1)) := by
  have hexec : (execOne imem (archPos imem a0 pos k)).csr.mstatusFs = (archPos imem a0 pos k).csr.mstatusFs ∧
      (execOne imem (archPos imem a0 pos k)).csr.frmReg = (archPos imem a0 pos k).csr.frmReg :=
    csrTick_rm (r := exMemOf imem (archPos imem a0 pos k)) hw
  refine ⟨?_, ?_⟩
  · rw [value_next hp (f := fun a => a.csr.mstatusFs) (fun _ _ => rfl) hk hl, hexec.1, h.1]
  · rw [value_next hp (f := fun a => a.csr.frmReg) (fun _ _ => rfl) hk hl, hexec.2, h.2]

include hr

theorem rm_ex (hk : k + s.track.validEx.toNat = occ s) (hl : (pos k).live = true)
    (hw : s.exMem.ctrl.csrWrite = false) : RmAt s (archPos imem a0 pos k) := by
  cases hm : s.track.validMem with
  | false =>
      have hreach := reach_of_live hp (k := k) (by rw [hm, Bool.toNat_false]; omega) hl
      have hcsr := hp.csr
      rw [hreach] at hcsr
      exact ⟨by rw [hcsr], by rw [hcsr]⟩
  | true =>
      obtain ⟨m, hmk, -⟩ := hr.inv.mem hm
      obtain rfl : k = m + 1 := by omega
      have hlm := (hp.window.live_of_le (Nat.le_succ m) (by omega) hl).1
      have hcsr := (memWb_of_mem hp hm hmk hlm).2.1
      refine rm_next hp (by omega) hlm ?_ ⟨by rw [hcsr], by rw [hcsr]⟩
      rw [(hp.mem hm m hmk hlm).exMem] at hw
      exact hw

theorem rm_id (hl : (pos (occ s)).live = true) (hw : s.exMem.ctrl.csrWrite = false)
    (hw' : s.idEx.ctrl.csrWrite = false) : RmAt s (archPos imem a0 pos (occ s)) := by
  cases hv : s.track.validEx with
  | false => exact rm_ex hp hr (by rw [hv, Bool.toNat_false, Nat.add_zero]) hl hw
  | true =>
      obtain ⟨k, hk, -⟩ := hr.inv.ex hv
      rw [hk] at hl ⊢
      have hlk := (hp.window.live_of_le (Nat.le_succ k) (by omega) hl).1
      refine rm_next hp (by omega) hlk ?_ (rm_ex hp hr (by rw [hv, Bool.toNat_true, hk]) hlk hw)
      rw [← (hp.ex hv k hk hlk).ctrl]
      exact hw'

variable (hv : s.track.validEx = true) (hk : occ s = k + 1) (hl : (pos k).live = true)

include hv hk hl

theorem csrQuiet_ex : fcsrRmMem s = (archPos imem a0 pos k).csr.frmReg := by
  have hw : s.exMem.ctrl.csrWrite = false := by
    rw [Bool.eq_false_iff]
    intro hw
    rw [(hr.mode.csrMem hw).2] at hv
    cases hv
  rw [fcsrRmMem_of_csrQuiet hw, (rm_ex hp hr (by rw [hv, Bool.toNat_true, hk]) hl hw).2]

include hs hooo

theorem operandsEx_eq : operandsEx s = operandsOf (idExOf imem (archPos imem a0 pos k)) := by
  have hinst := (hp.ex hv k hk hl).instruction
  have hint (rs : BitVec 5) (data operand : BitVec 32) (hdata : data = regRead s.regs rs)
      (hq : ⟨rs, 0#32 ++ data, 0#32 ++ operand⟩ ∈ sources false s)
      (h0 : rs = 0#5 → operand = data) : operand = regRead (archPos imem a0 pos k).regs rs := by
    by_cases hrs : rs = 0#5
    · rw [h0 hrs, hdata, hrs]
      rfl
    · exact append_inj.mp (operand_eq hp hr hs hv hk hl hq (.inr hrs) hooo)
  have hlat {q : Source} (h : q ∈ sources false s) := hr.latched.data hv false q h
  have hfp {q : Source} (h : q ∈ sources true s) := operand_eq hp hr hs hv hk hl h (.inl rfl) hooo
  have h1 : (operandsEx s).rs1 = regRead (archPos imem a0 pos k).regs (rs1Of s.idEx.instruction) := by
    refine hint _ s.idEx.rs1Data _ (append_inj.mp (hlat (List.mem_cons_self ..))) (List.mem_cons_self ..) fun h => ?_
    simp only [operandsEx, forwardA, h]
    exact forwardedInt_zero _ _ rfl
  have h2 : (operandsEx s).rs2 = regRead (archPos imem a0 pos k).regs (rs2Of s.idEx.instruction) := by
    refine hint _ s.idEx.rs2Data _ (append_inj.mp (hlat (.tail _ (List.mem_cons_self ..))))
      (.tail _ (List.mem_cons_self ..)) fun h => ?_
    simp only [operandsEx, forwardB, h]
    exact forwardedInt_zero _ _ rfl
  have h3 : (operandsEx s).fpRs1 = (archPos imem a0 pos k).fpr (rs1Of s.idEx.instruction) :=
    hfp (q := ⟨_, _, _⟩) (List.mem_cons_self ..)
  have h4 : (operandsEx s).fpRs2 = (archPos imem a0 pos k).fpr (rs2Of s.idEx.instruction) :=
    hfp (q := ⟨_, _, _⟩) (.tail _ (List.mem_cons_self ..))
  have h5 : (operandsEx s).fpRs3 = (archPos imem a0 pos k).fpr (rs3Of s.idEx.instruction) :=
    hfp (q := ⟨_, _, _⟩) (.tail _ (.tail _ (List.mem_cons_self ..)))
  rw [hinst] at h1 h2 h3 h4 h5
  change Operands.mk (operandsEx s).rs1 (operandsEx s).rs2 (operandsEx s).fpRs1 (operandsEx s).fpRs2
    (operandsEx s).fpRs3 = _
  rw [h1, h2, h3, h4, h5]
  rfl

/-- EX computes what the reference computes. -/
theorem execute_eq :
    exMemIn s.idEx (operandsEx s) (fcsrRmMem s) = exMemOf imem (archPos imem a0 pos k) ∧
      pcSelEx s = refSel imem (archPos imem a0 pos k) ∧ pcTargetEx s = refTarget imem (archPos imem a0 pos k) := by
  have hex := hp.ex hv k hk hl
  have hops := operandsEx_eq hp hr hs hooo hv hk hl
  refine ⟨?_, ?_, ?_⟩
  · rw [hops, csrQuiet_ex hp hr hv hk hl]
    exact exMemIn_congr _ _ hex.pc hex.pcPlus4 hex.instruction hex.immOut hex.ctrl
  · simp only [pcSelEx, pcSelOf, aluOf, hops, hex.ctrl, hex.instruction, hex.pc, hex.immOut, refSel]
  · simp only [pcTargetEx, pcTargetOf, aluOf, hops, hex.ctrl, hex.instruction, hex.pc, hex.immOut, refTarget]

end Execute

section Memory

theorem csrTick_inOf (c : CsrFile.State) (he : finalException s = false) (hm : finalMretExec s = false)
    (he' : s.exMem.ctrl.exception = false) (hm' : s.exMem.ctrl.mretExec = false) :
    CsrFile.csrTick c (csrIn s) = CsrFile.csrTick c (csrInOf s.exMem) := by
  simp only [CsrFile.csrTick, csrIn, csrInOf, he, hm, he', hm', Bool.false_eq_true, if_false]
  rfl

/-- An instruction in MEM that writes no CSR and raises no new flag leaves the CSRs. -/
theorem csr_still (he : finalException s = false) (hm : finalMretExec s = false) (hw : s.exMem.ctrl.csrWrite = false)
    (hf : s.exMem.ctrl.fpFflagsWe = true → s.csr.fflagsReg ||| s.exMem.fpFflags = s.csr.fflagsReg) :
    (tick imem o s).csr = s.csr := by
  simp only [tick, CsrFile.csrTick, csrIn, he, hm, hw, Bool.false_eq_true, if_false]
  split_ifs with h
  · rw [hf h]
  · rfl

variable (hp : OnPath imem a0 pos s) (hr : RunInv s) (hs : Sound o s) (hooo : oooEn s = true)

include hp in
theorem finalException_false : oooEn s = true → finalException s = false := by
  intro h
  rw [finalException, if_pos h]
  exact hp.quiet _

include hp hr hs hooo

omit hooo in
/-- What is in MEM and not live writes nothing and raises no new flag. -/
theorem wrong_still (hv : s.track.validMem = true) (hk : occ s = k + 1 + s.track.validEx.toNat)
    (hl : (pos k).live = false) : writesState s.exMem.ctrl = false ∧
      (s.exMem.ctrl.fpFflagsWe = true → s.csr.fflagsReg ||| s.exMem.fpFflags = s.csr.fflagsReg) :=
  ⟨quiet_of_wrong hp hr hv hk hl, hs.flags (shadowed_of_wrong hp hr hk hl)⟩

/-- Without a return at the head MEM brings memory and CSRs to what they are
at the next place. -/
theorem mem_tick (hm : finalMretExec s = false) (hhead : ¬ MretHead imem a0 pos s) :
    (tick imem o s).dmem = (archPos imem a0 pos (occ s - s.track.validEx.toNat)).dmem ∧
      (tick imem o s).csr = (archPos imem a0 pos (occ s - s.track.validEx.toNat)).csr := by
  have hx := finalException_false hp hooo
  have hdmem := hp.dmem
  have hcsr := hp.csr
  rw [reach, if_neg hhead] at hdmem hcsr
  cases hv : s.track.validMem with
  | false =>
      have hctrl := (hr.bubbles.mem hooo hv).2
      rw [hv, Bool.toNat_false, Nat.sub_zero] at hdmem hcsr
      rw [← hdmem, ← hcsr]
      refine ⟨dmem_frame (by rw [hctrl]; rfl), csr_still hx hm (by rw [hctrl]) fun h => ?_⟩
      rw [hctrl] at h
      cases h
  | true =>
      obtain ⟨m, hmk, -⟩ := hr.inv.mem hv
      have hnext : occ s - s.track.validEx.toNat = m + 1 := by omega
      rw [hv, Bool.toNat_true, hnext, Nat.add_sub_cancel] at hdmem hcsr
      rw [hnext]
      cases hl : (pos m).live with
      | true =>
          have hexMem := (hp.mem hv m hmk hl).exMem
          have he := hp.entry m (by omega) hl
          have hret : s.exMem.ctrl.mretExec = false := by
            rw [hexMem, Bool.eq_false_iff]
            intro hret
            obtain rfl := pos_of_serial hp hr (by omega) hl (serial_of_mret hret he.mret)
            exact hhead ⟨by omega, hret⟩
          have htrap : s.exMem.ctrl.exception = false := by
            rw [hexMem]
            exact he.trap
          refine ⟨?_, ?_⟩
          · rw [value_next hp (f := Arch.dmem) (fun _ _ => rfl) (by omega) hl]
            change Dmem.dmemTick s.dmem (dmemInOf s.exMem) = _
            rw [hdmem, hexMem]
            rfl
          · rw [value_next hp (f := Arch.csr) (fun _ _ => rfl) (by omega) hl]
            change CsrFile.csrTick s.csr (csrIn s) = _
            rw [csrTick_inOf _ hx hm htrap hret, hcsr, hexMem]
            rfl
      | false =>
          obtain ⟨hw, hf⟩ := wrong_still hp hr hs hv hmk hl
          have hw' := hw
          simp only [writesState, Bool.or_eq_false_iff] at hw'
          have hsame : pos (m + 1) = pos m := (hp.window.linked m (by omega)).eq_of_wrong hl
          rw [archPos, hsame, ← archPos, ← hdmem, ← hcsr]
          exact ⟨dmem_frame hw, csr_still hx hm hw'.2 hf⟩

/-- While a return is at the head nothing is written from MEM. -/
theorem mret_still (hhead : MretHead imem a0 pos s) : writesState s.exMem.ctrl = false ∧
    (s.exMem.ctrl.fpFflagsWe = true → s.csr.fflagsReg ||| s.exMem.fpFflags = s.csr.fflagsReg) := by
  cases hv : s.track.validMem with
  | false =>
      rw [(hr.bubbles.mem hooo hv).2]
      exact ⟨rfl, fun h => (Bool.false_ne_true h).elim⟩
  | true =>
      obtain ⟨m, hmk, -⟩ := hr.inv.mem hv
      cases hl : (pos m).live with
      | false => exact wrong_still hp hr hs hv hmk hl
      | true =>
          have hm0 : m = 0 := by
            by_contra hne
            have hturn := (hp.window.live_of_le (Nat.zero_le m) (by omega) hl).2 (by omega)
            rw [show (refPath imem a0).turn (pos 0).idx = true from turns_of_mret hhead.2] at hturn
            cases hturn
          subst hm0
          obtain ⟨hw, hf⟩ := still_of_mret hhead.2
          rw [(hp.mem hv 0 hmk hl).exMem]
          refine ⟨hw, fun h => ?_⟩
          rw [hf] at h
          cases h

/-- The return at the head changes the CSRs as the reference does. -/
theorem mret_tick (hhead : MretHead imem a0 pos s) (hm : finalMretExec s = true) :
    (tick imem o s).dmem = (execOne imem (archPos imem a0 pos 0)).dmem ∧
      (tick imem o s).csr = (execOne imem (archPos imem a0 pos 0)).csr := by
  have hx := finalException_false hp hooo
  have hdmem := hp.dmem
  have hcsr := hp.csr
  rw [reach, if_pos hhead] at hdmem hcsr
  have htrap := (hp.entry 0 hhead.1 hp.window.head).trap
  refine ⟨?_, ?_⟩
  · rw [dmem_frame (mret_still hp hr hs hooo hhead).1, hdmem]
    have hw := (still_of_mret hhead.2).1
    simp only [writesState, Bool.or_eq_false_iff] at hw
    obtain ⟨⟨⟨hmw, hfw⟩, hamo⟩, -⟩ := hw
    simp [execOne, retire, Dmem.dmemTick, Dmem.executeWrite, dmemInOf, hmw, hfw, hamo]
  · have he : (csrInOf (exMemOf imem (archPos imem a0 pos 0))).exception = false := htrap
    have hr' : (csrInOf (exMemOf imem (archPos imem a0 pos 0))).mretExec = true := hhead.2
    change CsrFile.csrTick s.csr (csrIn s) = CsrFile.csrTick _ (csrInOf (exMemOf imem (archPos imem a0 pos 0)))
    rw [hcsr]
    simp only [CsrFile.csrTick, he, hr', csrIn, hx, hm, Bool.false_eq_true, if_false, if_true]

end Memory

end VMate.OooExec
