import VMate.InOrder

namespace VMate.InOrderSim

open Decode Pipe Hazard RegFile RiscvTop SeqExec DecodeFacts StageCtrl InOrder

variable {imem : Imem} {o : OpenNets} {s s' : State} {a b : Arch} {blocked : Bool}

section Relation

/-- No instruction in EX. The register data of such a slot is not zero, nor
is the FP result computed from it; only what identifies and controls an
instruction is. -/
def EmptyEx (s : State) : Prop :=
  s.idEx.pc = 0#32 ∧ s.idEx.pcPlus4 = 0#32 ∧ s.idEx.instruction = 0#32 ∧ s.idEx.ctrl = {}

def EmptyMem (s : State) : Prop :=
  s.exMem.pc = 0#32 ∧ s.exMem.pcPlus4 = 0#32 ∧ s.exMem.instruction = 0#32 ∧ s.exMem.ctrl = {}

def EmptyWb (s : State) : Prop := s.memWb.pcPlus4 = 0#32 ∧ s.memWb.instruction = 0#32 ∧ s.memWb.ctrl = {}

/-- A register stage that holds an instruction has its link address filled in. -/
def occupiedMem (s : State) : Bool := s.exMem.pcPlus4 == s.exMem.pc + 4#32

def afterMem (imem : Imem) (s : State) (a : Arch) : Arch := if occupiedMem s then execOne imem a else a

/-- The front end is about to deliver the instruction at `q`. -/
def IdMatches (imem : Imem) (s : State) (q : BitVec 32) : Prop :=
  (s.ifId = {} ∧ s.pc = q) ∨ (s.ifId = fetch imem q ∧ s.pc = q + 4#32)

/-- EX holds the instruction that comes next in the state `b`. Its register
data may be stale, but only as far as MEM and WB can make up for it. -/
structure ExHolds (imem : Imem) (s : State) (b : Arch) : Prop where
  pc : s.idEx.pc = (idExOf imem b).pc
  pcPlus4 : s.idEx.pcPlus4 = (idExOf imem b).pcPlus4
  instruction : s.idEx.instruction = (idExOf imem b).instruction
  immOut : s.idEx.immOut = (idExOf imem b).immOut
  ctrl : s.idEx.ctrl = (idExOf imem b).ctrl
  rs1 : s.idEx.rs1Data = regRead s.regs (rs1Of s.idEx.instruction)
  rs2 : s.idEx.rs2Data = regRead s.regs (rs2Of s.idEx.instruction)
  fpRs1 : s.idEx.fpRs1Data = s.fpr (rs1Of s.idEx.instruction)
  fpRs2 : s.idEx.fpRs2Data = s.fpr (rs2Of s.idEx.instruction)
  fpRs3 : s.idEx.fpRs3Data = s.fpr (rs3Of s.idEx.instruction)
  csrQuiet : s.exMem.ctrl.csrWrite = false
  fpLoad : s.exMem.ctrl.fpMemRead = true → rdOf s.exMem.instruction ≠ rs1Of s.idEx.instruction ∧
    rdOf s.exMem.instruction ≠ rs2Of s.idEx.instruction ∧ rdOf s.exMem.instruction ≠ rs3Of s.idEx.instruction

def leavesEx (s : State) : Bool := s.idEx.ctrl.exception || s.idEx.ctrl.mretExec

def ExMatches (imem : Imem) (s : State) (b : Arch) : Prop :=
  (EmptyEx s ∧ IdMatches imem s b.pc) ∨
    (ExHolds imem s b ∧ (leavesEx s = false → pcSelEx s = false → IdMatches imem s (b.pc + 4#32)))

/-- The pipeline stands for the state `a` in which exactly the instructions
that have left MEM are executed. What is behind an instruction that leaves
the pipeline early is unconstrained: it will be discarded. -/
structure Sim (imem : Imem) (s : State) (a : Arch) : Prop where
  regs : a.regs = intWrite s.regs (intWb s.memWb)
  fpr : a.fpr = fpWrite s.fpr (fpWb s.memWb)
  dmem : a.dmem = s.dmem
  csr : a.csr = s.csr
  mem : EmptyMem s ∨ s.exMem = exMemOf imem a
  ex : leavesMem s.exMem = false → ExMatches imem s (afterMem imem s a)

end Relation

section Mem

theorem leavesMem_of_emptyMem (h : EmptyMem s) : leavesMem s.exMem = false := by
  rw [leavesMem, h.2.2.2]
  rfl

theorem occupiedMem_of_emptyMem (h : EmptyMem s) : occupiedMem s = false := by
  rw [occupiedMem, h.1, h.2.1]
  rfl

theorem occupiedMem_of_holds (h : s.exMem = exMemOf imem a) : occupiedMem s = true := by
  rw [occupiedMem, h]
  exact beq_self_eq_true _

theorem afterMem_of_emptyMem (h : EmptyMem s) : afterMem imem s a = a := by
  simp [afterMem, occupiedMem_of_emptyMem h]

theorem afterMem_of_holds (h : s.exMem = exMemOf imem a) : afterMem imem s a = execOne imem a := by
  simp [afterMem, occupiedMem_of_holds h]

def memIntPort (s : State) : WritePort 32 :=
  ⟨s.exMem.ctrl.regWrite, rdOf s.exMem.instruction, forwardDataMem s⟩

def memFpPort (s : State) : WritePort 64 :=
  fpWb (memWbIn s.exMem (dmemRdataMem s) (csrRdataMem s))

theorem csrTick_of_emptyMem (h : EmptyMem s) (c : CsrFile.State) : CsrFile.csrTick c (csrInOf s.exMem) = c := by
  simp [CsrFile.csrTick, csrInOf, h.2.2.2]

theorem dmemTick_of_emptyMem (h : EmptyMem s) (d : Dmem.State) : Dmem.dmemTick d (dmemInOf s.exMem) = d := by
  simp [Dmem.dmemTick, Dmem.executeWrite, dmemInOf, h.2.2.2]

theorem afterMem_dmem (hsim : Sim imem s a) :
    (afterMem imem s a).dmem = Dmem.dmemTick s.dmem (dmemInOf s.exMem) := by
  rcases hsim.mem with h | h
  · rw [afterMem_of_emptyMem h, dmemTick_of_emptyMem h, hsim.dmem]
  · rw [afterMem_of_holds h, h, ← hsim.dmem]
    rfl

theorem afterMem_csr (hsim : Sim imem s a) :
    (afterMem imem s a).csr = CsrFile.csrTick s.csr (csrInOf s.exMem) := by
  rcases hsim.mem with h | h
  · rw [afterMem_of_emptyMem h, csrTick_of_emptyMem h, hsim.csr]
  · rw [afterMem_of_holds h, h, ← hsim.csr]
    rfl

theorem memWbOf_eq (hsim : Sim imem s a) : memWbOf a s.exMem = memWbIn s.exMem (dmemRdataMem s) (csrRdataMem s) := by
  rw [memWbOf, hsim.dmem, hsim.csr]
  rfl

theorem afterMem_regs (hsim : Sim imem s a) :
    (afterMem imem s a).regs = if leavesMem s.exMem then a.regs else intWrite a.regs (memIntPort s) := by
  rcases hsim.mem with h | h
  · rw [afterMem_of_emptyMem h, leavesMem_of_emptyMem h]
    exact (intWrite_of_we_false (by rw [memIntPort, h.2.2.2])).symm
  · have hport : memIntPort s = intWb (memWbOf a s.exMem) := by
      rw [memWbOf_eq hsim]
      rfl
    rw [afterMem_of_holds h, hport, h]
    rfl

theorem afterMem_fpr (hsim : Sim imem s a) :
    (afterMem imem s a).fpr = if leavesMem s.exMem then a.fpr else fpWrite a.fpr (memFpPort s) := by
  rcases hsim.mem with h | h
  · rw [afterMem_of_emptyMem h, leavesMem_of_emptyMem h]
    exact (fpWrite_of_we_false (by rw [memFpPort, fpWb, memWbIn, h.2.2.2])).symm
  · rw [afterMem_of_holds h, memFpPort, ← memWbOf_eq hsim, h]
    rfl

end Mem

section Forwarding

theorem commitFwdMatch_inOrder (h : oooEn s = false) (rs : BitVec 5) : commitFwdMatch s rs = false := by
  simp [commitFwdMatch, h]

theorem commitFwdMatchFp_inOrder (h : oooEn s = false) (rs : BitVec 5) : commitFwdMatchFp s rs = false := by
  simp [commitFwdMatchFp, h]

/-- The two legs of the integer multiplexer are the two writes still to come. -/
theorem forwardedInt_eq (h : oooEn s = false) (hsim : Sim imem s a) (hm : leavesMem s.exMem = false) {rs : BitVec 5}
    {data : BitVec 32} (hdata : data = regRead s.regs rs) :
    forwardedInt s (forwardInt rs (rdOf s.exMem.instruction) s.exMem.ctrl.regWrite (rdOf s.memWb.instruction)
      s.memWb.ctrl.regWrite) rs data = regRead (afterMem imem s a).regs rs := by
  rw [afterMem_regs hsim, hm, hsim.regs, if_neg Bool.false_ne_true, regRead_intWrite, regRead_intWrite, ← hdata]
  rw [forwardedInt_legs, commitFwdMatch_inOrder h]
  rfl

theorem memFpPort_rdData (hsim : Sim imem s a) (hwe : s.exMem.ctrl.fpWe = true)
    (hload : s.exMem.ctrl.fpMemRead = false) : (memFpPort s).rdData = s.exMem.fpAluResult := by
  rcases hsim.mem with h | h
  · rw [h.2.2.2] at hwe
    cases hwe
  · simp only [memFpPort, fpWb, fpWbDataOf, fpResult, memWbIn, hload, if_neg Bool.false_ne_true]
    rw [h] at hwe ⊢
    exact nanBoxed_fpAluOf (r := idExOf imem a) rfl hwe

theorem forwardedFp_eq (h : oooEn s = false) (hsim : Sim imem s a) (hm : leavesMem s.exMem = false) {rs : BitVec 5}
    {data : BitVec 64} (hdata : data = s.fpr rs)
    (hload : s.exMem.ctrl.fpMemRead = true → rdOf s.exMem.instruction ≠ rs) :
    forwardedFp s (forwardFp rs (rdOf s.exMem.instruction) s.exMem.ctrl.fpWe (rdOf s.memWb.instruction)
      s.memWb.ctrl.fpWe) rs data = (afterMem imem s a).fpr rs := by
  rw [afterMem_fpr hsim, hm, hsim.fpr, if_neg Bool.false_ne_true, fpWrite_apply, fpWrite_apply, ← hdata]
  have hmem : (s.exMem.ctrl.fpWe && rdOf s.exMem.instruction == rs) = true →
      (memFpPort s).rdData = s.exMem.fpAluResult := by
    intro hc
    rw [Bool.and_eq_true, beq_iff_eq] at hc
    refine memFpPort_rdData hsim hc.1 ?_
    rw [Bool.eq_false_iff]
    exact fun hl => hload hl hc.2
  rw [forwardedFp_legs, commitFwdMatchFp_inOrder h, fpWbDataWb_inOrder h]
  change _ = if (s.exMem.ctrl.fpWe && rdOf s.exMem.instruction == rs) = true then _ else _
  by_cases hc : (s.exMem.ctrl.fpWe && rdOf s.exMem.instruction == rs) = true
  · rw [if_pos hc, if_pos hc, hmem hc]
  · rw [if_neg hc, if_neg hc]
    rfl

theorem operandsEx_eq (h : oooEn s = false) (hsim : Sim imem s a) (hm : leavesMem s.exMem = false)
    (hex : ExHolds imem s (afterMem imem s a)) :
    operandsEx s = operandsOf (idExOf imem (afterMem imem s a)) := by
  have hload := hex.fpLoad
  rw [operandsEx, forwardA, forwardB, forwardFpA, forwardFpB, forwardFpC, forwardedInt_eq h hsim hm hex.rs1,
    forwardedInt_eq h hsim hm hex.rs2, forwardedFp_eq h hsim hm hex.fpRs1 (fun hl => (hload hl).1),
    forwardedFp_eq h hsim hm hex.fpRs2 (fun hl => (hload hl).2.1),
    forwardedFp_eq h hsim hm hex.fpRs3 (fun hl => (hload hl).2.2), hex.instruction]
  rfl

end Forwarding

section Csr

theorem fcsrRmMem_of_csrQuiet (h : s.exMem.ctrl.csrWrite = false) : fcsrRmMem s = s.csr.frmReg := by
  simp [fcsrRmMem, CsrFile.fcsrRm, csrIn, h]

/-- Only an explicit write changes what the decoder and the FP unit read. -/
theorem csrTick_rm {c : CsrFile.State} {r : ExMem} (hw : r.ctrl.csrWrite = false) :
    (CsrFile.csrTick c (csrInOf r)).mstatusFs = c.mstatusFs ∧ (CsrFile.csrTick c (csrInOf r)).frmReg = c.frmReg := by
  have hw' : (csrInOf r).csrWrite = false := hw
  unfold CsrFile.csrTick
  simp only [hw', Bool.false_eq_true, if_false]
  split_ifs <;> exact ⟨rfl, rfl⟩

theorem afterMem_frm (hsim : Sim imem s a) (hw : s.exMem.ctrl.csrWrite = false) :
    (afterMem imem s a).csr.mstatusFs = s.csr.mstatusFs ∧ (afterMem imem s a).csr.frmReg = s.csr.frmReg := by
  rw [afterMem_csr hsim]
  exact csrTick_rm hw

end Csr

section SimStep

theorem exMemIn_congr {r r' : IdEx} (ops : Operands) (rm : BitVec 3) (hpc : r.pc = r'.pc)
    (hpc4 : r.pcPlus4 = r'.pcPlus4) (hi : r.instruction = r'.instruction) (himm : r.immOut = r'.immOut)
    (hctrl : r.ctrl = r'.ctrl) : exMemIn r ops rm = exMemIn r' ops rm := by
  simp only [exMemIn, aluOf, fpAluOf, hpc, hpc4, hi, himm, hctrl]

theorem pcSelEx_of_emptyEx (h : EmptyEx s) : pcSelEx s = false := by
  simp [pcSelEx, pcSelOf, h.2.2.2]

theorem pcSelEx_eq (h : oooEn s = false) (hsim : Sim imem s a) (hm : leavesMem s.exMem = false)
    (hex : ExHolds imem s (afterMem imem s a)) :
    pcSelEx s = pcSelOf (idExOf imem (afterMem imem s a)) (operandsOf (idExOf imem (afterMem imem s a))) := by
  simp only [pcSelEx, pcSelOf, aluOf, operandsEx_eq h hsim hm hex, hex.ctrl, hex.instruction, hex.pc, hex.immOut]

theorem pcTargetEx_eq (h : oooEn s = false) (hsim : Sim imem s a) (hm : leavesMem s.exMem = false)
    (hex : ExHolds imem s (afterMem imem s a)) :
    pcTargetEx s = pcTargetOf (idExOf imem (afterMem imem s a)) (operandsOf (idExOf imem (afterMem imem s a))) := by
  simp only [pcTargetEx, pcTargetOf, aluOf, operandsEx_eq h hsim hm hex, hex.ctrl, hex.instruction, hex.pc, hex.immOut]

/-- The instruction in EX enters MEM as the reference computes it. -/
theorem exMem_step (h : oooEn s = false) (hsim : Sim imem s a) (hm : leavesMem s.exMem = false)
    (hex : ExHolds imem s (afterMem imem s a)) (hadv : Advances imem blocked s s') :
    s'.exMem = exMemOf imem (afterMem imem s a) := by
  have hfrm : fcsrRmMem s = (afterMem imem s a).csr.frmReg := by
    rw [fcsrRmMem_of_csrQuiet hex.csrQuiet, (afterMem_frm hsim hex.csrQuiet).2]
  rw [hadv.exMem, hm, if_neg Bool.false_ne_true, operandsEx_eq h hsim hm hex, hfrm]
  exact exMemIn_congr _ _ hex.pc hex.pcPlus4 hex.instruction hex.immOut hex.ctrl

theorem emptyMem_step (hm : leavesMem s.exMem = false) (hex : EmptyEx s) (hadv : Advances imem blocked s s') :
    EmptyMem s' := by
  obtain ⟨hpc, hpc4, hi, hctrl⟩ := hex
  rw [EmptyMem, hadv.exMem, hm, if_neg Bool.false_ne_true]
  exact ⟨hpc, hpc4, hi, by simp [exMemIn, hctrl]⟩

theorem not_stalls (h : stalls s = false) :
    s.idEx.ctrl.csrWrite = false ∧ s.exMem.ctrl.csrWrite = false ∧
      (s.idEx.ctrl.fpMemRead = true → rdOf s.idEx.instruction ≠ rs1Of s.ifId.instruction ∧
        rdOf s.idEx.instruction ≠ rs2Of s.ifId.instruction ∧ rdOf s.idEx.instruction ≠ rs3Of s.ifId.instruction) := by
  simp only [stalls, csrHazard, fpLoadUse, hazardIn, Bool.or_eq_false_iff] at h
  obtain ⟨⟨⟨-, hfp⟩, hex, hmem⟩, -⟩ := h
  refine ⟨hex, hmem, fun hl => ?_⟩
  simpa [hl, and_assoc] using hfp

theorem idMatches_next {q : BitVec 32} (hfront : (s'.pc, s'.ifId) = frontNext imem blocked s) (hpc : s.pc = q) :
    IdMatches imem s' q := by
  cases blocked with
  | true =>
      obtain ⟨hp, hf⟩ := Prod.mk.injEq _ _ _ _ ▸ hfront
      exact .inl ⟨hf, hp.trans hpc⟩
  | false =>
      obtain ⟨hp, hf⟩ := Prod.mk.injEq _ _ _ _ ▸ hfront
      exact .inr ⟨by rw [hf, hpc], by rw [hp, hpc]⟩

theorem trapPc_eq (hsim : Sim imem s a) (hholds : s.exMem = exMemOf imem a) (hm : leavesMem s.exMem = true) :
    trapPc s = (execOne imem a).pc := by
  have hctrl : s.exMem.ctrl = (idExOf imem a).ctrl.toMemCtrl := by rw [hholds]; rfl
  rw [leavesMem, hctrl] at hm
  rw [trapPc, hctrl, ← hsim.csr]
  change _ = nextPc imem a
  simp only [nextPc]
  cases he : (idExOf imem a).ctrl.exception with
  | true => rfl
  | false =>
      rw [he, Bool.false_or] at hm
      simp [hm]

/-- ID delivers to EX: the instruction at `q` with current control and
register data, or nothing. -/
theorem exMatches_step (h : oooEn s = false) {q : BitVec 32} (hm : leavesMem s.exMem = false)
    (hsel : pcSelEx s = false) (hid : IdMatches imem s q) (hadv : Advances imem blocked s s') {c : Arch}
    (hq : c.pc = q)
    (hcsr : stalls s = false → c.csr.mstatusFs = s.csr.mstatusFs ∧ c.csr.frmReg = fcsrRmMem s) :
    ExMatches imem s' c := by
  subst hq
  have hidEx := hadv.idEx
  have hfront := hadv.front
  rw [hm, hsel] at hidEx
  rw [front, hm, hsel] at hfront
  cases hst : stalls s with
  | true =>
      simp only [hst, Bool.or_true, if_true, Bool.false_eq_true, if_false, Prod.mk.injEq] at hidEx hfront
      refine .inl ⟨by rw [EmptyEx, hidEx]; exact ⟨rfl, rfl, rfl, rfl⟩, ?_⟩
      rwa [IdMatches, hfront.1, hfront.2]
  | false =>
      simp only [hst, Bool.or_self, Bool.false_eq_true, if_false] at hidEx hfront
      rcases hid with ⟨hif, hpc⟩ | ⟨hif, hpc⟩
      · refine .inl ⟨?_, ?_⟩
        · rw [EmptyEx, hidEx]
          simp only [idExIn, ctrlId, hif]
          exact ⟨rfl, rfl, rfl, rfl⟩
        · exact idMatches_next hfront hpc
      · obtain ⟨hcsrEx, -, hload⟩ := not_stalls hst
        obtain ⟨hfs, hrm⟩ := hcsr hst
        have hexMem := hadv.exMem
        rw [hm, if_neg Bool.false_ne_true] at hexMem
        have hdec : ctrlId s = decode (fetch imem c.pc).instruction c.csr.mstatusFs c.csr.frmReg := by
          rw [ctrlId, hif, hfs, hrm]
        refine .inr ⟨?_, fun _ _ => idMatches_next hfront hpc⟩
        refine ⟨?_, ?_, ?_, ?_, ?_, ?_, ?_, ?_, ?_, ?_, ?_, ?_⟩
        · rw [hidEx, idExIn, hif]; rfl
        · rw [hidEx, idExIn, hif]; rfl
        · rw [hidEx, idExIn, hif]; rfl
        · rw [hidEx, idExIn, immOutId, hdec, hif]; rfl
        · rw [hidEx, idExIn, hdec]; rfl
        · rw [hidEx, hadv.regs, ← intPort_inOrder h]; exact intRead_eq _ _ _
        · rw [hidEx, hadv.regs, ← intPort_inOrder h]; exact intRead_eq _ _ _
        · rw [hidEx, hadv.fpr, ← fpPort_inOrder h]; exact fpRead_eq _ _ _
        · rw [hidEx, hadv.fpr, ← fpPort_inOrder h]; exact fpRead_eq _ _ _
        · rw [hidEx, hadv.fpr, ← fpPort_inOrder h]; exact fpRead_eq _ _ _
        · rw [hexMem]; exact hcsrEx
        · rw [hexMem, hidEx]; exact hload

theorem nextPc_eq (h : oooEn s = false) (hsim : Sim imem s a) (hm : leavesMem s.exMem = false)
    (hex : ExHolds imem s (afterMem imem s a)) (hleaves : leavesEx s = false) :
    (execOne imem (afterMem imem s a)).pc =
      if pcSelEx s then pcTargetEx s else (afterMem imem s a).pc + 4#32 := by
  rw [leavesEx, hex.ctrl, Bool.or_eq_false_iff] at hleaves
  rw [pcSelEx_eq h hsim hm hex, pcTargetEx_eq h hsim hm hex]
  change nextPc imem (afterMem imem s a) = _
  simp only [nextPc, hleaves.1, hleaves.2, Bool.false_eq_true, if_false]

/-- One cycle of the pipeline executes the instruction in MEM, if there is one. -/
theorem sim_step (h : oooEn s = false) (hsim : Sim imem s a) (hadv : Advances imem blocked s s') :
    Sim imem s' (afterMem imem s a) := by
  have hregs := afterMem_regs hsim
  have hfpr := afterMem_fpr hsim
  have hmemWb := hadv.memWb
  have hdmem : (afterMem imem s a).dmem = s'.dmem := by rw [afterMem_dmem hsim, hadv.dmem]
  have hcsr : (afterMem imem s a).csr = s'.csr := by rw [afterMem_csr hsim, hadv.csr]
  cases hm : leavesMem s.exMem with
  | true =>
      have hholds : s.exMem = exMemOf imem a := hsim.mem.resolve_left fun he => by
        rw [leavesMem_of_emptyMem he] at hm
        cases hm
      have hexMem := hadv.exMem
      have hidEx := hadv.idEx
      have hfront := hadv.front
      rw [hm] at hregs hfpr hmemWb hexMem hidEx
      rw [front, hm] at hfront
      have hempty : EmptyMem s' := by rw [EmptyMem, hexMem]; exact ⟨rfl, rfl, rfl, rfl⟩
      refine ⟨?_, ?_, hdmem, hcsr, .inl hempty, fun _ => .inl ⟨?_, ?_⟩⟩
      · rw [hregs, hadv.regs, ← hsim.regs, hmemWb]; rfl
      · rw [hfpr, hadv.fpr, ← hsim.fpr, hmemWb]; rfl
      · rw [EmptyEx, hidEx]; exact ⟨rfl, rfl, rfl, rfl⟩
      · obtain ⟨hp, hf⟩ := Prod.mk.injEq _ _ _ _ ▸ hfront
        refine .inl ⟨hf, ?_⟩
        rw [hp, afterMem_of_emptyMem hempty, afterMem_of_holds hholds]
        exact trapPc_eq hsim hholds hm
  | false =>
      rw [hm, if_neg Bool.false_ne_true] at hregs hfpr hmemWb
      rcases hsim.ex hm with ⟨hex, hid⟩ | ⟨hex, hid⟩
      · have hempty := emptyMem_step hm hex hadv
        refine ⟨?_, ?_, hdmem, hcsr, .inl hempty, fun _ => ?_⟩
        · rw [hregs, hadv.regs, ← hsim.regs, hmemWb]; rfl
        · rw [hfpr, hadv.fpr, ← hsim.fpr, hmemWb]; rfl
        · rw [afterMem_of_emptyMem hempty]
          refine exMatches_step h hm (pcSelEx_of_emptyEx hex) hid hadv rfl fun hst => ?_
          have hquiet := (not_stalls hst).2.1
          rw [fcsrRmMem_of_csrQuiet hquiet]
          exact afterMem_frm hsim hquiet
      · have hholds := exMem_step h hsim hm hex hadv
        refine ⟨?_, ?_, hdmem, hcsr, .inr hholds, fun hm' => ?_⟩
        · rw [hregs, hadv.regs, ← hsim.regs, hmemWb]; rfl
        · rw [hfpr, hadv.fpr, ← hsim.fpr, hmemWb]; rfl
        · rw [afterMem_of_holds hholds]
          have hleaves : leavesEx s = false := by
            rw [hholds] at hm'
            rw [leavesEx, hex.ctrl]
            exact hm'
          have hnext := nextPc_eq h hsim hm hex hleaves
          cases hsel : pcSelEx s with
          | true =>
              have hidEx := hadv.idEx
              have hfront := hadv.front
              rw [hsel, Bool.or_true, Bool.true_or, if_pos rfl] at hidEx
              rw [front, hm, hsel] at hfront
              obtain ⟨hp, hf⟩ := Prod.mk.injEq _ _ _ _ ▸ hfront
              refine .inl ⟨by rw [EmptyEx, hidEx]; exact ⟨rfl, rfl, rfl, rfl⟩, .inl ⟨hf, ?_⟩⟩
              rw [hp, hnext, hsel, if_pos rfl]
          | false =>
              rw [hsel, if_neg Bool.false_ne_true] at hnext
              refine exMatches_step h hm hsel (hid hleaves hsel) hadv hnext fun hst => ?_
              obtain ⟨hcsrEx, hquiet, -⟩ := not_stalls hst
              have hb := afterMem_frm hsim hquiet
              have hc := csrTick_rm (c := (afterMem imem s a).csr) (r := exMemOf imem (afterMem imem s a))
                (by rw [hex.ctrl] at hcsrEx; exact hcsrEx)
              rw [fcsrRmMem_of_csrQuiet hquiet]
              exact ⟨hc.1.trans hb.1, hc.2.trans hb.2⟩

end SimStep

end VMate.InOrderSim
