import VMate.Speculate
import VMate.InOrderRun
import VMate.OooResult

namespace VMate.OooPath

open Decode Pipe Hazard NanBox FpUnpack RegFile RiscvTop SeqExec DecodeFacts StageCtrl RobFifo OooTrap OooWindow
  OooSerial OooForward Speculate
open OooResult (wbValue)
open InOrderSim (IdMatches)

section Reference

variable (imem : Imem)

/-- The value the reference writes to a register, if it writes one. -/
def refValue (a : Arch) : BitVec 64 := wbValue (memWbOf a (exMemOf imem a))

def refSel (a : Arch) : Bool := pcSelOf (idExOf imem a) (operandsOf (idExOf imem a))

def refTarget (a : Arch) : BitVec 32 := pcTargetOf (idExOf imem a) (operandsOf (idExOf imem a))

/-- The instruction is not followed by the next one in memory. -/
def turns (a : Arch) : Bool := leavesMem (exMemOf imem a) || refSel imem a

/-- An all-zero word goes through the front end without being dispatched. -/
def isBlank (a : Arch) : Bool := (idExOf imem a).instruction == 0#32

variable {imem}

theorem idExOf_ctrl (a : Arch) : (idExOf imem a).ctrl =
    (decode (idExOf imem a).instruction a.csr.mstatusFs a.csr.frmReg).toExCtrl := rfl

theorem ctrl_of_blank {a : Arch} (h : isBlank imem a = true) : (idExOf imem a).ctrl = {} := by
  rw [idExOf_ctrl, beq_iff_eq.mp h]
  rfl

theorem turns_of_blank {a : Arch} (h : isBlank imem a = true) : turns imem a = false := by
  have hctrl := ctrl_of_blank h
  have hmem : (exMemOf imem a).ctrl = (idExOf imem a).ctrl.toMemCtrl := rfl
  rw [turns, leavesMem, refSel, pcSelOf, hmem, hctrl]
  rfl

theorem nextPc_of_not_turns {a : Arch} (h : turns imem a = false) : (execOne imem a).pc = a.pc + 4#32 := by
  rw [turns, Bool.or_eq_false_iff, leavesMem, Bool.or_eq_false_iff] at h
  obtain ⟨⟨he, hm⟩, hsel⟩ := h
  change nextPc imem a = _
  simp only [nextPc]
  rw [if_neg (by rw [show (idExOf imem a).ctrl.exception = false from he]; exact Bool.false_ne_true),
    if_neg (by rw [show (idExOf imem a).ctrl.mretExec = false from hm]; exact Bool.false_ne_true),
    if_neg (by rw [show pcSelOf _ _ = false from hsel]; exact Bool.false_ne_true)]

/-- A blank instruction moves the program counter and nothing else. -/
theorem execOne_of_blank {a : Arch} (h : isBlank imem a = true) : execOne imem a = { a with pc := a.pc + 4#32 } := by
  have hpc := nextPc_of_not_turns (turns_of_blank h)
  have hctrl : (exMemOf imem a).ctrl = {} := congrArg ExCtrl.toMemCtrl (ctrl_of_blank h)
  have hwb : (memWbOf a (exMemOf imem a)).ctrl = {} := congrArg MemCtrl.toWbCtrl hctrl
  have hleaves : leavesMem (exMemOf imem a) = false := by rw [leavesMem, hctrl]; rfl
  obtain ⟨pc, regs, fpr, dmem, csr⟩ := a
  simp only [execOne, retire, hleaves, Bool.false_eq_true, if_false, Arch.mk.injEq]
  refine ⟨hpc, ?_, ?_, ?_, ?_⟩
  · exact intWrite_of_we_false (by rw [intWb, hwb])
  · exact fpWrite_of_we_false (by rw [fpWb, hwb])
  · simp [Dmem.dmemTick, Dmem.executeWrite, dmemInOf, hctrl]
  · simp [CsrFile.csrTick, csrInOf, hctrl]

/-- A register as the reference has it; integers are zero-extended. -/
def archReg (fp : Bool) (a : Arch) (rs : BitVec 5) : BitVec 64 :=
  if fp then a.fpr rs else 0#32 ++ regRead a.regs rs

theorem refValue_int {a : Arch} (h : (idExOf imem a).ctrl.fpWe = false) :
    refValue imem a = 0#32 ++ wbDataOf (memWbOf a (exMemOf imem a)) :=
  if_neg (by rw [show (memWbOf a (exMemOf imem a)).ctrl.fpWe = false from h]; exact Bool.false_ne_true)

theorem refValue_fp {a : Arch} (h : (idExOf imem a).ctrl.fpWe = true) : refValue imem a =
    fpWbDataOf (memWbOf a (exMemOf imem a)) (idExOf imem a).instruction (idExOf imem a).ctrl.fmt :=
  if_pos (show (memWbOf a (exMemOf imem a)).ctrl.fpWe = true from h)

theorem fpWe_of_regWrite {a : Arch} (h : (idExOf imem a).ctrl.regWrite = true) : (idExOf imem a).ctrl.fpWe = false := by
  rw [idExOf_ctrl] at h ⊢
  exact decode_oneFile h

theorem quiet_of_mret {a : Arch} (h : (idExOf imem a).ctrl.mretExec = true) :
    (idExOf imem a).ctrl.regWrite = false ∧ (idExOf imem a).ctrl.fpWe = false := by
  rw [idExOf_ctrl] at h ⊢
  exact decode_mretQuiet h

theorem still_of_mret {a : Arch} (h : (idExOf imem a).ctrl.mretExec = true) :
    writesState (exMemOf imem a).ctrl = false ∧ (exMemOf imem a).ctrl.fpFflagsWe = false := by
  rw [idExOf_ctrl] at h
  refine ⟨?_, ?_⟩
  · rw [Bool.eq_false_iff]
    intro hw
    have hret := (decode_writesState (i := (idExOf imem a).instruction) hw).2.2.2
    rw [hret] at h
    cases h
  · rw [Bool.eq_false_iff]
    intro hf
    have hret := (decode_flagsQuiet (i := (idExOf imem a).instruction) hf).2
    rw [hret] at h
    cases h

/-- Without a trap the register files take the writes of WB, a return having none. -/
theorem regs_execOne {a : Arch} (he : (idExOf imem a).ctrl.exception = false) :
    (execOne imem a).regs = intWrite a.regs (intWb (memWbOf a (exMemOf imem a))) ∧
      (execOne imem a).fpr = fpWrite a.fpr (fpWb (memWbOf a (exMemOf imem a))) := by
  have hleaves : leavesMem (exMemOf imem a) = (idExOf imem a).ctrl.mretExec := by
    rw [leavesMem, show (exMemOf imem a).ctrl.exception = false from he]
    rfl
  simp only [execOne, retire, hleaves]
  cases hm : (idExOf imem a).ctrl.mretExec with
  | false => exact ⟨rfl, rfl⟩
  | true =>
      obtain ⟨hw, hfw⟩ := quiet_of_mret hm
      exact ⟨(intWrite_of_we_false hw).symm, (fpWrite_of_we_false hfw).symm⟩

theorem archReg_execOne {a : Arch} {fp : Bool} {rs : BitVec 5} (hrs : Named fp rs)
    (he : (idExOf imem a).ctrl.exception = false) : archReg fp (execOne imem a) rs =
      if writesReg fp (idExOf imem a).ctrl.toWbCtrl (idExOf imem a).instruction rs then refValue imem a
      else archReg fp a rs := by
  obtain ⟨hregs, hfpr⟩ := regs_execOne he
  cases fp with
  | true =>
      simp only [archReg, if_true, hfpr]
      rw [fpWrite_apply]
      change (if ((idExOf imem a).ctrl.fpWe && rdOf (idExOf imem a).instruction == rs) = true then _ else _) = _
      rw [writesReg, if_pos rfl]
      cases hwe : (idExOf imem a).ctrl.fpWe with
      | false => rfl
      | true => rw [refValue_fp hwe]; rfl
  | false =>
      have hne : rs ≠ 0#5 := hrs.resolve_left Bool.false_ne_true
      simp only [archReg, Bool.false_eq_true, if_false, hregs]
      rw [regRead_intWrite]
      change (0#32 ++ (if ((idExOf imem a).ctrl.regWrite && rdOf (idExOf imem a).instruction != 0#5 &&
        rdOf (idExOf imem a).instruction == rs) = true then _ else _) : BitVec 64) = _
      rw [writesReg, if_neg Bool.false_ne_true]
      by_cases hrd : rdOf (idExOf imem a).instruction = rs
      · cases hwe : (idExOf imem a).ctrl.regWrite with
        | false => simp
        | true =>
            rw [refValue_int (fpWe_of_regWrite hwe)]
            simp only [hrd, bne_iff_ne.mpr hne, beq_self_eq_true, Bool.and_self, if_true]
            rfl
      · simp [hrd]

end Reference

section Positions

variable (imem : Imem) (a0 : Arch)

/-- The reference state after `k` instructions. -/
def archAt (k : Nat) : Arch := (execOne imem)^[k] a0

variable {imem a0} in
theorem archAt_succ (k : Nat) : archAt imem a0 (k + 1) = execOne imem (archAt imem a0 k) :=
  Function.iterate_succ_apply' _ _ _

/-- The reference run as the front end follows it. -/
def refPath : Path where
  turn k := turns imem (archAt imem a0 k)
  skip k := isBlank imem (archAt imem a0 k)
  turn_of_skip _ h := turns_of_blank h

/-- The state that belongs to position `k` of the window. -/
abbrev archPos (pos : Nat → Slot) (k : Nat) : Arch := archAt imem a0 (pos k).idx

/-- The entry holds the instruction that comes next in the state `a`. What it
says about the result it says once it is completed. -/
structure EntryHolds (a : Arch) (e : Rob.RobEntry) (w : Bool) : Prop where
  present : isBlank imem a = false
  pc : e.pc = a.pc
  instruction : e.instruction = (idExOf imem a).instruction
  destReg : e.destReg = rdOf (idExOf imem a).instruction
  destType : e.destType = (idExOf imem a).ctrl.fpWe
  write : w = ((idExOf imem a).ctrl.regWrite || (idExOf imem a).ctrl.fpWe)
  trap : (idExOf imem a).ctrl.exception = false
  mret : (idExOf imem a).ctrl.mretExec = true → (idExOf imem a).instruction = 0x30200073#32
  result : e.completed = true → w = true → e.result = refValue imem a
  sel : e.completed = true → e.branchMispredicted = refSel imem a
  target : e.completed = true → e.branchTarget = refTarget imem a

structure ExHolds (s : State) (a : Arch) : Prop where
  pc : s.idEx.pc = (idExOf imem a).pc
  pcPlus4 : s.idEx.pcPlus4 = (idExOf imem a).pcPlus4
  instruction : s.idEx.instruction = (idExOf imem a).instruction
  immOut : s.idEx.immOut = (idExOf imem a).immOut
  ctrl : s.idEx.ctrl = (idExOf imem a).ctrl

structure MemHolds (s : State) (a : Arch) : Prop where
  exMem : s.exMem = exMemOf imem a
  sel : s.track.pcSelMem = refSel imem a
  target : s.track.pcTargetMem = refTarget imem a

structure WbHolds (s : State) (a : Arch) : Prop where
  memWb : s.memWb = memWbOf a (exMemOf imem a)
  sel : s.track.pcSelWb = refSel imem a
  target : s.track.pcTargetWb = refTarget imem a

/-- The oldest instruction is a trap return, which works when it commits. -/
def MretHead (pos : Nat → Slot) (s : State) : Prop :=
  0 < occ s ∧ (idExOf imem (archPos imem a0 pos 0)).ctrl.mretExec = true

instance (pos : Nat → Slot) (s : State) : Decidable (MretHead imem a0 pos s) := inferInstanceAs (Decidable (_ ∧ _))

/-- Where the next access to memory and CSRs will be made: at the oldest
instruction that has not left MEM. -/
def reach (pos : Nat → Slot) (s : State) : Nat :=
  if MretHead imem a0 pos s then 0 else occ s - s.track.validEx.toNat - s.track.validMem.toNat

/-- The pipeline in OoO mode stands for a window of the reference run. The
registers are those at its oldest position; memory and CSRs are ahead of them
by the instructions that have left MEM. -/
structure OnPath (pos : Nat → Slot) (s : State) : Prop where
  window : Window (refPath imem a0) (occ s) pos
  regs : s.regs = (archPos imem a0 pos 0).regs
  fpr : s.fpr = (archPos imem a0 pos 0).fpr
  dmem : s.dmem = (archPos imem a0 pos (reach imem a0 pos s)).dmem
  csr : s.csr = (archPos imem a0 pos (reach imem a0 pos s)).csr
  front : (pos (occ s)).live = true → IdMatches imem s (archPos imem a0 pos (occ s)).pc
  entry : ∀ k < occ s, (pos k).live = true →
    EntryHolds imem (archPos imem a0 pos k) (entryAt s k) (s.robRegWriteArray (slot s k))
  ex : s.track.validEx = true → ∀ k, occ s = k + 1 → (pos k).live = true → ExHolds imem s (archPos imem a0 pos k)
  mem : s.track.validMem = true → ∀ k, occ s = k + 1 + s.track.validEx.toNat → (pos k).live = true →
    MemHolds imem s (archPos imem a0 pos k)
  wb : s.track.validWb = true → ∀ k, occ s = k + 1 + s.track.validEx.toNat + s.track.validMem.toNat →
    (pos k).live = true → WbHolds imem s (archPos imem a0 pos k)
  settled : s.track.validWb = true → occ s = s.track.validEx.toNat + s.track.validMem.toNat →
    ∀ fp rs, Named fp rs → writesReg fp s.memWb.ctrl s.memWb.instruction rs = true → regValue fp s rs = wbValue s.memWb
  quiet : ∀ j, (s.rob.robData j).exception = false

end Positions

section Local

variable {imem : Imem} {o : OpenNets} {s : State}

/-- What ID has read for the instruction in EX. -/
structure Latched (s : State) : Prop where
  data : s.track.validEx = true → ∀ fp, ∀ q ∈ sources fp s, q.latched = regValue fp s q.reg
  load : s.track.validEx = true → ∀ q ∈ sources true s, rdOf s.exMem.instruction = q.reg →
    s.exMem.ctrl.fpMemRead = false

theorem latched_step : Latched (tick imem o s) := by
  refine ⟨fun hv fp q hq => ?_, fun hv q hq hrd => ?_⟩
  · rw [validEx_tick, Bool.and_eq_true] at hv
    exact latched_eq hv.1 hq
  · rw [validEx_tick, Bool.and_eq_true] at hv
    rw [exMem_tick, (dispatchEn_spec hv.1).2.1, if_neg Bool.false_ne_true] at hrd ⊢
    exact fpMemRead_of_source hv.1 hq hrd

theorem latched_run (imem : Imem) (p : PowerUp) (o : Nat → OpenNets) (n : Nat) : Latched (run imem p o n) := by
  cases n with
  | zero => exact ⟨fun h => (Bool.false_ne_true h).elim, fun h => (Bool.false_ne_true h).elim⟩
  | succ n => exact latched_step

/-- What the FP unit has computed does not change on its way to write-back. -/
structure Boxed (s : State) : Prop where
  mem : s.exMem.ctrl.fpWe = true →
    nanBoxed (isSinglePrecision s.exMem.instruction s.exMem.ctrl.fmt) s.exMem.fpAluResult = s.exMem.fpAluResult
  wb : s.memWb.ctrl.fpWe = true →
    nanBoxed (isSinglePrecision s.memWb.instruction s.memWb.ctrl.fmt) s.memWb.fpAluResult = s.memWb.fpAluResult

theorem boxed_step (h : Boxed s) (hc : CtrlDecoded s) : Boxed (tick imem o s) := by
  refine ⟨?_, ?_⟩
  · rw [exMem_tick]
    cases finalFlush s with
    | true => exact fun hwe => (Bool.false_ne_true hwe).elim
    | false =>
        obtain ⟨fs, rm, hctrl⟩ := hc.idEx
        exact fun hwe => nanBoxed_fpAluOf hctrl hwe
  · rw [memWb_tick]
    cases finalFlush s with
    | true => exact fun hwe => (Bool.false_ne_true hwe).elim
    | false => exact h.mem

theorem boxed_run (imem : Imem) (p : PowerUp) (o : Nat → OpenNets) (n : Nat) : Boxed (run imem p o n) := by
  induction n with
  | zero => exact ⟨fun h => (Bool.false_ne_true h).elim, fun h => (Bool.false_ne_true h).elim⟩
  | succ n ih => exact boxed_step ih (ctrlDecoded_run imem p o n)

/-- The FP value in WB, for whichever instruction the precision is taken from. -/
theorem fpWbDataWb_eq (h : Boxed s) (hwe : s.memWb.ctrl.fpWe = true)
    (hs : s.memWb.ctrl.fpMemRead = false →
      isSinglePrecision (finalInstructionWb s) (finalFmtWb s) = true → isBoxed s.memWb.fpAluResult = true) :
    fpWbDataWb s = wbValue s.memWb := by
  rw [wbValue, if_pos hwe, fpWbDataWb, fpWbDataOf, fpWbDataOf, fpResult, fpResult]
  cases hr : s.memWb.ctrl.fpMemRead with
  | true => rfl
  | false =>
      rw [if_neg Bool.false_ne_true, if_neg Bool.false_ne_true, h.wb hwe]
      exact nanBoxed_eq_iff.mpr (hs hr)

end Local

end VMate.OooPath
