import VMate.OooPath

namespace VMate.OooOperand

open Decode Pipe Hazard NanBox FpUnpack RegFile RiscvTop SeqExec DecodeFacts StageCtrl RobFifo OooTrap OooWindow
  OooSerial
  OooForward Speculate OooPath
open OooResult (wbValue low_append append_inj wbValue_fp wbValue_int)

section Conditions

/-- An older instruction in flight redirects, so that what is behind it will be flushed. -/
def shadowed (s : State) : Bool :=
  (s.track.validWb && (s.track.pcSelWb || s.memWb.instruction == 0x30200073#32)) ||
    (commitEn s && ((commitEntry s).branchMispredicted || commitIsMret s))

/-- What OoO mode needs of a cycle: no trap is taken, a return is the one word
that commit looks for, the two drivers of the redirect settle to the committed
target, an instruction that will be flushed raises no new flag, and the
separately written multiplexers agree. -/
structure Sound (o : OpenNets) (s : State) : Prop where
  trap : dispatchEn s = true → (ctrlId s).exception = false
  mret : dispatchEn s = true → (ctrlId s).mretExec = true → s.ifId.instruction = 0x30200073#32
  target : commitEn s = true → (commitEntry s).branchMispredicted = true →
    finalPcTarget o s = (commitEntry s).branchTarget
  flags : shadowed s = true → s.exMem.ctrl.fpFflagsWe = true →
    s.csr.fflagsReg ||| s.exMem.fpFflags = s.csr.fflagsReg
  muxEx : grantEx s = true → s.idEx.ctrl.fpToInt = true →
    aluResultEx s = (fpAluResultEx s).extractLsb 31 0
  muxMem : grantMem s = true → s.exMem.ctrl.fpWe = true → isSinglePrecisionMem o s = true →
    isBoxed s.exMem.fpAluResult = true
  muxWb : ∀ q ∈ sources true s, s.track.validEx = true → legOf true s q.reg = .wb → s.memWb.ctrl.fpMemRead = false →
    isSinglePrecision (finalInstructionWb s) (finalFmtWb s) = true → isBoxed s.memWb.fpAluResult = true

theorem sound_iff {o : OpenNets} {s : State} : Sound o s ↔
    (dispatchEn s = true → (ctrlId s).exception = false) ∧
    (dispatchEn s = true → (ctrlId s).mretExec = true → s.ifId.instruction = 0x30200073#32) ∧
    (commitEn s = true → (commitEntry s).branchMispredicted = true →
      finalPcTarget o s = (commitEntry s).branchTarget) ∧
    (shadowed s = true → s.exMem.ctrl.fpFflagsWe = true →
      s.csr.fflagsReg ||| s.exMem.fpFflags = s.csr.fflagsReg) ∧
    (grantEx s = true → s.idEx.ctrl.fpToInt = true → aluResultEx s = (fpAluResultEx s).extractLsb 31 0) ∧
    (grantMem s = true → s.exMem.ctrl.fpWe = true → isSinglePrecisionMem o s = true →
      isBoxed s.exMem.fpAluResult = true) ∧
    ∀ q ∈ sources true s, s.track.validEx = true → legOf true s q.reg = .wb → s.memWb.ctrl.fpMemRead = false →
      isSinglePrecision (finalInstructionWb s) (finalFmtWb s) = true → isBoxed s.memWb.fpAluResult = true :=
  ⟨fun h => ⟨h.trap, h.mret, h.target, h.flags, h.muxEx, h.muxMem, h.muxWb⟩,
    fun ⟨h1, h2, h3, h4, h5, h6, h7⟩ => ⟨h1, h2, h3, h4, h5, h6, h7⟩⟩

instance (o : OpenNets) (s : State) : Decidable (Sound o s) := decidable_of_iff' _ sound_iff

/-- What is known of every state of a run that stays in OoO mode. -/
structure RunInv (s : State) : Prop where
  inv : OooInv s
  trap : TrapInv s
  mode : ModeInv s
  bubbles : Bubbles s
  decoded : CtrlDecoded s
  boxed : Boxed s
  latched : Latched s

theorem runInv_run {imem : Imem} {p : PowerUp} {o : Nat → OpenNets} {n : Nat} (h : StaysOn imem p o n) :
    RunInv (run imem p o n) where
  inv := oooInv_run h
  trap := trapInv_run imem p o n
  mode := modeInv_run imem p o n
  bubbles := bubbles_run imem p o n
  decoded := ctrlDecoded_run imem p o n
  boxed := boxed_run imem p o n
  latched := latched_run imem p o n

end Conditions

section Window

variable {imem : Imem} {a0 : Arch} {pos : Nat → Slot} {s : State} {k : Nat}

theorem turns_of_mret {a : Arch} (h : (idExOf imem a).ctrl.mretExec = true) : turns imem a = true := by
  rw [turns, leavesMem, show (exMemOf imem a).ctrl.mretExec = true from h, Bool.or_true, Bool.true_or]

/-- What blank instructions do not change is the same at the next position. -/
theorem value_of_blanks {α : Type} {f : Arch → α} (hf : ∀ a q, f { a with pc := q } = f a) (i : Nat)
    (h : (refPath imem a0).skip i = true) : f (archAt imem a0 (i + 1)) = f (archAt imem a0 i) := by
  rw [archAt_succ, execOne_of_blank h, hf]

variable (hp : OnPath imem a0 pos s)

include hp

/-- At the next position the instruction of a live one has been executed. -/
theorem value_next {α : Type} {f : Arch → α} (hf : ∀ a q, f { a with pc := q } = f a) (hk : k < occ s)
    (hl : (pos k).live = true) :
    f (archPos imem a0 pos (k + 1)) = f (execOne imem (archPos imem a0 pos k)) := by
  have h := (hp.window.linked k hk).value (f := fun i => f (archAt imem a0 i)) (value_of_blanks hf) hl
  rwa [archAt_succ] at h

theorem archReg_next {fp : Bool} {rs : BitVec 5} (hrs : Named fp rs) (hk : k < occ s) (hl : (pos k).live = true) :
    archReg fp (archPos imem a0 pos (k + 1)) rs =
      if writesReg fp (idExOf imem (archPos imem a0 pos k)).ctrl.toWbCtrl
        (idExOf imem (archPos imem a0 pos k)).instruction rs
      then refValue imem (archPos imem a0 pos k) else archReg fp (archPos imem a0 pos k) rs := by
  rw [value_next hp (f := fun a => archReg fp a rs) (fun _ _ => rfl) hk hl]
  exact archReg_execOne hrs (hp.entry k hk hl).trap

theorem reach_of_live (hk : k = occ s - s.track.validEx.toNat - s.track.validMem.toNat) (hl : (pos k).live = true) :
    reach imem a0 pos s = k := by
  rw [reach]
  split_ifs with h
  · by_contra hne
    have hturn := (hp.window.live_of_le (Nat.zero_le k) (by omega) hl).2 (by omega)
    have hmret := turns_of_mret h.2
    rw [show turns imem _ = false from hturn] at hmret
    cases hmret
  · exact hk.symm

/-- A live instruction in MEM finds memory and CSRs as the reference has them. -/
theorem memWb_of_mem (hv : s.track.validMem = true) (hk : occ s = k + 1 + s.track.validEx.toNat)
    (hl : (pos k).live = true) :
    s.dmem = (archPos imem a0 pos k).dmem ∧ s.csr = (archPos imem a0 pos k).csr ∧
      memWbIn s.exMem (dmemRdataMem s) (csrRdataMem s) =
        memWbOf (archPos imem a0 pos k) (exMemOf imem (archPos imem a0 pos k)) := by
  have hreach := reach_of_live hp (k := k) (by rw [hv, Bool.toNat_true]; omega) hl
  have hdmem := hp.dmem
  have hcsr := hp.csr
  rw [hreach] at hdmem hcsr
  refine ⟨hdmem, hcsr, ?_⟩
  rw [memWbOf, ← hdmem, ← hcsr, ← (hp.mem hv k hk hl).exMem]
  rfl

end Window

section Operands

variable {imem : Imem} {o : OpenNets} {a0 : Arch} {pos : Nat → Slot} {s : State} {k : Nat} {fp : Bool} {rs : BitVec 5}
  {q : Source} (hp : OnPath imem a0 pos s) (hr : RunInv s) (hs : Sound o s) (hooo : oooEn s = true)

theorem regData_int (x : BitVec 32) : regData false (0#32 ++ x) = 0#32 ++ x := congrArg (0#32 ++ ·) (low_append x)

theorem refValue_reg {a : Arch} (h : writesReg fp (idExOf imem a).ctrl.toWbCtrl (idExOf imem a).instruction rs = true) :
    regData fp (refValue imem a) = refValue imem a := by
  rw [writesReg, Bool.and_eq_true] at h
  cases fp with
  | true => rfl
  | false => rw [refValue_int (fpWe_of_regWrite h.1), regData_int]

include hp hr

theorem mem_value (hrs : Named fp rs) (hk : occ s = k + 1) (hv : s.track.validEx = true) (hl : (pos k).live = true)
    (hload : fp = true → rdOf s.exMem.instruction = rs → s.exMem.ctrl.fpMemRead = false) (latched : BitVec 64)
    (hooo : oooEn s = true) :
    archReg fp (archPos imem a0 pos k) rs =
      if writesReg fp s.exMem.ctrl.toWbCtrl s.exMem.instruction rs then legData fp s latched .mem
      else archReg fp (archPos imem a0 pos (k - s.track.validMem.toNat)) rs := by
  cases hm : s.track.validMem with
  | false =>
      rw [(hr.bubbles.mem hooo hm).2, writesReg]
      cases fp <;> rfl
  | true =>
      obtain ⟨m, hmk, -⟩ := hr.inv.mem hm
      obtain rfl : k = m + 1 := by
        rw [hv, Bool.toNat_true] at hmk
        omega
      have hlm := (hp.window.live_of_le (Nat.le_succ m) (by omega) hl).1
      have hmem := hp.mem hm m hmk hlm
      rw [Bool.toNat_true, Nat.add_sub_cancel, archReg_next hp hrs (by omega) hlm, hmem.exMem]
      change _ = if writesReg fp (idExOf imem (archPos imem a0 pos m)).ctrl.toWbCtrl
        (idExOf imem (archPos imem a0 pos m)).instruction rs = true then _ else _
      split_ifs with hw
      · rw [writesReg, Bool.and_eq_true, beq_iff_eq] at hw
        cases fp with
        | true =>
            have hread : (idExOf imem (archPos imem a0 pos m)).ctrl.fpMemRead = false := by
              rw [hmem.exMem] at hload
              exact hload rfl hw.2
            have hval : refValue imem (archPos imem a0 pos m) = _ := wbValue_fp (idExOf_ctrl _) hw.1 hread
            rw [hval, legData, if_pos rfl, hmem.exMem]
            rfl
        | false =>
            rw [refValue_int (fpWe_of_regWrite hw.1), ← (memWb_of_mem hp hm hmk hlm).2.2]
            rfl
      · rfl

include hs

omit hp in
theorem wb_leg (hv : s.track.validEx = true) (hq : q ∈ sources fp s) (hrs : Named fp q.reg)
    (hleg : legOf fp s q.reg = .wb) : legData fp s q.latched .wb = wbValue s.memWb := by
  have hw := writesReg_of_leg_wb hrs hleg
  rw [writesReg, Bool.and_eq_true] at hw
  cases fp with
  | true => exact fpWbDataWb_eq hr.boxed hw.1 (hs.muxWb q hq hv hleg)
  | false =>
      obtain ⟨fs, rm, hctrl⟩ := hr.decoded.memWb
      have hwe : s.memWb.ctrl.regWrite = true := hw.1
      have hfp : s.memWb.ctrl.fpWe = false := by
        rw [hctrl] at hwe ⊢
        exact decode_oneFile hwe
      rw [wbValue, hfp]
      rfl

omit hr hs in
theorem regValue_eq : regValue fp s rs = archReg fp (archPos imem a0 pos 0) rs := by
  rw [regValue, archReg, hp.regs, hp.fpr]

omit hs in
/-- What the head commits is what the reference writes at the oldest position. -/
theorem commitsReg_head (fp : Bool) (rs : BitVec 5) (hc : commitEn s = true) :
    commitsReg fp s rs = writesReg fp (idExOf imem (archPos imem a0 pos 0)).ctrl.toWbCtrl
      (idExOf imem (archPos imem a0 pos 0)).instruction rs ∧
    (commitsReg fp s rs = true → regData fp (commitEntry s).result = refValue imem (archPos imem a0 pos 0)) := by
  obtain ⟨hpos, hcomp⟩ := (commitEn_eq hr.trap.wf).mp hc
  have he := hp.entry 0 hpos hp.window.head
  rw [entryAt, slot_zero] at he
  have hone : (idExOf imem (archPos imem a0 pos 0)).ctrl.regWrite = true →
    (idExOf imem (archPos imem a0 pos 0)).ctrl.fpWe = false := fpWe_of_regWrite
  have hwrite : commitRegWrite s = _ := he.write
  have htype : (commitEntry s).destType = _ := he.destType
  have hreg : (commitEntry s).destReg = _ := he.destReg
  have heq : commitsReg fp s rs = writesReg fp (idExOf imem (archPos imem a0 pos 0)).ctrl.toWbCtrl
      (idExOf imem (archPos imem a0 pos 0)).instruction rs := by
    rw [commitsReg, writesReg, hc, hwrite, htype, hreg]
    revert hone
    cases fp <;> cases (idExOf imem (archPos imem a0 pos 0)).ctrl.regWrite <;>
      cases (idExOf imem (archPos imem a0 pos 0)).ctrl.fpWe <;> simp
  refine ⟨heq, fun hw => ?_⟩
  have hres : (commitEntry s).result = refValue imem (archPos imem a0 pos 0) := by
    refine he.result hcomp ?_
    simp only [commitsReg, Bool.and_eq_true] at hw
    exact hw.1.1.2
  rw [hres]
  exact refValue_reg (heq ▸ hw)

omit hs in
theorem port_value (hrs : Named fp rs) (hooo : oooEn s = true) {n : Nat}
    (h0 : n = 0 → commitEn s = true → writesReg fp (idExOf imem (archPos imem a0 pos 0)).ctrl.toWbCtrl
      (idExOf imem (archPos imem a0 pos 0)).instruction rs = false)
    (h1 : n ≠ 0 → n = 1 ∧ commitEn s = true) :
    archReg fp (archPos imem a0 pos n) rs =
      if commitMatch fp s rs then regData fp (commitEntry s).result else regValue fp s rs := by
  rw [commitMatch_eq hooo hrs]
  by_cases hn : n = 0
  · subst hn
    rw [if_neg, regValue_eq hp]
    intro hw
    have hc : commitEn s = true := by
      simp only [commitsReg, Bool.and_eq_true] at hw
      exact hw.1.1.1
    rw [(commitsReg_head hp hr fp rs hc).1, h0 rfl hc] at hw
    cases hw
  · obtain ⟨rfl, hc⟩ := h1 hn
    obtain ⟨heq, hval⟩ := commitsReg_head hp hr fp rs hc
    rw [archReg_next hp hrs ((commitEn_eq hr.trap.wf).mp hc).1 hp.window.head, ← heq, regValue_eq hp]
    split_ifs with hw
    · exact (hval hw).symm
    · rfl

omit hs in
/-- With no writer of the register in MEM the operand comes from WB, from the
commit port or from the register file. -/
theorem older_value (hrs : Named fp rs) (hk : occ s = k + 1) (hv : s.track.validEx = true) (hl : (pos k).live = true)
    (hm : writesReg fp s.exMem.ctrl.toWbCtrl s.exMem.instruction rs = false) (hooo : oooEn s = true) :
    archReg fp (archPos imem a0 pos (k - s.track.validMem.toNat)) rs =
      if writesReg fp s.memWb.ctrl s.memWb.instruction rs then wbValue s.memWb
      else if commitMatch fp s rs then regData fp (commitEntry s).result else regValue fp s rs := by
  have hlag := hr.inv.lag
  rw [hv, Bool.toNat_true] at hlag
  have hcommit (h : (commitEntry s).completed = true) : commitEn s = true :=
    (commitEn_eq hr.trap.wf).mpr ⟨by omega, h⟩
  -- the oldest entry is not yet that of an older stage
  have hfront (h0 : k - s.track.validMem.toNat = 0) (hc : commitEn s = true) :
      writesReg fp (idExOf imem (archPos imem a0 pos 0)).ctrl.toWbCtrl
        (idExOf imem (archPos imem a0 pos 0)).instruction rs = false := by
    cases hvm : s.track.validMem with
    | true =>
        rw [hvm, Bool.toNat_true] at h0
        obtain ⟨m, hmk, -⟩ := hr.inv.mem hvm
        rw [hv, Bool.toNat_true] at hmk
        obtain rfl : m = 0 := by omega
        rw [(hp.mem hvm 0 (by rw [hv]; exact hmk) hp.window.head).exMem] at hm
        exact hm
    | false =>
        rw [hvm, Bool.toNat_false] at h0
        obtain ⟨j, hj, -, hcomp, -⟩ := hr.inv.ex hv
        obtain rfl : j = 0 := by omega
        rw [commitEn_head hr.trap.wf hc, (hp.ex hv 0 hj hp.window.head).ctrl,
          (hp.entry 0 (by omega) hp.window.head).trap] at hcomp
        cases hcomp
  cases hw : s.track.validWb with
  | false =>
      rw [hw, Bool.toNat_false] at hlag
      rw [(hr.bubbles.wb hooo hw hv).2, if_neg (by cases fp <;> exact Bool.false_ne_true)]
      refine port_value hp hr hrs hooo hfront fun hn => ?_
      rcases hlag with hlag | ⟨hlag, hcomp⟩
      · omega
      · exact ⟨by omega, hcommit hcomp⟩
  | true =>
      rw [hw, Bool.toNat_true] at hlag
      rcases hr.inv.wb hw with ⟨w, hwk, -⟩ | ⟨hset, -⟩
      · have hwk' := hwk
        rw [hv, Bool.toNat_true] at hwk'
        obtain ⟨hpos, hlw⟩ : k - s.track.validMem.toNat = w + 1 ∧ (pos w).live = true :=
          ⟨by omega, (hp.window.live_of_le (k := k) (by omega) (by omega) hl).1⟩
        have hwb := hp.wb hw w hwk hlw
        rw [hpos, archReg_next hp hrs (by omega) hlw, hwb.memWb]
        change (if writesReg fp (idExOf imem (archPos imem a0 pos w)).ctrl.toWbCtrl
          (idExOf imem (archPos imem a0 pos w)).instruction rs = true then refValue imem (archPos imem a0 pos w)
          else _) = if writesReg fp (idExOf imem (archPos imem a0 pos w)).ctrl.toWbCtrl
          (idExOf imem (archPos imem a0 pos w)).instruction rs = true then refValue imem (archPos imem a0 pos w)
          else _
        by_cases hwr : writesReg fp (idExOf imem (archPos imem a0 pos w)).ctrl.toWbCtrl
          (idExOf imem (archPos imem a0 pos w)).instruction rs = true
        · rw [if_pos hwr, if_pos hwr]
        · rw [if_neg hwr, if_neg hwr]
          refine port_value hp hr hrs hooo (fun h0 _ => ?_) fun hn => ?_
          · rw [← h0]
            exact Bool.eq_false_iff.mpr hwr
          · rcases hlag with hlag | ⟨hlag, hcomp⟩
            · omega
            · exact ⟨by omega, hcommit hcomp⟩
      · have hset' := hset
        rw [hv, Bool.toNat_true] at hset'
        have h0 : k - s.track.validMem.toNat = 0 := by omega
        by_cases hwr : writesReg fp s.memWb.ctrl s.memWb.instruction rs = true
        · rw [if_pos hwr, h0, ← regValue_eq hp]
          exact hp.settled hw hset fp rs hrs hwr
        · rw [if_neg hwr]
          exact port_value hp hr hrs hooo hfront fun hn => absurd h0 hn

/-- EX computes with the operands of the reference. -/
theorem operand_eq (hv : s.track.validEx = true) (hk : occ s = k + 1) (hl : (pos k).live = true)
    (hq : q ∈ sources fp s) (hrs : Named fp q.reg) (hooo : oooEn s = true) :
    q.operand = archReg fp (archPos imem a0 pos k) q.reg := by
  have hload : fp = true → rdOf s.exMem.instruction = q.reg → s.exMem.ctrl.fpMemRead = false := by
    rintro rfl hrd
    exact hr.latched.load hv q hq hrd
  have hwb := wb_leg hr hs hv hq hrs
  rw [mem_value hp hr hrs hk hv hl hload q.latched hooo, operand_leg hq]
  rw [legOf_eq hrs] at hwb ⊢
  split_ifs at hwb ⊢ with hm hw hc
  · rfl
  · rw [older_value hp hr hrs hk hv hl (Bool.eq_false_iff.mpr hm) hooo, if_pos hw]
    exact hwb rfl
  · rw [older_value hp hr hrs hk hv hl (Bool.eq_false_iff.mpr hm) hooo, if_neg hw, if_pos hc]
    rfl
  · rw [older_value hp hr hrs hk hv hl (Bool.eq_false_iff.mpr hm) hooo, if_neg hw, if_neg hc]
    exact hr.latched.data hv fp q hq

end Operands

end VMate.OooOperand
