import VMate.OooSwitch
import VMate.OooResult

namespace VMate.OooSwitchWrite

open Decode Pipe NanBox FpUnpack RegFile RiscvTop DecodeFacts StageCtrl RobFifo OooTrap OooWindow OooTimeline OooComplete
  OooSerial OooForward OooResult OooSwitch

section Ports

/-- What the write port of a register file writes in a cycle. -/
def portWrite (fp : Bool) (s : State) : Option (BitVec 5 × BitVec 64) :=
  if fp then if (fpPort s).we then some ((fpPort s).rdAddr, (fpPort s).rdData) else none
  else if (intPort s).we && (intPort s).rdAddr != 0#5 then some ((intPort s).rdAddr, 0#32 ++ (intPort s).rdData)
  else none

variable {imem : Imem} {o : OpenNets} {s : State} {fp : Bool} {rd : BitVec 5} {x : BitVec 64}

variable (imem o) in
theorem regValue_portWrite (h : portWrite fp s = some (rd, x)) : regValue fp (tick imem o s) rd = x := by
  cases fp with
  | true =>
      change fpWrite s.fpr (fpPort s) rd = x
      rw [portWrite, if_pos rfl] at h
      split_ifs at h with hwe
      obtain ⟨rfl, rfl⟩ := Prod.mk.inj (Option.some.inj h)
      simp [fpWrite_apply, hwe]
  | false =>
      change (0#32 ++ regRead (intWrite s.regs (intPort s)) rd : BitVec 64) = x
      rw [portWrite, if_neg Bool.false_ne_true] at h
      split_ifs at h with hwe
      obtain ⟨rfl, rfl⟩ := Prod.mk.inj (Option.some.inj h)
      simp [regRead_intWrite, hwe]

/-- In order the ports write what is in WB. -/
theorem portWrite_inOrder (hooo : oooEn s = false) : portWrite fp s =
    if (if fp then s.memWb.ctrl.fpWe else s.memWb.ctrl.regWrite && rdOf s.memWb.instruction != 0#5) then
      some (rdOf s.memWb.instruction, if fp then fpWbDataOf s.memWb s.memWb.instruction s.memWb.ctrl.fmt
        else 0#32 ++ wbDataOf s.memWb)
    else none := by
  cases fp with
  | true => simp [portWrite, fpPort, hooo, fpWbDataWb, finalInstructionWb, finalFmtWb]
  | false => simp [portWrite, intPort, hooo, wbDataWb]

/-- In OoO mode they write what commits. -/
theorem portWrite_commit (hooo : oooEn s = true) (hexc : (commitEntry s).exception = false) : portWrite fp s =
    if commitsReg fp s (commitEntry s).destReg && (fp || (commitEntry s).destReg != 0#5) then
      some ((commitEntry s).destReg, regData fp (commitEntry s).result)
    else none := by
  cases fp with
  | true => simp [portWrite, fpPort, hooo, hexc, commitsReg, regData]
  | false => simp [portWrite, intPort, hooo, hexc, commitsReg, regData]

end Ports

section Writes

/-- An integer register other than `x0` or an FP register is written. -/
def hasDest (c : WbCtrl) (instruction : BitVec 32) : Bool := c.fpWe || (c.regWrite && rdOf instruction != 0#5)

/-- In this cycle the ports write register `rd` of one file and nothing else. -/
def OnlyWrites (s : State) (fp : Bool) (rd : BitVec 5) (x : BitVec 64) : Prop :=
  portWrite fp s = some (rd, x) ∧ portWrite (!fp) s = none

/-- A flush of OoO mode removes the instruction that is in MEM at cycle `t`. -/
def Squashed (r : Nat → State) (t : Nat) : Prop :=
  ∃ f, t ≤ f ∧ (∀ u, t ≤ u → u ≤ f → oooEn (r u) = true) ∧ FlushedAt r (t - 2) f

/-- The instruction in MEM at cycle `t` is on the executed path. -/
def Executes (r : Nat → State) (t : Nat) : Prop := (r t).exMem.ctrl.exception = false ∧ ¬ Squashed r t

/-- In cycle `w` the register ports work for the instruction that is in MEM
at cycle `t`: it is in WB and `ooo_en = 0`, or its entry commits. -/
def Serves (r : Nat → State) (t w : Nat) : Prop :=
  (oooEn (r w) = false ∧ w = t + 1) ∨ (oooEn (r w) = true ∧ oooEn (r t) = true ∧ CommitsAt r (t - 2) w)

/-- The result of the instruction in MEM. -/
def ownResult (s : State) : BitVec 64 := wbValue (memWbIn s.exMem (dmemRdataMem s) (csrRdataMem s))

/-- The instruction in MEM at cycle `t` writes its destination in one cycle,
with its own result, and nothing in another one. -/
def WritesOnce (r : Nat → State) (t : Nat) : Prop :=
  ∃ w, Serves r t w ∧
    OnlyWrites (r w) (r t).exMem.ctrl.fpWe (rdOf (r t).exMem.instruction) (ownResult (r t)) ∧
    regValue (r t).exMem.ctrl.fpWe (r (w + 1)) (rdOf (r t).exMem.instruction) = ownResult (r t) ∧
    ∀ w', Serves r t w' → w' ≠ w → ∀ fp, portWrite fp (r w') = none

/-- The CDB legs of EX and MEM deliver the result of the instruction
dispatched at `n`. -/
structure BusAgrees (r : Nat → State) (o : Nat → OpenNets) (n : Nat) : Prop where
  ex : grantEx (r (n + 1)) = true → (r (n + 1)).idEx.ctrl.fpToInt = true →
    aluResultEx (r (n + 1)) = (fpAluResultEx (r (n + 1))).extractLsb 31 0
  mem : grantMem (r (n + 2)) = true → (r (n + 2)).exMem.ctrl.fpWe = true →
    isSinglePrecisionMem (o (n + 2)) (r (n + 2)) = true → isBoxed (r (n + 2)).exMem.fpAluResult = true

end Writes

section InWb

variable {imem : Imem} {o : OpenNets} {s : State}

variable (imem o) in
/-- Whatever the mode of its MEM cycle, an instruction writes from WB if
`ooo_en = 0` there. -/
theorem onlyWrites_wb (hdest : hasDest s.exMem.ctrl.toWbCtrl s.exMem.instruction = true)
    (hone : s.exMem.ctrl.regWrite = true → s.exMem.ctrl.fpWe = false) (hf : finalFlush s = false)
    (hoff : oooEn (tick imem o s) = false) :
    OnlyWrites (tick imem o s) s.exMem.ctrl.fpWe (rdOf s.exMem.instruction) (ownResult s) := by
  have hmemWb : (tick imem o s).memWb = memWbIn s.exMem (dmemRdataMem s) (csrRdataMem s) := by
    rw [memWb_tick, hf]
    rfl
  have hctrl : (tick imem o s).memWb.ctrl = s.exMem.ctrl.toWbCtrl := by
    rw [hmemWb]
    rfl
  have hinst : (tick imem o s).memWb.instruction = s.exMem.instruction := by
    rw [hmemWb]
    rfl
  have hown : ownResult s = wbValue (tick imem o s).memWb := by rw [ownResult, hmemWb]
  rw [OnlyWrites, portWrite_inOrder hoff, portWrite_inOrder hoff, hown, wbValue, hctrl, hinst]
  cases hfp : s.exMem.ctrl.fpWe with
  | true =>
      have hint : s.exMem.ctrl.regWrite = false := by
        rw [Bool.eq_false_iff]
        intro hw
        rw [hone hw] at hfp
        cases hfp
      simp [hint]
  | false =>
      rw [hasDest, hfp, Bool.false_or] at hdest
      simp [hdest]

end InWb

section AtCommit

variable {imem : Imem} {p : PowerUp} {o : Nat → OpenNets} {N n v : Nat} (hstay : StaysOn imem p o N)
  (hd : dispatchEn (run imem p o n) = true) (hexc : (ctrlId (run imem p o n)).exception = false)

theorem regData_mux (fp : Bool) (a : BitVec 64) (b : BitVec 32) :
    regData fp (if fp then a else 0#32 ++ b) = if fp then a else 0#32 ++ b := by
  cases fp with
  | true => rfl
  | false => exact congrArg (0#32 ++ ·) (low_append b)

include hstay hd hexc

theorem onlyWrites_commit
    (hdest : hasDest (ctrlId (run imem p o n)).toWbCtrl (run imem p o n).ifId.instruction = true) (hv : v ≤ N)
    (hc : CommitsAt (run imem p o) n v) :
    OnlyWrites (run imem p o v) (ctrlId (run imem p o n)).fpWe (rdOf (run imem p o n).ifId.instruction)
      (regData (ctrlId (run imem p o n)).fpWe (commitEntry (run imem p o v)).result) := by
  have hr := oooTrace_run hstay
  have hooo := ooo_after hr hd (Nat.le_of_lt hc.1) hv
  have hquiet : (commitEntry (run imem p o v)).exception = false := by
    rw [commitEntry_of_head hc.2.2.2]
    exact exception_alive hr hd hexc hc.1 hv hc.2.1
  have hreg (fp : Bool) (rs : BitVec 5) : commitsReg fp (run imem p o v) rs =
      writesReg fp (ctrlId (run imem p o n)).toWbCtrl (run imem p o n).ifId.instruction rs :=
    commitsReg_of_commits hstay hd hv hc
  have hone : (ctrlId (run imem p o n)).regWrite = true → (ctrlId (run imem p o n)).fpWe = false := decode_oneFile
  have hrd : (commitEntry (run imem p o v)).destReg = rdOf (run imem p o n).ifId.instruction := by
    have hp := (entry_alive hr hd hc.1 hv hc.2.1).2.1
    rw [commitEntry_of_head hc.2.2.2]
    exact congrArg Payload.destReg hp
  rw [OnlyWrites, portWrite_commit hooo hquiet, portWrite_commit hooo hquiet, hrd, hreg, hreg, writesReg, writesReg]
  cases hfp : (ctrlId (run imem p o n)).fpWe with
  | true =>
      have hint : (ctrlId (run imem p o n)).regWrite = false := by
        rw [Bool.eq_false_iff]
        intro hw
        rw [hone hw] at hfp
        cases hfp
      simp [hint]
  | false =>
      rw [hasDest, hfp, Bool.false_or] at hdest
      simp only [Bool.and_eq_true] at hdest
      simp [hdest.1, hdest.2]

theorem regData_commit (hN : n + 4 ≤ N) (hc : CommitsAt (run imem p o) n v) :
    regData (ctrlId (run imem p o n)).fpWe (commitEntry (run imem p o v)).result =
      (commitEntry (run imem p o v)).result := by
  have hr := oooTrace_run hstay
  have hidEx := (ex_of_dispatch hr hd).2.2
  rcases commit_result hstay hd hexc hN hc with ⟨hg, he⟩ | ⟨hg, he⟩ | ⟨hg, he⟩
  · have hfp : (run imem p o (n + 1)).idEx.ctrl.fpWe = (ctrlId (run imem p o n)).fpWe := by
      rw [hidEx]
      rfl
    rw [he, exCdbData, hfp, regData_mux]
  · have hf1 := finalFlush_of_mem (grantMem_valid hg)
    have hfp : (run imem p o (n + 2)).exMem.ctrl.fpWe = (ctrlId (run imem p o n)).fpWe := by
      rw [(mem_of_dispatch hr hd hf1).2.2.2, hidEx]
      rfl
    rw [he, memCdbData, hfp, regData_mux]
  · have hal := (grantWb_alive hr hd hexc (by omega) hg).1
    have hf1 := (hal (n + 1) (by omega) (by omega)).1
    have hf2 := (hal (n + 2) (by omega) (by omega)).1
    have hfp : (run imem p o (n + 3)).memWb.ctrl.fpWe = (ctrlId (run imem p o n)).fpWe := by
      rw [(wb_of_dispatch hr hd hf1 hf2).2.2.2, (mem_of_dispatch hr hd hf1).2.2.2, hidEx]
      rfl
    rw [he, wbCdbData, hfp, regData_mux]

/-- What commits is the instruction's own result if the bus leg it had is right. -/
theorem commit_own_iff (hwe : ((ctrlId (run imem p o n)).regWrite || (ctrlId (run imem p o n)).fpWe) = true)
    (hN : n + 4 ≤ N) (hc : CommitsAt (run imem p o) n v) :
    (commitEntry (run imem p o v)).result = inOrderResult (run imem p o) n ↔ BusAgrees (run imem p o) o n := by
  have hr := oooTrace_run hstay
  have hmem (hg : grantMem (run imem p o (n + 2)) = true) : grantEx (run imem p o (n + 1)) = false := by
    have hf1 := finalFlush_of_mem (grantMem_valid hg)
    rw [← (mem_of_dispatch hr hd hf1).2.2.1]
    exact grantMem_not_done (hr.trap _) (ooo_after hr hd (by omega) (by omega)) hg
  rcases commit_result hstay hd hexc hN hc with ⟨hg, he⟩ | ⟨hg, he⟩ | ⟨hg, he⟩
  · rw [he, cdbEx_iff hstay hd hexc hwe hg]
    refine ⟨fun h => ⟨fun _ => h, fun hm => ?_⟩, fun h => h.ex hg⟩
    rw [hmem hm] at hg
    cases hg
  · rw [he, cdbMem_iff hstay hd (by omega) hg]
    refine ⟨fun h => ⟨fun hx => ?_, fun _ => h⟩, fun h => h.mem hg⟩
    rw [hmem hg] at hx
    cases hx
  · rw [he]
    refine iff_of_true (cdbWb_eq hstay hd hexc (by omega) hg) ⟨fun hx => ?_, fun hm => ?_⟩
    · rw [(grantWb_alive hr hd hexc (by omega) hg).2.1] at hx
      cases hx
    · rw [(grantWb_alive hr hd hexc (by omega) hg).2.2] at hm
      cases hm

end AtCommit

section Modes

variable {imem : Imem} {p : PowerUp} {o : Nat → OpenNets} {n t : Nat}

theorem commits_unique {r : Nat → State} {v w : Nat} (hv : CommitsAt r n v) (hw : CommitsAt r n w) : v = w := by
  rcases Nat.lt_trichotomy v w with h | h | h
  · exact absurd hv.2.2 (hw.2.1 v h hv.1).2
  · exact h
  · exact absurd hw.2.2 (hv.2.1 w h hw.1).2

theorem ctrl_of_dest (hdest : hasDest (run imem p o t).exMem.ctrl.toWbCtrl (run imem p o t).exMem.instruction = true) :
    (run imem p o t).exMem.ctrl ≠ {} := by
  intro he
  rw [he] at hdest
  cases hdest

theorem oneFile_mem (imem : Imem) (p : PowerUp) (o : Nat → OpenNets) (t : Nat) :
    (run imem p o t).exMem.ctrl.regWrite = true → (run imem p o t).exMem.ctrl.fpWe = false := by
  obtain ⟨fs, rm, hctrl⟩ := (ctrlDecoded_run imem p o t).exMem
  rw [hctrl]
  exact decode_oneFile

/-- In order an instruction writes unless it switches the mode on. -/
theorem writesOnce_inOrder (hooo : oooEn (run imem p o t) = false)
    (hdest : hasDest (run imem p o t).exMem.ctrl.toWbCtrl (run imem p o t).exMem.instruction = true)
    (hexe : Executes (run imem p o) t) :
    WritesOnce (run imem p o) t ↔ oooEn (run imem p o (t + 1)) = false := by
  have hserves {w : Nat} (h : Serves (run imem p o) t w) : oooEn (run imem p o (t + 1)) = false ∧ w = t + 1 := by
    rcases h with ⟨hoff, rfl⟩ | ⟨-, hon, -⟩
    · exact ⟨hoff, rfl⟩
    · rw [hooo] at hon
      cases hon
  constructor
  · rintro ⟨w, hs, -⟩
    exact (hserves hs).1
  · intro hoff
    obtain ⟨fs, rm, hctrl⟩ := (ctrlDecoded_run imem p o t).exMem
    have hmret : (run imem p o t).exMem.ctrl.mretExec = false := by
      rw [Bool.eq_false_iff]
      intro hm
      rw [hctrl] at hm
      obtain ⟨hint, hfp⟩ := decode_mretQuiet hm
      rw [hasDest, hctrl] at hdest
      change ((decode _ fs rm).fpWe || ((decode _ fs rm).regWrite && _)) = true at hdest
      rw [hint, hfp] at hdest
      cases hdest
    have hf : finalFlush (run imem p o t) = false := by
      simp [finalFlush, finalException, finalMretExec, hooo, hexe.1, hmret]
    have hw := onlyWrites_wb imem (o t) hdest (oneFile_mem imem p o t) hf hoff
    refine ⟨t + 1, .inl ⟨hoff, rfl⟩, hw, regValue_portWrite imem (o (t + 1)) hw.1, fun w' hs hne => ?_⟩
    exact absurd (hserves hs).2 hne

/-- The instruction that switches the mode off writes from WB and its entry
never commits. -/
theorem writesOnce_off (hstay : StaysOn imem p o t) (hon : oooEn (run imem p o t) = true)
    (hoff : oooEn (run imem p o (t + 1)) = false)
    (hdest : hasDest (run imem p o t).exMem.ctrl.toWbCtrl (run imem p o t).exMem.instruction = true) :
    WritesOnce (run imem p o) t := by
  have hcsr := csrWrite_of_switch hon hoff
  obtain ⟨-, hhead, -⟩ := csr_alone hstay hon hcsr
  obtain ⟨n, rfl, hd, hf1, -⟩ := csr_dispatch hon hcsr
  have hr := oooTrace_run hstay
  have hw := onlyWrites_wb imem (o (n + 2)) hdest (oneFile_mem imem p o (n + 2)) (finalFlush_of_head hon hhead) hoff
  refine ⟨n + 3, .inl ⟨hoff, rfl⟩, hw, regValue_portWrite imem (o (n + 3)) hw.1, fun w' hs hne => ?_⟩
  exfalso
  rcases hs with ⟨-, rfl⟩ | ⟨-, -, hc⟩
  · exact hne rfl
  · have hexc := exception_of_mem hd (ooo_after hr hd (by omega) (by omega)) hf1
    have hge := commits_ge hr hd hexc (by omega) hc
    have hnot : commitEn (run imem p o w') = false := by
      rcases Nat.eq_or_lt_of_le hge with rfl | hlt
      · exact commitEn_of_head hhead.1
      · exact commitEn_of_head (wedged_run (wedged_of_fall hstay hon hoff) hlt).head.1
    exact Bool.false_ne_true (hnot.symm.trans hc.2.2.1)

/-- Behind an instruction that stays in OoO mode for its next cycle nothing
switches the mode off before it is out of the buffer. -/
theorem staysOn_wb (hstay : StaysOn imem p o (n + 2)) (hd : dispatchEn (run imem p o n) = true)
    (hon : oooEn (run imem p o (n + 3)) = true) : StaysOn imem p o (n + 4) := by
  have hstay3 : StaysOn imem p o (n + 3) := by
    intro u hu honu
    rcases Nat.lt_succ_iff_lt_or_eq.mp hu with hlt | rfl
    · exact hstay u hlt honu
    · exact hon
  intro u hu honu
  rcases Nat.lt_succ_iff_lt_or_eq.mp hu with hlt | rfl
  · exact hstay3 u hlt honu
  · -- a CSR instruction right behind would have met an empty buffer at its dispatch
    by_contra hoff
    obtain ⟨m, hm, -, -, -, hempty⟩ := csr_dispatch hon (csrWrite_of_switch hon (Bool.eq_false_iff.mpr hoff))
    obtain rfl : m = n + 1 := by omega
    have hr := oooTrace_run hstay3
    obtain ⟨k, hk, -⟩ := (hr.inv (n + 1) (by omega)).ex (ex_of_dispatch hr hd).1
    have hzero : occ (run imem p o (n + 1)) = 0 := count_of_robEmpty (hr.trap (n + 1)).wf hempty
    omega

/-- In OoO mode an instruction writes when it commits. -/
theorem writesOnce_ooo (hstay : StaysOn imem p o (n + 2)) (hd : dispatchEn (run imem p o n) = true)
    (hf1 : finalFlush (run imem p o (n + 1)) = false) (hon : oooEn (run imem p o (n + 3)) = true)
    (hdest : hasDest (run imem p o (n + 2)).exMem.ctrl.toWbCtrl (run imem p o (n + 2)).exMem.instruction = true)
    (hexe : Executes (run imem p o) (n + 2)) :
    WritesOnce (run imem p o) (n + 2) ↔ BusAgrees (run imem p o) o n := by
  have hstay4 := staysOn_wb hstay hd hon
  have hr := oooTrace_run hstay4
  have hon2 := ooo_after hr hd (t := n + 2) (by omega) (by omega)
  have hexc := exception_of_mem hd (ooo_after hr hd (by omega) (by omega)) hf1
  have hexMem := (mem_of_dispatch hr hd hf1).2.2.2
  rw [(ex_of_dispatch hr hd).2.2] at hexMem
  have hfp : (run imem p o (n + 2)).exMem.ctrl.fpWe = (ctrlId (run imem p o n)).fpWe := by rw [hexMem]; rfl
  have hinst : (run imem p o (n + 2)).exMem.instruction = (run imem p o n).ifId.instruction := by rw [hexMem]; rfl
  have hdest' : hasDest (ctrlId (run imem p o n)).toWbCtrl (run imem p o n).ifId.instruction = true := by
    rw [hexMem] at hdest
    exact hdest
  have hwe : ((ctrlId (run imem p o n)).regWrite || (ctrlId (run imem p o n)).fpWe) = true := by
    simp only [hasDest, Bool.or_eq_true, Bool.and_eq_true] at hdest'
    rw [Bool.or_eq_true]
    exact hdest'.symm.imp_left And.left
  have hown : ownResult (run imem p o (n + 2)) = inOrderResult (run imem p o) n :=
    (inOrderResult_mem hstay4 hd hf1).symm
  obtain ⟨v, hv, hc⟩ : ∃ v ≤ n + 4, CommitsAt (run imem p o) n v := by
    obtain ⟨v, hv, hc | hfl⟩ := fate hr hd (Nat.le_refl _)
    · exact ⟨v, hv, hc⟩
    · have hge : n + 2 ≤ v := by
        by_contra hlt
        obtain rfl : v = n + 1 := by have := hfl.1; omega
        exact Bool.false_ne_true (hf1.symm.trans hfl.2.2.1)
      exact absurd ⟨v, hge, fun u hu huv => on_of_le hr hu (by omega) hon2, hfl⟩ hexe.2
  have hw := onlyWrites_commit hstay4 hd hexc hdest' hv hc
  rw [regData_commit hstay4 hd hexc (Nat.le_refl _) hc] at hw
  have hserves {w : Nat} (h : Serves (run imem p o) (n + 2) w) : w = v := by
    rcases h with ⟨hoff, rfl⟩ | ⟨-, -, hcw⟩
    · rw [hon] at hoff
      cases hoff
    · exact commits_unique hcw hc
  rw [← commit_own_iff hstay4 hd hexc hwe (Nat.le_refl _) hc, ← hown]
  constructor
  · rintro ⟨w, hs, hww, -⟩
    obtain rfl := hserves hs
    have hport := hww.1
    rw [hfp, hinst, hw.1] at hport
    exact (Prod.mk.inj (Option.some.inj hport)).2
  · intro he
    rw [he, ← hfp, ← hinst] at hw
    refine ⟨v, .inr ⟨ooo_after hr hd (Nat.le_of_lt hc.1) hv, hon2, hc⟩, hw, ?_, fun w' hs hne => ?_⟩
    · exact regValue_portWrite imem (o v) hw.1
    · exact absurd (hserves hs) hne

/-- Once the mode was switched off, an instruction of a later OoO phase never
writes: nothing commits any more. -/
theorem not_writesOnce_wedged (hno : ¬ StaysOn imem p o (n + 2)) (hd : dispatchEn (run imem p o n) = true)
    (hon : oooEn (run imem p o (n + 2)) = true) : ¬ WritesOnce (run imem p o) (n + 2) := by
  obtain ⟨b, hb, hstay, honb, hoffb⟩ := exists_fall hno
  -- nothing is dispatched in the cycle of the switch, so the instruction came later
  have hbn : b < n := by
    rcases (by omega : b < n ∨ b = n ∨ b = n + 1) with h | rfl | rfl
    · exact h
    · rw [dispatchEn_of_csrWriteMem (csrWrite_of_switch honb hoffb)] at hd
      cases hd
    · rw [hon] at hoffb
      cases hoffb
  have hw : Wedged (run imem p o n) := wedged_run (wedged_of_fall hstay honb hoffb) hbn
  rintro ⟨w, hs, -⟩
  rcases hs with ⟨hoff, rfl⟩ | ⟨-, -, hc⟩
  · obtain ⟨m, hm, -, -, -, hempty⟩ := csr_dispatch hon (csrWrite_of_switch hon hoff)
    obtain rfl : n = m := by omega
    have hzero : occ (run imem p o n) = 0 := count_of_robEmpty (trapInv_run imem p o n).wf hempty
    have hpos := hw.occupied
    omega
  · have hnot := commitEn_of_head (wedged_run hw (Nat.le_of_lt hc.1)).head.1
    exact Bool.false_ne_true (hnot.symm.trans hc.2.2.1)

end Modes

/-- `ooo_en` after the CSR access of the instruction in MEM. -/
def oooEnNext (s : State) : Bool := (CsrFile.csrTick s.csr (csrIn s)).moooctrlOooEn

/-- What the write of the instruction in MEM at cycle `t` depends on. In
order the instruction must not switch the mode on. In OoO mode the mode must
not have been switched off before, and unless the instruction itself does
that now, the CDB must deliver its result. -/
structure WriteSafe (imem : Imem) (p : PowerUp) (o : Nat → OpenNets) (t : Nat) : Prop where
  inOrder : oooEn (run imem p o t) = false → oooEnNext (run imem p o t) = false
  first : oooEn (run imem p o t) = true → StaysOn imem p o t
  bus : oooEn (run imem p o t) = true → oooEnNext (run imem p o t) = true → BusAgrees (run imem p o) o (t - 2)

/-- `addi x5, x0, 7`, then `csrrwi x5, 0x7C0, 1` switches the mode on. -/
def switchImage : Imem := imageOf [0x00700293#32, 0x7C00D2F3#32]

end VMate.OooSwitchWrite
