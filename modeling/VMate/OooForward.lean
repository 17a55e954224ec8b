import VMate.OooOrder
import VMate.OooSerial

namespace VMate.OooForward

open Decode Pipe Hazard RegFile RiscvTop DecodeFacts StageCtrl RobFifo OooTrap OooWindow OooTimeline OooComplete
  OooSerial OooOrder

section Muxes

/-- The four inputs of an operand multiplexer. -/
inductive Leg where
  | mem
  | wb
  | commit
  | regFile
  deriving DecidableEq, Repr

/-- A source register of the instruction in EX, with the data latched for it
in ID and the operand that EX computes with. Integers are zero-extended. -/
structure Source where
  reg : BitVec 5
  latched : BitVec 64
  operand : BitVec 64
  deriving DecidableEq, Repr

/-- The integer or the FP sources of the instruction in EX. -/
def sources (fp : Bool) (s : State) : List Source :=
  if fp then
    [⟨rs1Of s.idEx.instruction, s.idEx.fpRs1Data, (operandsEx s).fpRs1⟩,
      ⟨rs2Of s.idEx.instruction, s.idEx.fpRs2Data, (operandsEx s).fpRs2⟩,
      ⟨rs3Of s.idEx.instruction, s.idEx.fpRs3Data, (operandsEx s).fpRs3⟩]
  else
    [⟨rs1Of s.idEx.instruction, 0#32 ++ s.idEx.rs1Data, 0#32 ++ (operandsEx s).rs1⟩,
      ⟨rs2Of s.idEx.instruction, 0#32 ++ s.idEx.rs2Data, 0#32 ++ (operandsEx s).rs2⟩]

def forwardSel (fp : Bool) (s : State) (rs : BitVec 5) : BitVec 2 :=
  if fp then
    forwardFp rs (rdOf s.exMem.instruction) s.exMem.ctrl.fpWe (rdOf s.memWb.instruction) s.memWb.ctrl.fpWe
  else
    forwardInt rs (rdOf s.exMem.instruction) s.exMem.ctrl.regWrite (rdOf s.memWb.instruction) s.memWb.ctrl.regWrite

def commitMatch (fp : Bool) (s : State) (rs : BitVec 5) : Bool :=
  if fp then commitFwdMatchFp s rs else commitFwdMatch s rs

/-- The leg that the multiplexer for register `rs` passes on. -/
def legOf (fp : Bool) (s : State) (rs : BitVec 5) : Leg :=
  if forwardSel fp s rs = 0b10#2 then .mem
  else if forwardSel fp s rs = 0b01#2 then .wb
  else if commitMatch fp s rs then .commit
  else .regFile

/-- An entry's result as a register of its file takes it. -/
def regData (fp : Bool) (result : BitVec 64) : BitVec 64 :=
  if fp then result else 0#32 ++ result.extractLsb 31 0

def legData (fp : Bool) (s : State) (latched : BitVec 64) : Leg → BitVec 64
  | .mem => if fp then s.exMem.fpAluResult else 0#32 ++ forwardDataMem s
  | .wb => if fp then fpWbDataWb s else 0#32 ++ wbDataWb s
  | .commit => regData fp (commitEntry s).result
  | .regFile => latched

variable {fp : Bool} {s : State} {rs : BitVec 5} {q : Source}

theorem forwardedInt_leg (data : BitVec 32) :
    0#32 ++ forwardedInt s (forwardSel false s rs) rs data = legData false s (0#32 ++ data) (legOf false s rs) := by
  simp only [forwardedInt, legOf, commitMatch, Bool.false_eq_true, if_false]
  split_ifs <;> rfl

theorem forwardedFp_leg (data : BitVec 64) :
    forwardedFp s (forwardSel true s rs) rs data = legData true s data (legOf true s rs) := by
  simp only [forwardedFp, legOf, commitMatch, if_true]
  split_ifs <;> rfl

theorem operand_leg (hq : q ∈ sources fp s) : q.operand = legData fp s q.latched (legOf fp s q.reg) := by
  cases fp with
  | false =>
      simp only [sources, Bool.false_eq_true, if_false, List.mem_cons, List.not_mem_nil, or_false] at hq
      rcases hq with rfl | rfl
      · exact forwardedInt_leg _
      · exact forwardedInt_leg _
  | true =>
      simp only [sources, if_true, List.mem_cons, List.not_mem_nil, or_false] at hq
      rcases hq with rfl | rfl | rfl
      · exact forwardedFp_leg _
      · exact forwardedFp_leg _
      · exact forwardedFp_leg _

/-- An instruction with these controls writes register `rs`. -/
def writesReg (fp : Bool) (c : WbCtrl) (i : BitVec 32) (rs : BitVec 5) : Bool :=
  (if fp then c.fpWe else c.regWrite) && rdOf i == rs

/-- Registers other than `x0`. -/
def Named (fp : Bool) (rs : BitVec 5) : Prop := fp = true ∨ rs ≠ 0#5

theorem legOf_eq (hrs : Named fp rs) : legOf fp s rs =
    if writesReg fp s.exMem.ctrl.toWbCtrl s.exMem.instruction rs then .mem
    else if writesReg fp s.memWb.ctrl s.memWb.instruction rs then .wb
    else if commitMatch fp s rs then .commit
    else .regFile := by
  cases fp with
  | true =>
      simp only [legOf, forwardSel, forwardFp, writesReg, if_true]
      cases s.exMem.ctrl.fpWe && rdOf s.exMem.instruction == rs <;>
        cases s.memWb.ctrl.fpWe && rdOf s.memWb.instruction == rs <;> rfl
  | false =>
      have hne : rs ≠ 0#5 := hrs.resolve_left Bool.false_ne_true
      have hrd (we : Bool) (rd : BitVec 5) : (we && rd != 0#5 && rd == rs) = (we && rd == rs) := by
        by_cases h : rd = rs
        · simp [h, hne]
        · rw [beq_eq_false_iff_ne.mpr h, Bool.and_false, Bool.and_false]
      simp only [legOf, forwardSel, forwardInt, writesReg, Bool.false_eq_true, if_false, hrd]
      cases s.exMem.ctrl.regWrite && rdOf s.exMem.instruction == rs <;>
        cases s.memWb.ctrl.regWrite && rdOf s.memWb.instruction == rs <;> rfl

theorem writesReg_of_leg_mem (hrs : Named fp rs) (h : legOf fp s rs = .mem) :
    writesReg fp s.exMem.ctrl.toWbCtrl s.exMem.instruction rs = true := by
  rw [legOf_eq hrs] at h
  split_ifs at h with hw
  exact hw

theorem writesReg_of_leg_wb (hrs : Named fp rs) (h : legOf fp s rs = .wb) :
    writesReg fp s.memWb.ctrl s.memWb.instruction rs = true := by
  rw [legOf_eq hrs] at h
  split_ifs at h with hw hw'
  exact hw'

end Muxes

section Producer

/-- The instruction in ID writes register `rs`. -/
def writes (fp : Bool) (s : State) (rs : BitVec 5) : Bool :=
  !(ctrlId s).exception && writesReg fp (ctrlId s).toWbCtrl s.ifId.instruction rs

/-- The instruction dispatched at `n` is the youngest that writes `rs` and is
older than the one dispatched at `c`. Flushed instructions do not count. -/
structure Producer (r : Nat → State) (n c : Nat) (fp : Bool) (rs : BitVec 5) : Prop where
  older : n < c
  dispatched : dispatchEn (r n) = true
  writes : writes fp (r n) rs = true
  live : ∀ f ≤ c, ¬ FlushedAt r n f
  youngest : ∀ m, n < m → m < c → dispatchEn (r m) = true → OooForward.writes fp (r m) rs = true →
    ∃ f ≤ c, FlushedAt r m f

/-- Where the instruction dispatched at `n` is when the one dispatched at `c`
is in EX, so that it supplies a leg of the consumer's multiplexers. -/
inductive Supplies (r : Nat → State) (n c : Nat) (fp : Bool) (latched : BitVec 64) : Leg → Prop where
  | mem : c = n + 1 → (r (c + 1)).track.validMem = true → (r (c + 1)).track.robIdxMem = robIdxDisp (r n) →
      (fp = true → (r (c + 1)).exMem.ctrl.fpMemRead = false) → Supplies r n c fp latched .mem
  | wb : c = n + 2 → (r (c + 1)).track.validWb = true → (r (c + 1)).track.robIdxWb = robIdxDisp (r n) →
      Supplies r n c fp latched .wb
  | commit : CommitsAt r n (c + 1) → Supplies r n c fp latched .commit
  | regFile (v : Nat) : v ≤ c → CommitsAt r n v → latched = regData fp (commitEntry (r v)).result →
      Supplies r n c fp latched .regFile

end Producer

section CommitPort

/-- The entry at the head commits a write of register `rs`. -/
def commitsReg (fp : Bool) (s : State) (rs : BitVec 5) : Bool :=
  commitEn s && commitRegWrite s && (commitEntry s).destType == fp && (commitEntry s).destReg == rs

def regValue (fp : Bool) (s : State) (rs : BitVec 5) : BitVec 64 :=
  if fp then s.fpr rs else 0#32 ++ regRead s.regs rs

variable {imem : Imem} {o : OpenNets} {s : State} {fp : Bool} {rs : BitVec 5} {q : Source}

theorem commitMatch_eq (hooo : oooEn s = true) (hrs : Named fp rs) : commitMatch fp s rs = commitsReg fp s rs := by
  cases fp with
  | true => simp [commitMatch, commitFwdMatchFp, commitsReg, hooo]
  | false =>
      have hne : rs ≠ 0#5 := hrs.resolve_left Bool.false_ne_true
      simp only [commitMatch, commitFwdMatch, commitsReg, hooo, Bool.true_and, Bool.false_eq_true, if_false, beq_false]
      by_cases h : (commitEntry s).destReg = rs
      · simp [h, hne]
      · simp [h]

theorem regValue_tick (hooo : oooEn s = true) (hrs : Named fp rs) : regValue fp (tick imem o s) rs =
    if commitsReg fp s rs && !(commitEntry s).exception then regData fp (commitEntry s).result
    else regValue fp s rs := by
  cases fp with
  | true =>
      change fpWrite s.fpr (fpPort s) rs = _
      rw [fpWrite_apply]
      have hwe : ((fpPort s).we && (fpPort s).rdAddr == rs) = (commitsReg true s rs && !(commitEntry s).exception) := by
        simp only [fpPort, commitsReg, hooo, if_true, beq_true]
        exact Bool.and_right_comm _ _ _
      rw [hwe]
      simp [fpPort, regData, regValue, hooo]
  | false =>
      have hne : rs ≠ 0#5 := hrs.resolve_left Bool.false_ne_true
      change (0#32 ++ regRead (intWrite s.regs (intPort s)) rs : BitVec 64) = _
      rw [regRead_intWrite]
      have hwe : ((intPort s).we && (intPort s).rdAddr != 0#5 && (intPort s).rdAddr == rs) =
          (commitsReg false s rs && !(commitEntry s).exception) := by
        simp only [intPort, commitsReg, hooo, if_true, beq_false]
        by_cases h : (commitEntry s).destReg = rs
        · simp [h, hne]
        · rw [beq_eq_false_iff_ne.mpr h, Bool.and_false, Bool.and_false, Bool.false_and]
      rw [hwe]
      split_ifs <;> simp [intPort, regData, regValue, hooo]

/-- ID reads the registers as they are one cycle later. -/
theorem latched_eq (hd : dispatchEn s = true) (hq : q ∈ sources fp (tick imem o s)) :
    q.latched = regValue fp (tick imem o s) q.reg := by
  rw [sources, idEx_dispatched hd] at hq
  cases fp with
  | true =>
      simp only [if_true, List.mem_cons, List.not_mem_nil, or_false] at hq
      rcases hq with rfl | rfl | rfl
      · exact fpRead_eq _ _ _
      · exact fpRead_eq _ _ _
      · exact fpRead_eq _ _ _
  | false =>
      simp only [Bool.false_eq_true, if_false, List.mem_cons, List.not_mem_nil, or_false] at hq
      rcases hq with rfl | rfl
      · exact congrArg (0#32 ++ ·) (intRead_eq _ _ _)
      · exact congrArg (0#32 ++ ·) (intRead_eq _ _ _)

/-- An FP load is never in EX when an instruction that names its register is dispatched. -/
theorem fpMemRead_of_source (hd : dispatchEn s = true) (hq : q ∈ sources true (tick imem o s))
    (hrd : rdOf s.idEx.instruction = q.reg) : s.idEx.ctrl.fpMemRead = false := by
  rw [Bool.eq_false_iff]
  intro hload
  have hhaz : fpLoadUse (hazardIn s) = true := by
    rw [sources, idEx_dispatched hd] at hq
    simp only [if_true, List.mem_cons, List.not_mem_nil, or_false] at hq
    rcases hq with rfl | rfl | rfl <;> simp [fpLoadUse, hazardIn, hload, hrd, idExIn]
  have hflush : (hazard s).flushIdEx = true := by
    rw [hazard, hazardUnit_flushIdEx]
    simp [hhaz]
  rw [(dispatchEn_spec hd).2.2.1] at hflush
  cases hflush

end CommitPort

section Gap

variable {imem : Imem} {p : PowerUp} {o : Nat → OpenNets} {N n c : Nat} {fp : Bool} {rs : BitVec 5}
  (hstay : StaysOn imem p o N)

include hstay

theorem mem_writer {u : Nat} (hu : u ≤ N) (hooo : oooEn (run imem p o u) = true)
    (hw : writesReg fp (run imem p o u).exMem.ctrl.toWbCtrl (run imem p o u).exMem.instruction rs = true) :
    ∃ m, u = m + 2 ∧ dispatchEn (run imem p o m) = true ∧ finalFlush (run imem p o (m + 1)) = false ∧
      writes fp (run imem p o m) rs = true := by
  have hr := oooTrace_run hstay
  have hv := validMem_of_ctrl hooo fun he => by
    rw [he] at hw
    cases fp <;> cases hw
  obtain ⟨m, rfl, hd, hf1⟩ := dispatch_of_mem hv
  have hexc := exception_of_mem hd (ooo_after hr hd (by omega) (by omega)) hf1
  obtain ⟨-, -, -, hexMem⟩ := mem_of_dispatch hr hd hf1
  rw [hexMem, (ex_of_dispatch hr hd).2.2] at hw
  refine ⟨m, rfl, hd, hf1, ?_⟩
  rw [writes, hexc]
  exact hw

theorem wb_writer {u : Nat} (hu : u ≤ N) (hooo : oooEn (run imem p o u) = true)
    (hex : (run imem p o u).track.validEx = true)
    (hw : writesReg fp (run imem p o u).memWb.ctrl (run imem p o u).memWb.instruction rs = true) :
    ∃ m, u = m + 3 ∧ dispatchEn (run imem p o m) = true ∧ finalFlush (run imem p o (m + 1)) = false ∧
      finalFlush (run imem p o (m + 2)) = false ∧ writes fp (run imem p o m) rs = true := by
  have hr := oooTrace_run hstay
  have hv : (run imem p o u).track.validWb = true := by
    by_contra hv
    rw [((bubbles_run imem p o u).wb hooo (Bool.eq_false_iff.mpr hv) hex).2] at hw
    cases fp <;> cases hw
  obtain ⟨m, rfl, hd, hf1, hf2⟩ := dispatch_of_wb hv
  have hexc := exception_of_mem hd (ooo_after hr hd (by omega) (by omega)) hf1
  obtain ⟨-, -, -, hmemWb⟩ := wb_of_dispatch hr hd hf1 hf2
  rw [hmemWb, (mem_of_dispatch hr hd hf1).2.2.2, (ex_of_dispatch hr hd).2.2] at hw
  refine ⟨m, rfl, hd, hf1, hf2, ?_⟩
  rw [writes, hexc]
  exact hw

/-- What an instruction writes at commit is what it was dispatched to write. -/
theorem commitsReg_of_commits (hd : dispatchEn (run imem p o n) = true) {v : Nat} (hv : v ≤ N)
    (hc : CommitsAt (run imem p o) n v) :
    commitsReg fp (run imem p o v) rs =
      writesReg fp (ctrlId (run imem p o n)).toWbCtrl (run imem p o n).ifId.instruction rs := by
  obtain ⟨hnv, hal, hce, hhead⟩ := hc
  obtain ⟨-, hp, hwe⟩ := entry_alive (oooTrace_run hstay) hd hnv hv hal
  have hreg := congrArg Payload.destReg hp
  have htype := congrArg Payload.destType hp
  rw [← hhead] at hreg htype hwe
  have hreg' : (commitEntry (run imem p o v)).destReg = rdOf (run imem p o n).ifId.instruction := hreg
  have htype' : (commitEntry (run imem p o v)).destType = (ctrlId (run imem p o n)).fpWe := htype
  have hone : (ctrlId (run imem p o n)).regWrite = true → (ctrlId (run imem p o n)).fpWe = false := decode_oneFile
  rw [commitsReg, writesReg, hce, commitRegWrite, hwe, hreg', htype']
  revert hone
  cases fp <;> cases (ctrlId (run imem p o n)).regWrite <;> cases (ctrlId (run imem p o n)).fpWe <;> simp

theorem commit_writer {v : Nat} (hv : v ≤ N) (hw : commitsReg fp (run imem p o v) rs = true) :
    ∃ m, dispatchEn (run imem p o m) = true ∧ CommitsAt (run imem p o) m v ∧
      writesReg fp (ctrlId (run imem p o m)).toWbCtrl (run imem p o m).ifId.instruction rs = true := by
  have hce : commitEn (run imem p o v) = true := by
    simp only [commitsReg, Bool.and_eq_true] at hw
    exact hw.1.1.1
  obtain ⟨m, hd, hc⟩ := owner_of_commit (oooTrace_run hstay) rfl hv hce
  exact ⟨m, hd, hc, (commitsReg_of_commits hstay hd hv hc).symm.trans hw⟩

/-- After the producer has committed, nothing older than the consumer commits
a write of the register, except that an instruction that traps asks for it in vain. -/
theorem traps_of_commitsReg (hp : Producer (run imem p o) n c fp rs) (hd : dispatchEn (run imem p o c) = true)
    (hexc : (ctrlId (run imem p o c)).exception = false) (hN : c + 1 ≤ N) {v w : Nat}
    (hc : CommitsAt (run imem p o) n v) (hvw : v < w) (hwc : w ≤ c + 1)
    (hw : commitsReg fp (run imem p o w) rs = true) :
    w ≤ c ∧ (commitEntry (run imem p o w)).exception = true := by
  have hr := oooTrace_run hstay
  obtain ⟨m, hdm, hcm, hwm⟩ := commit_writer hstay (by omega) hw
  have hnm := commits_in_order hr hdm hp.dispatched hc hcm hvw (by omega)
  have hmw := hcm.1
  have hmc : m < c := by
    by_contra hle
    obtain rfl : m = c := by omega
    obtain rfl : w = m + 1 := by omega
    exact not_commits_ex hr hd hexc hN hcm.2.2
  cases hexcm : (ctrlId (run imem p o m)).exception with
  | false =>
      obtain ⟨f, hf, hfl⟩ := hp.youngest m hnm hmc hdm (by rw [writes, hexcm]; exact hwm)
      exact absurd hfl fun h => not_flushed_of_commits hcm h
  | true =>
      have hw1 : w = m + 1 := by
        by_contra hne
        have hf1 := (hcm.2.1 (m + 1) (by omega) (by omega)).1
        rw [exception_of_mem hdm (ooo_after hr hdm (by omega) (by omega)) hf1] at hexcm
        cases hexcm
      subst hw1
      refine ⟨hmc, ?_⟩
      rw [commitEntry_of_head hcm.2.2.2]
      exact (dispatched_tick imem (o m) (hr.trap m).wf hdm).2.1.trans hexcm

/-- The register keeps what the producer committed until the consumer is in EX. -/
theorem regValue_held (hrs : Named fp rs) (hp : Producer (run imem p o) n c fp rs)
    (hd : dispatchEn (run imem p o c) = true) (hexc : (ctrlId (run imem p o c)).exception = false) (hN : c + 1 ≤ N)
    {v w : Nat} (hc : CommitsAt (run imem p o) n v) (hvw : v < w) (hwc : w ≤ c + 1) :
    regValue fp (run imem p o w) rs = regData fp (commitEntry (run imem p o v)).result := by
  have hr := oooTrace_run hstay
  have hnv := hc.1
  have hwrites := hp.writes
  rw [writes, Bool.and_eq_true, Bool.not_eq_true'] at hwrites
  induction w, hvw using Nat.le_induction with
  | base =>
      have hexn : (commitEntry (run imem p o v)).exception = false := by
        rw [commitEntry_of_head hc.2.2.2]
        exact exception_alive hr hp.dispatched hwrites.1 hnv (by omega) hc.2.1
      rw [Nat.succ_eq_add_one, run, regValue_tick (ooo_after hr hp.dispatched (by omega) (by omega)) hrs,
        commitsReg_of_commits hstay hp.dispatched (by omega) hc, hwrites.2, hexn]
      rfl
  | succ w hvw ih =>
      rw [run, regValue_tick (ooo_after hr hp.dispatched (by omega) (by omega)) hrs, if_neg, ih (by omega)]
      intro hw
      rw [Bool.and_eq_true, Bool.not_eq_true'] at hw
      have htrap := (traps_of_commitsReg hstay hp hd hexc hN hc (by omega) (by omega) hw.1).2
      rw [hw.2] at htrap
      cases htrap

/-- A producer that was dispatched at least three cycles before the consumer
commits no later than the consumer is in EX. -/
theorem commits_before (hp : Producer (run imem p o) n c fp rs) (hnc : n + 3 ≤ c) (hN : c + 1 ≤ N) :
    ∃ v ≤ c + 1, CommitsAt (run imem p o) n v := by
  have hr := oooTrace_run hstay
  obtain ⟨v, hv, hc | hfl⟩ := fate hr hp.dispatched (by omega)
  · exact ⟨v, by omega, hc⟩
  · rcases Nat.lt_or_ge c v with hlt | hle
    · obtain rfl : v = n + 4 := by omega
      exact ⟨n + 4, by omega, last_commit hr hp.dispatched (by omega) hfl.2.1⟩
    · exact absurd hfl (hp.live v hle)

/-- Neither MEM nor WB holds a younger writer of the register than the producer. -/
theorem no_stage_writer (hp : Producer (run imem p o) n c fp rs) (hd : dispatchEn (run imem p o c) = true)
    (hN : c + 1 ≤ N) :
    (n + 2 ≤ c → writesReg fp (run imem p o (c + 1)).exMem.ctrl.toWbCtrl (run imem p o (c + 1)).exMem.instruction rs
      = false) ∧
    (n + 3 ≤ c → writesReg fp (run imem p o (c + 1)).memWb.ctrl (run imem p o (c + 1)).memWb.instruction rs
      = false) := by
  have hr := oooTrace_run hstay
  have hooo := ooo_after hr hd (t := c + 1) (by omega) hN
  refine ⟨fun hnc => ?_, fun hnc => ?_⟩
  · rw [Bool.eq_false_iff]
    intro hw
    obtain ⟨m, hm, hdm, hf1, hwm⟩ := mem_writer hstay hN hooo hw
    obtain ⟨f, hf, hmf, -, hflush, -⟩ := hp.youngest m (by omega) (by omega) hdm hwm
    obtain rfl : f = m + 1 := by omega
    rw [hf1] at hflush
    cases hflush
  · rw [Bool.eq_false_iff]
    intro hw
    obtain ⟨m, hm, hdm, hf1, hf2, hwm⟩ := wb_writer hstay hN hooo (ex_of_dispatch hr hd).1 hw
    obtain ⟨f, hf, hmf, -, hflush, -⟩ := hp.youngest m (by omega) (by omega) hdm hwm
    obtain rfl | rfl : f = m + 1 ∨ f = m + 2 := by omega
    · rw [hf1] at hflush
      cases hflush
    · rw [hf2] at hflush
      cases hflush

/-- The producer has not been flushed in EX. -/
theorem finalFlush_producer (hp : Producer (run imem p o) n c fp rs) (hN : c + 1 ≤ N) :
    finalFlush (run imem p o (n + 1)) = false := by
  have hr := oooTrace_run hstay
  have hnc := hp.older
  have hwrites := hp.writes
  rw [writes, Bool.and_eq_true, Bool.not_eq_true'] at hwrites
  rw [Bool.eq_false_iff]
  intro hf
  exact hp.live (n + 1) (by omega)
    ⟨by omega, alive_next, hf, not_commits_ex hr hp.dispatched hwrites.1 (by omega)⟩

theorem supplies_mem {q : Source} (hp : Producer (run imem p o) n c fp q.reg) (hd : dispatchEn (run imem p o c) = true)
    (hq : q ∈ sources fp (run imem p o (c + 1))) (hN : c + 1 ≤ N) (hnc : c = n + 1) :
    writesReg fp (run imem p o (c + 1)).exMem.ctrl.toWbCtrl (run imem p o (c + 1)).exMem.instruction q.reg = true ∧
      Supplies (run imem p o) n c fp q.latched .mem := by
  have hr := oooTrace_run hstay
  subst hnc
  have hf1 := finalFlush_producer hstay hp hN
  obtain ⟨hv, hidx, -, hexMem⟩ := mem_of_dispatch hr hp.dispatched hf1
  have hidEx := (ex_of_dispatch hr hp.dispatched).2.2
  have hwrites := hp.writes
  rw [writes, Bool.and_eq_true] at hwrites
  have hw : writesReg fp (run imem p o (n + 1)).idEx.ctrl.toWbCtrl (run imem p o (n + 1)).idEx.instruction q.reg
      = true := by
    rw [hidEx]
    exact hwrites.2
  rw [hexMem]
  refine ⟨hw, .mem rfl hv hidx fun hfp => ?_⟩
  rw [hexMem]
  subst hfp
  rw [writesReg, Bool.and_eq_true, beq_iff_eq] at hw
  exact fpMemRead_of_source hd hq hw.2

theorem supplies_wb {latched : BitVec 64} (hp : Producer (run imem p o) n c fp rs)
    (hd : dispatchEn (run imem p o c) = true) (hN : c + 1 ≤ N) (hnc : c = n + 2) :
    writesReg fp (run imem p o (c + 1)).memWb.ctrl (run imem p o (c + 1)).memWb.instruction rs = true ∧
      Supplies (run imem p o) n c fp latched .wb := by
  have hr := oooTrace_run hstay
  subst hnc
  have hf1 := finalFlush_producer hstay hp hN
  obtain ⟨hv, hidx, -, hmemWb⟩ := wb_of_dispatch hr hp.dispatched hf1 (dispatchEn_spec hd).2.1
  have hwrites := hp.writes
  rw [writes, Bool.and_eq_true] at hwrites
  refine ⟨?_, .wb rfl hv hidx⟩
  rw [hmemWb, (mem_of_dispatch hr hp.dispatched hf1).2.2.2, (ex_of_dispatch hr hp.dispatched).2.2]
  exact hwrites.2

theorem supplies_leg {q : Source} (hN : c + 1 ≤ N) (hd : dispatchEn (run imem p o c) = true)
    (hexc : (ctrlId (run imem p o c)).exception = false) (hq : q ∈ sources fp (run imem p o (c + 1)))
    (hrs : Named fp q.reg) (hp : Producer (run imem p o) n c fp q.reg) :
    Supplies (run imem p o) n c fp q.latched (legOf fp (run imem p o (c + 1)) q.reg) := by
  have hr := oooTrace_run hstay
  have hnc := hp.older
  have hooo := ooo_after hr hd (t := c + 1) (by omega) hN
  obtain ⟨hmem, hwb⟩ := no_stage_writer hstay hp hd hN
  rw [legOf_eq hrs]
  obtain hnc1 | hnc2 | hnc3 : c = n + 1 ∨ c = n + 2 ∨ n + 3 ≤ c := by omega
  · obtain ⟨hw, hsup⟩ := supplies_mem hstay hp hd hq hN hnc1
    rw [if_pos hw]
    exact hsup
  · obtain ⟨hw, hsup⟩ := supplies_wb hstay hp hd hN hnc2
    rw [hmem (by omega), if_neg Bool.false_ne_true, if_pos hw]
    exact hsup
  · rw [hmem (by omega), hwb hnc3, if_neg Bool.false_ne_true, if_neg Bool.false_ne_true, commitMatch_eq hooo hrs]
    obtain ⟨v, hv, hc⟩ := commits_before hstay hp hnc3 hN
    have hwrites := hp.writes
    rw [writes, Bool.and_eq_true] at hwrites
    rcases Nat.lt_or_eq_of_le hv with hlt | rfl
    · have hno : commitsReg fp (run imem p o (c + 1)) q.reg = false := by
        rw [Bool.eq_false_iff]
        intro hw
        have := (traps_of_commitsReg hstay hp hd hexc hN hc hlt (Nat.le_refl _) hw).1
        omega
      rw [hno, if_neg Bool.false_ne_true]
      have hheld := regValue_held hstay hrs hp hd hexc hN hc hlt (Nat.le_refl (c + 1))
      exact .regFile v (by omega) hc ((latched_eq hd hq).trans hheld)
    · rw [commitsReg_of_commits hstay hp.dispatched hN hc, if_pos hwrites.2]
      exact .commit hc

end Gap

/-- In OoO mode the operand of an instruction in EX comes from the youngest
older instruction that writes the register. The consumer is dispatched at
`c`, so it is in EX one cycle later; one that traps reads nothing. -/
theorem no_forwarding_gap (imem : Imem) (p : PowerUp) (o : Nat → OpenNets) (n c : Nat) (fp : Bool) (q : Source)
    (hstay : StaysOn imem p o (c + 1)) (hd : dispatchEn (run imem p o c) = true)
    (hexc : (ctrlId (run imem p o c)).exception = false) (hq : q ∈ sources fp (run imem p o (c + 1)))
    (hrs : Named fp q.reg) (hp : Producer (run imem p o) n c fp q.reg) :
    Supplies (run imem p o) n c fp q.latched (legOf fp (run imem p o (c + 1)) q.reg) ∧
      q.operand = legData fp (run imem p o (c + 1)) q.latched (legOf fp (run imem p o (c + 1)) q.reg) :=
  ⟨supplies_leg hstay (Nat.le_refl _) hd hexc hq hrs hp, operand_leg hq⟩

/-- `addi x1, x0, 5; add x2, x1, x1` behind the mode switch. -/
def forwardImage : Imem := imageOf [csrOooOn, 0x00500093#32, 0x00108133#32]

theorem no_forwarding_gap_add :
    legOf false (run forwardImage zeroPowerUp (fun _ => zeroNets) 6) 1#5 = .mem ∧
      Supplies (run forwardImage zeroPowerUp (fun _ => zeroNets)) 4 5 false 0#64
        (legOf false (run forwardImage zeroPowerUp (fun _ => zeroNets) 6) 1#5) ∧
      5#64 = legData false (run forwardImage zeroPowerUp (fun _ => zeroNets) 6) 0#64
        (legOf false (run forwardImage zeroPowerUp (fun _ => zeroNets) 6) 1#5) :=
  ⟨by decide +kernel,
    no_forwarding_gap forwardImage zeroPowerUp (fun _ => zeroNets) 4 5 false ⟨1#5, 0#64, 5#64⟩
      (by decide +kernel) (by decide +kernel) (by decide +kernel) (by decide +kernel)
      (.inr (by decide))
      ⟨by decide, by decide +kernel, by decide +kernel, by decide +kernel, fun m h1 h2 => by omega⟩⟩

end VMate.OooForward
