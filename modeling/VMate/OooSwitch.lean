import VMate.OooSerial

namespace VMate.OooSwitch

open Decode Pipe RiscvTop DecodeFacts StageCtrl RobFifo OooTrap OooWindow OooTimeline OooComplete OooSerial

/-- The mode is switched on at the end of cycle `t`. -/
def Rises (r : Nat → State) (t : Nat) : Prop := oooEn (r t) = false ∧ oooEn (r (t + 1)) = true

/-- The oldest entry is not completed and no stage holds its index any more. -/
structure Wedged (s : State) : Prop where
  occupied : 0 < occ s
  head : (commitEntry s).completed = false ∧ (commitEntry s).exception = false
  ex : s.track.validEx = true → s.track.robIdxEx ≠ robHead s
  mem : s.track.validMem = true → s.track.robIdxMem ≠ robHead s
  wb : oooEn s = true → s.track.validWb = true → s.track.robIdxWb ≠ robHead s

/-- What OoO mode should find when it is entered. -/
structure EmptyStructures (s : State) : Prop where
  count : s.rob.count = 0
  rob : ∀ j, (s.rob.robData j).valid = false
  intRat : ∀ a, s.rat.intRatValid a = false
  fpRat : ∀ a, s.rat.fpRatValid a = false
  robEmpty : robEmpty s = true
  served : ¬ Wedged s

section Step

variable {imem : Imem} {o : OpenNets} {s : State}

theorem commitEn_of_head (h : (commitEntry s).completed = false) : commitEn s = false := by
  rw [Bool.eq_false_iff]
  intro hc
  rw [commitEn, commitEn_iff] at hc
  exact Bool.false_ne_true (h.symm.trans hc.2.2)

theorem finalFlush_of_head (hooo : oooEn s = true)
    (h : (commitEntry s).completed = false ∧ (commitEntry s).exception = false) : finalFlush s = false := by
  simp [finalFlush, finalException, finalMretExec, hooo, h.2, commitEn_of_head h.1]

variable (imem o) in
/-- Without a commit and without a broadcast to it, the head entry stays. -/
theorem head_tick (hwf : WellFormed s.rob) (hooo : oooEn s = true) (hocc : 0 < occ s)
    (h : (commitEntry s).completed = false ∧ (commitEntry s).exception = false)
    (hcdb : cdbEn s = true → cdbRobIdx s ≠ robHead s) :
    robHead (tick imem o s) = robHead s ∧ (commitEntry (tick imem o s)).completed = false ∧
      (commitEntry (tick imem o s)).exception = false := by
  have hf := finalFlush_of_head hooo h
  have hc := commitEn_of_head h.1
  have hhead : robHead (tick imem o s) = robHead s := by
    rw [rob_tick_headPtr hooo hf, hc]
    rfl
  have hle : occ s ≤ 16 := hwf.count_le
  have hcomp : (Rob.completes s.rob (robIn o s) && robHead s == (robIn o s).completeIdx) = false := by
    rw [Bool.and_eq_false_iff]
    cases hen : cdbEn s with
    | false =>
        left
        have hin : (robIn o s).completeEn = false := hen
        simp [Rob.completes, hin]
    | true => exact .inr (beq_eq_false_iff_ne.mpr (hcdb hen).symm)
  have hacc : (Rob.accepts s.rob (robIn o s) && robHead s == s.rob.tailPtr) = false := by
    rw [accepts_robIn, Bool.and_eq_false_iff]
    cases hd : dispatchEn s with
    | false => exact .inl rfl
    | true =>
        right
        rw [beq_eq_false_iff_ne]
        have hlt := count_of_dispatch hwf hd
        have hne := (slot_inj (s := s) (a := 0) (b := occ s) (by omega) hlt).not.mpr (by omega)
        rwa [slot_zero, ← robIdxDisp_eq hwf] at hne
  refine ⟨hhead, ?_, ?_⟩
  · rw [commitEntry_of_head hhead, rob_tick_data hooo hf, nextEntry_completed, retires_robIn, hc, hcomp, hacc]
    exact h.1
  · rw [commitEntry_of_head hhead, rob_tick_data hooo hf, nextEntry_exception, hcomp, hacc]
    exact h.2

theorem cdb_of_wedged (h : Wedged s) (hooo : oooEn s = true) (hen : cdbEn s = true) : cdbRobIdx s ≠ robHead s := by
  rw [cdbEn_eq hooo, Bool.or_eq_true, Bool.or_eq_true] at hen
  rcases hen with (hw | hm) | he
  · rw [(cdb_of_grantWb hooo hw).2]
    simp only [grantWb, wbWantsCdb, Bool.and_eq_true] at hw
    exact h.wb hooo hw.1
  · rw [(cdb_of_grantMem hooo hm).2]
    exact h.mem (grantMem_valid hm)
  · rw [(cdb_of_grantEx hooo he).2]
    exact h.ex (grantEx_valid he)

theorem wedged_step_inOrder (h : Wedged s) (hmode : ModeInv s) (hooo : oooEn s = false) :
    Wedged (tick imem o s) := by
  have hrob : (tick imem o s).rob = s.rob := rob_tick_inOrder hooo
  obtain ⟨hex, hmem⟩ := hmode.inOrder hooo
  refine ⟨?_, ?_, fun hv => ?_, fun hv => ?_, fun _ hv => ?_⟩
  · rw [occ, hrob]
    exact h.occupied
  · rw [commitEntry, hrob]
    exact h.head
  · rw [validEx_tick, dispatchEn, hooo] at hv
    cases hv
  · rw [validMem_tick, hex] at hv
    cases hv
  · rw [validWb_tick, hmem] at hv
    cases hv

/-- A buffer whose oldest entry nobody completes stays that way in both modes. -/
theorem wedged_step (h : Wedged s) (hwf : WellFormed s.rob) (hmode : ModeInv s) : Wedged (tick imem o s) := by
  cases hooo : oooEn s with
  | false => exact wedged_step_inOrder h hmode hooo
  | true =>
      have hf := finalFlush_of_head hooo h.head
      obtain ⟨hhead, hstay⟩ := head_tick imem o hwf hooo h.occupied h.head (cdb_of_wedged h hooo)
      have hocc := occ_tick imem o hwf hooo hf
      rw [commitEn_of_head h.head.1, Bool.toNat_false] at hocc
      have hpos := h.occupied
      refine ⟨by omega, hstay, fun hv => ?_, fun hv => ?_, fun _ hv => ?_⟩
      · have hd : dispatchEn s = true := by
          rw [validEx_tick, Bool.and_eq_true] at hv
          exact hv.1
        have hlt := count_of_dispatch hwf hd
        have hne := (slot_inj (s := s) (a := occ s) (b := 0) hlt (by omega)).not.mpr (by omega)
        rw [slot_zero, ← robIdxDisp_eq hwf] at hne
        rw [hhead, track_tick hf, (dispatchEn_spec hd).2.2.1]
        exact hne
      · rw [track_tick hf] at hv ⊢
        rw [hhead]
        exact h.ex hv
      · rw [track_tick hf] at hv ⊢
        rw [hhead]
        exact h.mem hv

end Step

section Run

variable {imem : Imem} {p : PowerUp} {o : Nat → OpenNets} {t : Nat}

theorem wedged_run {b : Nat} (h : Wedged (run imem p o b)) (hbt : b ≤ t) : Wedged (run imem p o t) := by
  induction t, hbt using Nat.le_induction with
  | base => exact h
  | succ t _ ih => exact wedged_step ih (trapInv_run imem p o t).wf (modeInv_run imem p o t)

/-- The CSR instruction in MEM was dispatched into an empty buffer. -/
theorem csr_dispatch {b : Nat} (hooo : oooEn (run imem p o b) = true)
    (hw : (run imem p o b).exMem.ctrl.csrWrite = true) :
    ∃ n, b = n + 2 ∧ dispatchEn (run imem p o n) = true ∧ finalFlush (run imem p o (n + 1)) = false ∧
      serialOpcode (run imem p o b).exMem.instruction = true ∧ robEmpty (run imem p o n) = true := by
  have hval := validMem_of_ctrl hooo fun he => by
    rw [he] at hw
    cases hw
  obtain ⟨n, rfl, hd, hf1⟩ := dispatch_of_mem hval
  have hexMem : (run imem p o (n + 2)).exMem =
      exMemIn (idExIn (run imem p o n)) (operandsEx (run imem p o (n + 1))) (fcsrRmMem (run imem p o (n + 1))) := by
    rw [run, exMem_tick, hf1, run, idEx_dispatched hd]
    rfl
  have hws : writesState (ctrlId (run imem p o n)).toMemCtrl = true := by
    rw [hexMem] at hw
    exact Bool.or_eq_true_iff.mpr (.inr hw)
  have hser := (decode_writesState hws).1
  refine ⟨n, rfl, hd, hf1, ?_, serial_robEmpty hd (.inl hser)⟩
  rw [hexMem]
  exact hser

/-- The CSR instruction in MEM is alone in the buffer, at its head, and waits
for the bus until it is in WB. -/
theorem csr_alone {b : Nat} (hstay : StaysOn imem p o b) (hooo : oooEn (run imem p o b) = true)
    (hw : (run imem p o b).exMem.ctrl.csrWrite = true) :
    occ (run imem p o b) = 1 ∧
      ((commitEntry (run imem p o b)).completed = false ∧ (commitEntry (run imem p o b)).exception = false) ∧
      cdbEn (run imem p o b) = false := by
  have hr := oooTrace_run hstay
  have hinv := oooInv_run hstay
  have ht := trapInv_run imem p o b
  have hex := ((modeInv_run imem p o b).csrMem hw).2
  obtain ⟨n, rfl, hd, hf1, hserial, -⟩ := csr_dispatch hooo hw
  obtain ⟨hval, -, hdone, hexMem⟩ := mem_of_dispatch hr hd hf1
  obtain ⟨k, hk, -, hcomp, hser⟩ := hinv.mem hval
  obtain rfl : k = 0 := hser hserial
  have hocc : occ (run imem p o (n + 2)) = 1 := by
    rw [hk, hex]
    rfl
  have hcsrEx : (run imem p o (n + 1)).idEx.ctrl.csrWrite = true := by
    rw [hexMem] at hw
    exact hw
  have hexcEx := exception_of_finalFlush (trapInv_run imem p o (n + 1)) (ooo_after hr hd (by omega) (by omega)) hf1
  have hgrant : grantEx (run imem p o (n + 1)) = false := by
    simp [grantEx, exWantsCdb, exReady, hcsrEx, hexcEx]
  have hhead : (commitEntry (run imem p o (n + 2))).completed = false := by
    rw [entryAt, slot_zero] at hcomp
    exact hcomp.trans (hdone.trans hgrant)
  have hvalid : (commitEntry (run imem p o (n + 2))).valid = true := by
    have hv := entryAt_valid ht.wf (k := 0) (by omega)
    rwa [entryAt, slot_zero] at hv
  refine ⟨hocc, ⟨hhead, ?_⟩, ?_⟩
  · rw [Bool.eq_false_iff]
    intro he
    exact Bool.false_ne_true (hhead.symm.trans (ht.entry _ hvalid he).2.1)
  · rw [cdbEn_eq hooo, Bool.or_eq_false_iff, Bool.or_eq_false_iff]
    refine ⟨⟨?_, ?_⟩, ?_⟩
    · -- what is in WB has left the buffer, which holds only the CSR instruction
      rw [Bool.eq_false_iff]
      intro hg
      obtain ⟨hv, hno⟩ := (grantWb_spec ht).mp hg
      rcases hinv.wb hv with ⟨k, hk', -⟩ | ⟨-, hyes⟩
      · rw [hval, Bool.toNat_true] at hk'
        omega
      · exact Bool.false_ne_true (hno.symm.trans hyes)
    · simp [grantMem, memWantsCdb, memReady, hw, ht.mem hooo]
    · simp [grantEx, exWantsCdb, hex]

/-- The instruction that switches the mode off leaves its entry behind. -/
theorem wedged_of_fall {b : Nat} (hstay : StaysOn imem p o b) (hon : oooEn (run imem p o b) = true)
    (hoff : oooEn (run imem p o (b + 1)) = false) : Wedged (run imem p o (b + 1)) := by
  have hw := csrWrite_of_switch hon hoff
  obtain ⟨hocc, hhead, hcdb⟩ := csr_alone hstay hon hw
  have hwf := (trapInv_run imem p o b).wf
  have hf := finalFlush_of_head hon hhead
  have hex := ((modeInv_run imem p o b).csrMem hw).2
  have htick := head_tick imem (o b) hwf hon (by omega) hhead fun hen => by
    rw [hcdb] at hen
    cases hen
  have hocc' := occ_tick imem (o b) hwf hon hf
  rw [commitEn_of_head hhead.1, Bool.toNat_false] at hocc'
  refine ⟨?_, htick.2, fun hv => ?_, fun hv => ?_, fun h => ?_⟩
  · rw [run]
    omega
  · rw [run, validEx_tick, dispatchEn_of_csrWriteMem hw] at hv
    cases hv
  · rw [run, validMem_tick, hex] at hv
    cases hv
  · rw [hoff] at h
    cases h

theorem exists_fall (h : ¬ StaysOn imem p o t) : ∃ b < t, StaysOn imem p o b ∧
    oooEn (run imem p o b) = true ∧ oooEn (run imem p o (b + 1)) = false := by
  induction t with
  | zero => exact absurd (fun u hu => absurd hu (Nat.not_lt_zero u)) h
  | succ t ih =>
      by_cases hstay : StaysOn imem p o t
      · refine ⟨t, Nat.lt_succ_self t, hstay, ?_⟩
        by_contra hno
        refine h fun u hu hon => ?_
        rcases Nat.lt_succ_iff_lt_or_eq.mp hu with hlt | rfl
        · exact hstay u hlt hon
        · by_contra hoff
          exact hno ⟨hon, Bool.eq_false_iff.mpr hoff⟩
      · obtain ⟨b, hb, hfall⟩ := ih hstay
        exact ⟨b, by omega, hfall⟩

theorem wedged_of_off {u : Nat} (hut : u ≤ t) (hon : oooEn (run imem p o u) = true)
    (hoff : oooEn (run imem p o t) = false) : Wedged (run imem p o t) := by
  have hno : ¬ StaysOn imem p o t := by
    intro hstay
    rw [on_of_le (oooTrace_run hstay) hut (Nat.le_refl t) hon] at hoff
    cases hoff
  obtain ⟨b, hb, hstay, honb, hoffb⟩ := exists_fall hno
  exact wedged_run (wedged_of_fall hstay honb hoffb) hb

/-- Without OoO mode the clocks of its structures stand still. -/
theorem idle_run (h : ∀ u < t, oooEn (run imem p o u) = false) :
    (run imem p o t).rob = {} ∧ (run imem p o t).rat = {} := by
  induction t with
  | zero => exact ⟨rfl, rfl⟩
  | succ t ih =>
      obtain ⟨hrob, hrat⟩ := ih fun u hu => h u (by omega)
      have hoff := h t (Nat.lt_succ_self t)
      refine ⟨(rob_tick_inOrder hoff).trans hrob, ?_⟩
      rw [← hrat]
      simp [run, tick, Rat.ratTick, ratIn, hoff]

theorem emptyStructures_idle (h : ∀ u < t, oooEn (run imem p o u) = false) : EmptyStructures (run imem p o t) := by
  obtain ⟨hrob, hrat⟩ := idle_run h
  refine ⟨?_, fun j => ?_, fun a => ?_, fun a => ?_, ?_, fun hw => ?_⟩
  · rw [hrob]
  · rw [hrob]
  · rw [hrat]
  · rw [hrat]
  · rw [robEmpty, robHead, robIdxDisp, RiscvTop.robFull, hrob]
    rfl
  · have hpos := hw.occupied
    rw [occ, hrob] at hpos
    exact Nat.lt_irrefl 0 hpos

end Run

/-- The first switch to OoO mode finds its structures empty and no later one
does: the entry of the instruction that switched the mode off is still there. -/
theorem emptyStructures_iff (imem : Imem) (p : PowerUp) (o : Nat → OpenNets) (t : Nat)
    (h : Rises (run imem p o) t) :
    EmptyStructures (run imem p o (t + 1)) ↔ ∀ u ≤ t, oooEn (run imem p o u) = false := by
  constructor
  · intro hempty u hut
    rw [Bool.eq_false_iff]
    intro hon
    have hw := wedged_of_off hut hon h.1
    exact hempty.served (wedged_run hw (Nat.le_succ t))
  · intro hoff
    exact emptyStructures_idle fun u hu => hoff u (by omega)

/-- The mode is switched on, off and on again. -/
def toggleImage : Imem := imageOf [csrOooOn, 0x7C005073#32, csrOooOn]

theorem emptyStructures_first : EmptyStructures (run toggleImage zeroPowerUp (fun _ => zeroNets) 4) :=
  (emptyStructures_iff toggleImage zeroPowerUp (fun _ => zeroNets) 3 ⟨by decide +kernel, by decide +kernel⟩).mpr
    (by decide +kernel)

/-- The second switch to OoO mode finds the entry of `csrrwi x0, 0x7C0, 0`. -/
theorem not_emptyStructures_again :
    Rises (run toggleImage zeroPowerUp (fun _ => zeroNets)) 9 ∧
      (run toggleImage zeroPowerUp (fun _ => zeroNets) 10).rob.count = 1 ∧
      (commitEntry (run toggleImage zeroPowerUp (fun _ => zeroNets) 10)).instruction = 0x7C005073#32 ∧
      ¬ EmptyStructures (run toggleImage zeroPowerUp (fun _ => zeroNets) 10) := by
  refine ⟨⟨by decide +kernel, by decide +kernel⟩, by decide +kernel, by decide +kernel, fun h => ?_⟩
  exact absurd h.count (by decide +kernel)

end VMate.OooSwitch
