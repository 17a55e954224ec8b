import VMate.OooComplete

namespace VMate.OooSerial

open Decode Pipe RiscvTop DecodeFacts StageCtrl RobFifo OooTrap OooWindow OooTimeline OooComplete

section Bubbles

variable {imem : Imem} {o : OpenNets} {s : State}

/-- In OoO mode a stage without an entry in the buffer does nothing. The one
exception is the instruction that switched the mode on, while it is in WB. -/
structure Bubbles (s : State) : Prop where
  ex : oooEn s = true → s.track.validEx = false → s.idEx.instruction = 0#32 ∧ s.idEx.ctrl = {}
  mem : oooEn s = true → s.track.validMem = false → s.exMem.instruction = 0#32 ∧ s.exMem.ctrl = {}
  wb : oooEn s = true → s.track.validWb = false → s.track.validEx = true →
    s.memWb.instruction = 0#32 ∧ s.memWb.ctrl = {}

/-- Only a CSR instruction in MEM switches the mode. -/
theorem csrWrite_of_switch {b : Bool} (hooo : oooEn s = b) (h : oooEn (tick imem o s) = !b) :
    s.exMem.ctrl.csrWrite = true := by
  by_contra hw
  rw [oooEn_tick (Bool.eq_false_iff.mpr hw), hooo] at h
  cases b <;> cases h

theorem bubbles_step (h : Bubbles s) (hm : ModeInv s) : Bubbles (tick imem o s) := by
  refine ⟨fun hooo' hv => ?_, fun hooo' hv => ?_, fun hooo' hv hex => ?_⟩
  · cases hooo : oooEn s with
    | true =>
        refine idEx_not_dispatched hooo ?_
        rw [validEx_tick] at hv
        by_contra hd
        have hd' : dispatchEn s = true := by simpa using hd
        rw [hd', (dispatchEn_spec hd').2.1] at hv
        cases hv
    | false =>
        have hw := csrWrite_of_switch hooo hooo'
        rw [idEx_tick, holdsId, flushIdEx_of_csrHazard (by simp [Hazard.csrHazard, hazardIn, hw])]
        exact ⟨rfl, rfl⟩
  · rw [exMem_tick]
    cases hf : finalFlush s with
    | true => exact ⟨rfl, rfl⟩
    | false =>
        rw [validMem_tick, hf, Bool.not_false, Bool.and_true] at hv
        have hidEx : s.idEx.instruction = 0#32 ∧ s.idEx.ctrl = {} := by
          cases hooo : oooEn s with
          | true => exact h.ex hooo hv
          | false => rw [(hm.csrMem (csrWrite_of_switch hooo hooo')).1]; exact ⟨rfl, rfl⟩
        exact ⟨hidEx.1, congrArg ExCtrl.toMemCtrl hidEx.2⟩
  · rw [memWb_tick]
    cases hf : finalFlush s with
    | true => exact ⟨rfl, rfl⟩
    | false =>
        rw [validWb_tick, hf, Bool.not_false, Bool.and_true] at hv
        cases hooo : oooEn s with
        | true =>
            have hexMem := h.mem hooo hv
            exact ⟨hexMem.1, congrArg MemCtrl.toWbCtrl hexMem.2⟩
        | false =>
            rw [validEx_tick, dispatchEn, hooo] at hex
            cases hex

theorem bubbles_run (imem : Imem) (p : PowerUp) (o : Nat → OpenNets) (n : Nat) : Bubbles (run imem p o n) := by
  induction n with
  | zero => exact ⟨fun h => (Bool.false_ne_true h).elim, fun h => (Bool.false_ne_true h).elim,
      fun h => (Bool.false_ne_true h).elim⟩
  | succ n ih => exact bubbles_step ih (modeInv_run imem p o n)

theorem validMem_of_ctrl {imem : Imem} {p : PowerUp} {o : Nat → OpenNets} {t : Nat}
    (hooo : oooEn (run imem p o t) = true) (h : (run imem p o t).exMem.ctrl ≠ {}) :
    (run imem p o t).track.validMem = true := by
  by_contra hv
  exact h ((bubbles_run imem p o t).mem hooo (Bool.eq_false_iff.mpr hv)).2

end Bubbles

section AtHead

variable {imem : Imem} {o : Nat → OpenNets} {N n : Nat} {r : Nat → State}
  (hr : OooTrace imem o N r) (hd : dispatchEn (r n) = true)

include hr hd

theorem instruction_alive {t : Nat} (hnt : n < t) (htN : t ≤ N) (hal : Alive r n t) :
    ((r t).rob.robData (robIdxDisp (r n))).instruction = (r n).ifId.instruction :=
  congrArg Payload.instruction (entry_alive hr hd hnt htN hal).2.1

/-- An entry that has reached the head stays there as long as it is alive. -/
theorem head_alive {t u : Nat} (hnt : n < t) (htu : t ≤ u) (huN : u ≤ N) (hhead : robHead (r t) = robIdxDisp (r n))
    (hal : Alive r n u) : robHead (r u) = robIdxDisp (r n) := by
  induction u, htu using Nat.le_induction with
  | base => exact hhead
  | succ u htu ih =>
      have hprev := ih (by omega) (alive_mono (by omega) hal)
      obtain ⟨hf, hc⟩ := hal u (by omega) (by omega)
      have hce : commitEn (r u) = false := by
        rw [Bool.eq_false_iff]
        exact fun h => hc ⟨h, hprev⟩
      rw [hr.step u, rob_tick_headPtr (ooo_after hr hd (by omega) (by omega)) hf, hce]
      exact hprev

/-- An instruction at the head that neither branches nor returns from a trap
does not flush. -/
theorem finalFlush_at_head (hexc : (ctrlId (r n)).exception = false) (hN : n + 4 ≤ N) {u : Nat} (hnu : n < u)
    (hu : u ≤ n + 4) (hal : Alive r n u) (hhead : robHead (r u) = robIdxDisp (r n))
    (hsel : pcSelEx (r (n + 1)) = false) (hmret : (r n).ifId.instruction ≠ 0x30200073#32) :
    finalFlush (r u) = false := by
  have hooo := ooo_after hr hd (t := u) (by omega) (by omega)
  have hentry := commitEntry_of_head hhead
  have hinst := instruction_alive hr hd hnu (by omega) hal
  have hex := exception_alive hr hd hexc hnu (by omega) hal
  have hbr : (commitEn (r u) && (commitEntry (r u)).branchMispredicted) = false := by
    rw [Bool.and_eq_false_iff]
    cases hce : commitEn (r u) with
    | false => exact .inl rfl
    | true =>
        have hcomp := ((commitEn_eq (hr.trap u).wf).mp hce).2
        rw [hentry] at hcomp ⊢
        exact .inr ((branch_alive hr hd hexc hN hnu hu hal hcomp).1.trans hsel)
  have hne : commitIsMret (r u) = false := by
    rw [commitIsMret, hentry, hinst]
    exact beq_eq_false_iff_ne.mpr hmret
  rw [finalFlush, finalException, finalMretExec, hooo, hne, hentry, hex]
  rw [hentry] at hbr
  simp [hbr]

end AtHead

/-- What a store, FP store, AMO, LR, SC or CSR write in MEM can rely on: it is
the oldest instruction, and it commits at most two cycles later without a
flush until then. -/
structure NonSpeculative (r : Nat → State) (t : Nat) : Prop where
  valid : (r t).track.validMem = true
  head : (r t).track.robIdxMem = robHead (r t)
  entry : (commitEntry (r t)).valid = true ∧ (commitEntry (r t)).instruction = (r t).exMem.instruction
  commits : ∃ v, t ≤ v ∧ v ≤ t + 2 ∧ commitEn (r v) = true ∧ robHead (r v) = (r t).track.robIdxMem ∧
    ∀ u, t ≤ u → u ≤ v → finalFlush (r u) = false

section NonSpeculative

variable {imem : Imem} {p : PowerUp} {o : Nat → OpenNets}

theorem nonSpeculative {t : Nat} (hstay : StaysOn imem p o (t + 2)) (hooo : oooEn (run imem p o t) = true)
    (hw : writesState (run imem p o t).exMem.ctrl = true) : NonSpeculative (run imem p o) t := by
  have hr := oooTrace_run hstay
  have hv := validMem_of_ctrl hooo fun he => by
    rw [he] at hw
    cases hw
  obtain ⟨n, rfl, hd, hf1⟩ := dispatch_of_mem hv
  have hexc := exception_of_mem hd (ooo_after hr hd (by omega) (by omega)) hf1
  have hal2 := alive_mem hr hd hexc (by omega) hf1
  obtain ⟨-, hidx, -, hexMem⟩ := mem_of_dispatch hr hd hf1
  obtain ⟨-, -, hidEx⟩ := ex_of_dispatch hr hd
  have hinst : (run imem p o (n + 2)).exMem.instruction = (run imem p o n).ifId.instruction := by
    rw [hexMem, hidEx]
    rfl
  have hwId : writesState (ctrlId (run imem p o n)).toMemCtrl = true := by
    rw [hexMem, hidEx] at hw
    exact hw
  obtain ⟨hserial, hbranch, hjump, -⟩ := decode_writesState hwId
  have hsel : pcSelEx (run imem p o (n + 1)) = false := by
    rw [pcSelEx, pcSelOf, hidEx]
    change ((ctrlId (run imem p o n)).branch && _ || (ctrlId (run imem p o n)).jump) = false
    rw [ctrlId, hbranch, hjump]
    rfl
  have hmret : (run imem p o n).ifId.instruction ≠ 0x30200073#32 := by
    intro he
    rw [ctrlId, he] at hwId
    cases hwId
  obtain ⟨k, hk, hslot, -, hser⟩ := (hr.inv (n + 2) (by omega)).mem hv
  have hk0 : k = 0 := hser (by rw [hinst]; exact hserial)
  subst hk0
  rw [slot_zero] at hslot
  have hentry := entry_alive hr hd (by omega) (by omega) hal2
  have hquiet {u : Nat} (hu : n + 2 ≤ u) (hu' : u ≤ n + 4) (hal : Alive (run imem p o) n u) :
      finalFlush (run imem p o u) = false :=
    finalFlush_at_head hr hd hexc (by omega) (by omega) hu' hal
      (head_alive hr hd (by omega) hu (by omega) (hslot.symm.trans hidx) hal) hsel hmret
  refine ⟨hv, hslot, ?_, ?_⟩
  · rw [commitEntry_of_head (hslot.symm.trans hidx), hinst]
    exact ⟨hentry.1, congrArg Payload.instruction hentry.2.1⟩
  · obtain ⟨v, hv4, hc | hfl⟩ := fate hr hd (by omega)
    · have hv2 := commits_ge hr hd hexc (by omega) hc
      obtain ⟨hnv, hal, hce, hhead⟩ := hc
      exact ⟨v, hv2, hv4, hce, hhead.trans hidx.symm,
        fun u hu huv => hquiet hu (by omega) (alive_mono huv hal)⟩
    · obtain ⟨hnv, hal, hflush, -⟩ := hfl
      have hv2 : n + 2 ≤ v := by
        by_contra hlt
        obtain rfl : v = n + 1 := by omega
        rw [hf1] at hflush
        cases hflush
      rw [hquiet hv2 hv4 hal] at hflush
      cases hflush

theorem dmem_frame {s : State} {o : OpenNets} (h : writesState s.exMem.ctrl = false) :
    (tick imem o s).dmem = s.dmem := by
  simp only [writesState, Bool.or_eq_false_iff] at h
  obtain ⟨⟨⟨hw, hfw⟩, hamo⟩, -⟩ := h
  simp [tick, Dmem.dmemTick, Dmem.executeWrite, dmemIn, dmemInOf, hw, hfw, hamo]

theorem csr_frame {s : State} {o : OpenNets} (h : s.exMem.ctrl.csrWrite = false) (he : finalException s = false)
    (hm : finalMretExec s = false) :
    (tick imem o s).csr = { s.csr with fflagsReg := (tick imem o s).csr.fflagsReg } := by
  simp only [tick, CsrFile.csrTick, csrIn, h, he, hm, Bool.false_eq_true, if_false]
  split_ifs <;> rfl

/-- Data memory and the reservation change only by an instruction that is
sure to commit, and so does every CSR that neither a trap, a trap return nor
the FP flags concern. -/
theorem writes_nonSpeculative (imem : Imem) (p : PowerUp) (o : Nat → OpenNets) (t : Nat)
    (hstay : StaysOn imem p o (t + 2)) (hooo : oooEn (run imem p o t) = true) :
    (writesState (run imem p o t).exMem.ctrl = true → NonSpeculative (run imem p o) t) ∧
      ((run imem p o (t + 1)).dmem ≠ (run imem p o t).dmem → writesState (run imem p o t).exMem.ctrl = true) ∧
      ((run imem p o (t + 1)).csr ≠
          { (run imem p o t).csr with fflagsReg := (run imem p o (t + 1)).csr.fflagsReg } →
        writesState (run imem p o t).exMem.ctrl = true ∨ finalException (run imem p o t) = true ∨
          finalMretExec (run imem p o t) = true) := by
  refine ⟨nonSpeculative hstay hooo, fun hne => ?_, fun hne => ?_⟩
  · by_contra hw
    exact hne (dmem_frame (Bool.eq_false_iff.mpr hw))
  · by_contra hno
    simp only [not_or, Bool.not_eq_true] at hno
    obtain ⟨hw, he, hm⟩ := hno
    simp only [writesState, Bool.or_eq_false_iff] at hw
    exact hne (csr_frame hw.2 he hm)

/-- `sw x0, 0(x0)` behind the mode switch is in MEM at cycle 6. -/
theorem sw_nonSpeculative :
    NonSpeculative (run (imageOf [csrOooOn, 0x00002023#32]) zeroPowerUp (fun _ => zeroNets)) 6 :=
  (writes_nonSpeculative (imageOf [csrOooOn, 0x00002023#32]) zeroPowerUp (fun _ => zeroNets) 6
    (by decide +kernel) (by decide +kernel)).1 (by decide +kernel)

end NonSpeculative

end VMate.OooSerial
