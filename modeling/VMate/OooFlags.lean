import VMate.OooSerial

namespace VMate.OooFlags

open Decode Pipe RiscvTop DecodeFacts StageCtrl OooTrap OooWindow OooTimeline OooComplete OooSerial
open CsrFile hiding State

section Spec

/-- The CSR instruction in MEM writes `fflags` or `fcsr`. -/
def writesFflags (s : State) : Bool :=
  s.exMem.ctrl.csrWrite && (csrAddrOf s.exMem == csrFflags || csrAddrOf s.exMem == csrFcsr)

/-- The instruction in MEM at `t` is on the committed path. In OoO mode it was
dispatched two cycles ago and commits at most two cycles later; in order it
only has to be free of an exception. -/
def onPath (r : Nat → State) (t : Nat) : Bool :=
  if oooEn (r t) then decide (∃ v < t + 3, CommitsAt r (t - 2) v) else !(r t).exMem.ctrl.exception

/-- The flags as the architecture has them: what a CSR instruction wrote last
with the flags of the later FP instructions on the committed path. -/
def preciseFflags (r : Nat → State) : Nat → BitVec 5
  | 0 => 0
  | t + 1 =>
      if writesFflags (r t) then (nextCsrWdata (r t).csr (csrIn (r t))).extractLsb 4 0
      else if (r t).exMem.ctrl.fpFflagsWe && onPath r t then preciseFflags r t ||| (r t).exMem.fpFflags
      else preciseFflags r t

/-- At `t` an FP instruction that is not on the committed path has its flags
taken by `csr_file`, which ignores them in the cycle of a trap or a return. -/
def StrayFlags (r : Nat → State) (t : Nat) : Prop :=
  (r t).exMem.ctrl.fpFflagsWe = true ∧ onPath r t = false ∧ finalException (r t) = false ∧
    finalMretExec (r t) = false

instance (r : Nat → State) (t : Nat) : Decidable (StrayFlags r t) := inferInstanceAs (Decidable (_ ∧ _))

def PreciseUpTo (r : Nat → State) (T : Nat) : Prop := ∀ t ≤ T, (r t).csr.fflagsReg = preciseFflags r t

end Spec

section Step

variable {imem : Imem} {o : OpenNets} {s : State}

theorem fflags_csrUpdate (c : CsrFile.State) (a : BitVec 12) (w : BitVec 32) :
    (csrUpdate c a w).fflagsReg = if a == csrFflags || a == csrFcsr then w.extractLsb 4 0 else c.fflagsReg := by
  by_cases hf : a = csrFflags
  · subst hf
    rfl
  by_cases hc : a = csrFcsr
  · subst hc
    rfl
  rw [beq_eq_false_iff_ne.mpr hf, beq_eq_false_iff_ne.mpr hc, Bool.or_false, if_neg Bool.false_ne_true]
  unfold csrUpdate
  repeat'
    refine iteInduction (motive := fun u : CsrFile.State => u.fflagsReg = c.fflagsReg) (fun _ => ?_) (fun _ => ?_)
  all_goals
    first
    | rfl
    | contradiction

theorem fflags_csrTick (c : CsrFile.State) (i : CsrIn) : (csrTick c i).fflagsReg =
    if i.exception || i.mretExec then c.fflagsReg
    else if i.csrWrite && (i.csrAddr == csrFflags || i.csrAddr == csrFcsr) then (nextCsrWdata c i).extractLsb 4 0
    else if i.fpFflagsWe && !i.csrWrite then c.fflagsReg ||| i.fpFflagsUpdate
    else c.fflagsReg := by
  unfold csrTick
  cases i.exception with
  | true => rfl
  | false =>
      cases i.mretExec with
      | true => rfl
      | false =>
          cases i.csrWrite with
          | false => cases i.fpFflagsWe <;> rfl
          | true => simp [fflags_csrUpdate]

theorem fflags_tick : (tick imem o s).csr.fflagsReg =
    if finalException s || finalMretExec s then s.csr.fflagsReg
    else if writesFflags s then (nextCsrWdata s.csr (csrIn s)).extractLsb 4 0
    else if s.exMem.ctrl.fpFflagsWe && !s.exMem.ctrl.csrWrite then s.csr.fflagsReg ||| s.exMem.fpFflags
    else s.csr.fflagsReg := fflags_csrTick s.csr (csrIn s)

theorem quiet_of_finalFlush (h : finalFlush s = false) : finalException s = false ∧ finalMretExec s = false := by
  rw [finalFlush, Bool.or_eq_false_iff, Bool.or_eq_false_iff] at h
  exact ⟨h.1.1, h.2⟩

end Step

section Run

variable {imem : Imem} {p : PowerUp} {o : Nat → OpenNets} {t : Nat}

/-- An explicit write is never lost to a trap or a return. -/
theorem quiet_of_csrWrite (hstay : StaysOn imem p o (t + 2)) (h : (run imem p o t).exMem.ctrl.csrWrite = true) :
    finalException (run imem p o t) = false ∧ finalMretExec (run imem p o t) = false := by
  cases hooo : oooEn (run imem p o t) with
  | true =>
      have hns := nonSpeculative hstay hooo (by simp [writesState, h])
      obtain ⟨v, htv, -, -, -, hquiet⟩ := hns.commits
      exact quiet_of_finalFlush (hquiet t (Nat.le_refl _) htv)
  | false =>
      obtain ⟨fs, rm, hctrl⟩ := (ctrlDecoded_run imem p o t).exMem
      rw [finalException, finalMretExec, hooo, if_neg Bool.false_ne_true, if_neg Bool.false_ne_true]
      rw [hctrl] at h ⊢
      refine ⟨?_, (decode_writesState (by simp [writesState, h])).2.2.2⟩
      rw [Bool.eq_false_iff]
      intro he
      rw [(decode_trap he).2.1] at h
      cases h

/-- The flags of an instruction on the committed path are never lost either. -/
theorem quiet_of_onPath (hstay : StaysOn imem p o (t + 2))
    (hwe : (run imem p o t).exMem.ctrl.fpFflagsWe = true) (h : onPath (run imem p o) t = true) :
    finalException (run imem p o t) = false ∧ finalMretExec (run imem p o t) = false := by
  cases hooo : oooEn (run imem p o t) with
  | false =>
      obtain ⟨fs, rm, hctrl⟩ := (ctrlDecoded_run imem p o t).exMem
      rw [onPath, hooo, if_neg Bool.false_ne_true, Bool.not_eq_true'] at h
      rw [finalException, finalMretExec, hooo, if_neg Bool.false_ne_true, if_neg Bool.false_ne_true]
      refine ⟨h, ?_⟩
      rw [hctrl] at hwe ⊢
      exact (decode_flagsQuiet hwe).2
  | true =>
      have hr := oooTrace_run hstay
      rw [onPath, hooo, if_pos rfl, decide_eq_true_eq] at h
      obtain ⟨v, -, hc⟩ := h
      have hv := validMem_of_ctrl hooo fun he => by
        rw [he] at hwe
        cases hwe
      obtain ⟨n, rfl, hd, hf1⟩ := dispatch_of_mem hv
      rw [Nat.add_sub_cancel] at hc
      have hexc := exception_of_mem hd (ooo_after hr hd (by omega) (by omega)) hf1
      rcases Nat.lt_or_eq_of_le (commits_ge hr hd hexc (by omega) hc) with hlt | rfl
      · exact quiet_of_finalFlush (hc.2.1 (n + 2) hlt (by omega)).1
      · -- it commits now, so what the head entry says is about itself
        obtain ⟨-, hal, -, hhead⟩ := hc
        have hinst := instruction_alive hr hd (by omega) (by omega) hal
        rw [finalException, finalMretExec, commitIsMret, hooo, if_pos rfl, if_pos rfl, commitEntry_of_head hhead,
          hinst]
        refine ⟨exception_alive hr hd hexc (by omega) (by omega) hal, ?_⟩
        rw [Bool.and_eq_false_iff, beq_eq_false_iff_ne]
        refine .inr fun hmret => ?_
        rw [(mem_of_dispatch hr hd hf1).2.2.2, (ex_of_dispatch hr hd).2.2] at hwe
        change (ctrlId (run imem p o n)).fpFflagsWe = true at hwe
        rw [ctrlId, hmret] at hwe
        cases hwe

theorem csrWrite_of_flags (h : (run imem p o t).exMem.ctrl.fpFflagsWe = true) :
    (run imem p o t).exMem.ctrl.csrWrite = false := by
  obtain ⟨fs, rm, hctrl⟩ := (ctrlDecoded_run imem p o t).exMem
  rw [hctrl] at h ⊢
  exact (decode_flagsQuiet h).1

theorem fflags_step (hstay : StaysOn imem p o (t + 2)) :
    (run imem p o (t + 1)).csr.fflagsReg =
      if writesFflags (run imem p o t) then
        (nextCsrWdata (run imem p o t).csr (csrIn (run imem p o t))).extractLsb 4 0
      else if (run imem p o t).exMem.ctrl.fpFflagsWe &&
          !(finalException (run imem p o t) || finalMretExec (run imem p o t)) then
        (run imem p o t).csr.fflagsReg ||| (run imem p o t).exMem.fpFflags
      else (run imem p o t).csr.fflagsReg := by
  rw [run, fflags_tick]
  cases hw : writesFflags (run imem p o t) with
  | true =>
      rw [writesFflags, Bool.and_eq_true] at hw
      obtain ⟨he, hm⟩ := quiet_of_csrWrite hstay hw.1
      rw [he, hm]
      rfl
  | false =>
      cases hwe : (run imem p o t).exMem.ctrl.fpFflagsWe with
      | false => simp
      | true =>
          rw [csrWrite_of_flags hwe]
          cases finalException (run imem p o t) || finalMretExec (run imem p o t) <;> rfl

/-- A cycle keeps the register precise unless stray flags add a bit. -/
theorem precise_step (hstay : StaysOn imem p o (t + 2))
    (h : (run imem p o t).csr.fflagsReg = preciseFflags (run imem p o) t) :
    (run imem p o (t + 1)).csr.fflagsReg = preciseFflags (run imem p o) (t + 1) ↔
      (StrayFlags (run imem p o) t →
        (run imem p o t).csr.fflagsReg ||| (run imem p o t).exMem.fpFflags = (run imem p o t).csr.fflagsReg) := by
  rw [fflags_step hstay, preciseFflags, ← h]
  cases hw : writesFflags (run imem p o t) with
  | true =>
      refine iff_of_true rfl fun hs => ?_
      rw [writesFflags, csrWrite_of_flags hs.1] at hw
      cases hw
  | false =>
      cases hwe : (run imem p o t).exMem.ctrl.fpFflagsWe with
      | false =>
          refine iff_of_true rfl fun hs => ?_
          exact Bool.noConfusion (hwe.symm.trans hs.1)
      | true =>
          cases hon : onPath (run imem p o) t with
          | true =>
              obtain ⟨he, hm⟩ := quiet_of_onPath hstay hwe hon
              rw [he, hm]
              exact iff_of_true rfl fun hs => Bool.noConfusion (hon.symm.trans hs.2.1)
          | false =>
              cases hq : finalException (run imem p o t) || finalMretExec (run imem p o t) with
              | true =>
                  refine iff_of_true rfl fun hs => ?_
                  rw [hs.2.2.1, hs.2.2.2] at hq
                  cases hq
              | false =>
                  rw [Bool.or_eq_false_iff] at hq
                  exact ⟨fun heq _ => heq, fun hs => hs ⟨hwe, hon, hq⟩⟩

end Run

/-- In OoO mode `fflags` is precise in every cycle of a run exactly when no FP
instruction off the committed path raises a flag that is not set already. -/
theorem fflags_precise_iff (imem : Imem) (p : PowerUp) (o : Nat → OpenNets) (T : Nat)
    (hstay : StaysOn imem p o (T + 1)) :
    PreciseUpTo (run imem p o) T ↔ ∀ t < T, StrayFlags (run imem p o) t →
      (run imem p o t).csr.fflagsReg ||| (run imem p o t).exMem.fpFflags = (run imem p o t).csr.fflagsReg := by
  constructor
  · intro h t ht
    exact (precise_step (fun u hu => hstay u (by omega)) (h t (by omega))).mp (h (t + 1) (by omega))
  · intro h t ht
    induction t with
    | zero => rfl
    | succ t ih => exact (precise_step (fun u hu => hstay u (by omega)) (ih (by omega))).mpr (h t (by omega))

/-- `lui x1, 6; csrw mstatus, x1`, the mode switch, and then `l`. -/
def fpImage (l : List (BitVec 32)) : Imem := imageOf ([0x000060B7#32, 0x30009073#32, csrOooOn] ++ l)

/-- `flt.s x7, f0, f1` on registers that hold no boxed value is invalid. -/
theorem fflags_precise_flt :
    (run (fpImage [0xA01013D3#32]) zeroPowerUp (fun _ => zeroNets) 12).csr.fflagsReg = 0b10000#5 ∧
      PreciseUpTo (run (fpImage [0xA01013D3#32]) zeroPowerUp (fun _ => zeroNets)) 12 :=
  ⟨by decide +kernel,
    (fflags_precise_iff (fpImage [0xA01013D3#32]) zeroPowerUp (fun _ => zeroNets) 12
      (by decide +kernel)).mpr (by decide +kernel)⟩

/-- `lw x5, 0(x0); beq x0, x0, 8; flt.s x7, f0, f1`. The load delays the
branch, so the comparison passes MEM before it is flushed. -/
def wrongPathImage : Imem := fpImage [0x00002283#32, 0x00000463#32, 0xA01013D3#32]

theorem not_fflags_precise_branch :
    StaysOn wrongPathImage zeroPowerUp (fun _ => zeroNets) 14 ∧
      FlushedAt (run wrongPathImage zeroPowerUp (fun _ => zeroNets)) 10 13 ∧
      (run wrongPathImage zeroPowerUp (fun _ => zeroNets) 13).csr.fflagsReg = 0b10000#5 ∧
      preciseFflags (run wrongPathImage zeroPowerUp (fun _ => zeroNets)) 13 = 0#5 ∧
      ¬ PreciseUpTo (run wrongPathImage zeroPowerUp (fun _ => zeroNets)) 13 := by
  refine ⟨by decide +kernel, by decide +kernel, by decide +kernel, by decide +kernel, fun h => ?_⟩
  have hend := h 13 (Nat.le_refl _)
  revert hend
  decide +kernel

end VMate.OooFlags
