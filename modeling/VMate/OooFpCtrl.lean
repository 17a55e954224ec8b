import VMate.OooFlags
import VMate.FpCtrl

namespace VMate.OooFpCtrl

open Decode Pipe Hazard RiscvTop DecodeFacts StageCtrl OooTrap OooWindow OooTimeline OooSerial OooFlags FpCtrl
open CsrFile hiding State

/-- What the CSR instructions on the committed path that were in MEM before
cycle `t` have left, starting from the reset values. -/
def pathFpCtrl (r : Nat → State) : Nat → BitVec 2 × BitVec 3
  | 0 => (0, 0)
  | t + 1 =>
      if (r t).exMem.ctrl.csrWrite && onPath r t then
        fpCtrlWrite (csrAddrOf (r t).exMem) (nextCsrWdata (r t).csr (csrIn (r t))) (pathFpCtrl r t)
      else pathFpCtrl r t

section Run

variable {imem : Imem} {p : PowerUp} {o : Nat → OpenNets} {t n : Nat}

/-- No CSR instruction that writes is ever flushed. -/
theorem onPath_of_csrWrite (hstay : StaysOn imem p o (t + 2)) (h : (run imem p o t).exMem.ctrl.csrWrite = true) :
    onPath (run imem p o) t = true := by
  cases hooo : oooEn (run imem p o t) with
  | false =>
      have hq := (quiet_of_csrWrite hstay h).1
      rw [finalException, hooo, if_neg Bool.false_ne_true] at hq
      rw [onPath, hooo, if_neg Bool.false_ne_true, hq]
      rfl
  | true =>
      have hns := nonSpeculative hstay hooo (by simp [writesState, h])
      have hr := oooTrace_run hstay
      obtain ⟨n, rfl, hd, hf1⟩ := dispatch_of_mem hns.valid
      have hidx := (mem_of_dispatch hr hd hf1).2.1
      obtain ⟨w, htw, hw4, hce, hhead, hquiet⟩ := hns.commits
      rw [onPath, hooo, if_pos rfl, decide_eq_true_eq, Nat.add_sub_cancel]
      obtain ⟨v, hv4, hc | hfl⟩ := fate hr hd (by omega)
      · exact ⟨v, by omega, hc⟩
      · exfalso
        obtain ⟨hnv, hal, hflush, -⟩ := hfl
        have hv2 : n + 2 ≤ v := by
          by_contra hlt
          obtain rfl : v = n + 1 := by omega
          rw [hf1] at hflush
          cases hflush
        rcases Nat.lt_or_ge w v with hlt | hge
        · exact (hal w hlt (by omega)).2 ⟨hce, hhead.trans hidx⟩
        · rw [hquiet v hv2 hge] at hflush
          cases hflush

theorem fpCtrl_run (hstay : StaysOn imem p o (t + 1)) :
    fpCtrl (run imem p o t).csr = pathFpCtrl (run imem p o) t := by
  induction t with
  | zero => rfl
  | succ t ih =>
      rw [run, pathFpCtrl, ← ih fun u hu => hstay u (by omega)]
      refine (fpCtrl_csrTick _ _).trans ?_
      change (if (run imem p o t).exMem.ctrl.csrWrite && !finalException (run imem p o t) &&
        !finalMretExec (run imem p o t) then _ else _) = _
      cases hw : (run imem p o t).exMem.ctrl.csrWrite with
      | false => rfl
      | true =>
          obtain ⟨he, hm⟩ := quiet_of_csrWrite hstay hw
          rw [he, hm, onPath_of_csrWrite hstay hw]
          rfl

theorem fcsrRmMem_idle {s : State} (h : s.exMem.ctrl.csrWrite = false) : fcsrRmMem s = s.csr.frmReg := by
  have hw : (csrIn s).csrWrite = false := h
  simp [fcsrRmMem, fcsrRm, hw]

/-- No CSR instruction is in EX or MEM when an instruction is dispatched. -/
theorem csrWrite_of_dispatch {s : State} (h : dispatchEn s = true) :
    s.idEx.ctrl.csrWrite = false ∧ s.exMem.ctrl.csrWrite = false := by
  have hno : csrHazard (hazardIn s) = false := by
    rw [Bool.eq_false_iff]
    intro hc
    rw [dispatchEn_of_flushIdEx (flushIdEx_of_csrHazard hc)] at h
    cases h
  simpa [csrHazard, hazardIn] using hno

end Run

/-- The FP control state that an instruction dispatched in cycle `n` is
decoded with in ID and rounds with in EX is the one the older CSR instructions
on the committed path have left: those that pass MEM before it does. -/
theorem fpCtrl_program_order (imem : Imem) (p : PowerUp) (o : Nat → OpenNets) (n : Nat)
    (hstay : StaysOn imem p o (n + 1)) (hd : dispatchEn (run imem p o n) = true) :
    (run imem p o n).csr.mstatusFs = (pathFpCtrl (run imem p o) (n + 2)).1 ∧
      fcsrRmMem (run imem p o n) = (pathFpCtrl (run imem p o) (n + 2)).2 ∧
      (run imem p o (n + 1)).idEx = idExIn (run imem p o n) ∧
      fcsrRmMem (run imem p o (n + 1)) = (pathFpCtrl (run imem p o) (n + 2)).2 := by
  obtain ⟨hex, hmem⟩ := csrWrite_of_dispatch hd
  have hmem' : (run imem p o (n + 1)).exMem.ctrl.csrWrite = false := by
    rw [run, exMem_tick]
    split_ifs
    · rfl
    · exact hex
  have h1 : pathFpCtrl (run imem p o) (n + 1) = pathFpCtrl (run imem p o) n := by
    rw [pathFpCtrl, hmem]
    rfl
  have h2 : pathFpCtrl (run imem p o) (n + 2) = pathFpCtrl (run imem p o) n := by
    rw [pathFpCtrl, hmem', ← h1]
    rfl
  have hnow := fpCtrl_run hstay
  have hnext : fpCtrl (run imem p o (n + 1)).csr = fpCtrl (run imem p o n).csr := by
    refine (fpCtrl_csrTick _ _).trans ?_
    have hw : (csrIn (run imem p o n)).csrWrite = false := hmem
    rw [hw]
    rfl
  rw [h2, ← hnow, fcsrRmMem_idle hmem, fcsrRmMem_idle hmem']
  exact ⟨rfl, rfl, idEx_dispatched hd, congrArg Prod.snd hnext⟩

/-- `csrrwi x0, frm, 2; fadd.s f1, f0, f0` with the dynamic rounding mode. -/
def dynImage : Imem := fpImage [0x00215073#32, 0x000070D3#32]

theorem fpCtrl_program_order_fadd :
    dispatchEn (run dynImage zeroPowerUp (fun _ => zeroNets) 11) = true ∧
      pathFpCtrl (run dynImage zeroPowerUp (fun _ => zeroNets)) 13 = (0b11#2, 0b010#3) ∧
      fcsrRmMem (run dynImage zeroPowerUp (fun _ => zeroNets) 12) =
        (pathFpCtrl (run dynImage zeroPowerUp (fun _ => zeroNets)) 13).2 := by
  have hd : dispatchEn (run dynImage zeroPowerUp (fun _ => zeroNets) 11) = true := by decide +kernel
  exact ⟨hd, by decide +kernel, (fpCtrl_program_order dynImage zeroPowerUp _ 11 (by decide +kernel) hd).2.2.2⟩

end VMate.OooFpCtrl
