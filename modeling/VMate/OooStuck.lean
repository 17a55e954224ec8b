import VMate.OooSwitch

namespace VMate.OooStuck

open Decode Pipe RegFile RiscvTop DecodeFacts StageCtrl RobFifo OooTrap OooWindow OooTimeline OooComplete OooSerial
  OooSwitch

/-- Registers and data memory of `s` are those of `s₀`. -/
structure Frozen (s₀ s : State) : Prop where
  regs : s.regs = s₀.regs
  fpr : s.fpr = s₀.fpr
  dmem : s.dmem = s₀.dmem

theorem Frozen.trans {s₀ s₁ s₂ : State} (h : Frozen s₀ s₁) (h' : Frozen s₁ s₂) : Frozen s₀ s₂ :=
  ⟨h'.regs.trans h.regs, h'.fpr.trans h.fpr, h'.dmem.trans h.dmem⟩

section Step

variable {imem : Imem} {o : OpenNets} {s : State}

/-- What neither commits nor writes from MEM freezes the machine. -/
theorem frozen_step (hooo : oooEn s = true) (hc : commitEn s = true → (commitEntry s).exception = true)
    (hw : writesState s.exMem.ctrl = false) : Frozen s (tick imem o s) := by
  refine ⟨?_, ?_, dmem_frame hw⟩
  · refine intWrite_of_we_false ?_
    simp only [intPort, hooo, if_true]
    cases hcommit : commitEn s with
    | false => rfl
    | true => simp [hc hcommit]
  · refine fpWrite_of_we_false ?_
    simp only [fpPort, hooo, if_true]
    cases hcommit : commitEn s with
    | false => rfl
    | true => simp [hc hcommit]

end Step

section Reentry

variable {imem : Imem} {p : PowerUp} {o : Nat → OpenNets} {t v : Nat}

/-- What writes from MEM was dispatched into an empty buffer. -/
theorem writes_dispatch (hooo : oooEn (run imem p o v) = true) (hw : writesState (run imem p o v).exMem.ctrl = true) :
    ∃ n, v = n + 2 ∧ dispatchEn (run imem p o n) = true ∧ robEmpty (run imem p o n) = true := by
  have hval := validMem_of_ctrl hooo fun he => by
    rw [he] at hw
    cases hw
  obtain ⟨n, rfl, hd, hf1⟩ := dispatch_of_mem hval
  have hexMem : (run imem p o (n + 2)).exMem =
      exMemIn (idExIn (run imem p o n)) (operandsEx (run imem p o (n + 1))) (fcsrRmMem (run imem p o (n + 1))) := by
    rw [run, exMem_tick, hf1, run, idEx_dispatched hd]
    rfl
  have hws : writesState (ctrlId (run imem p o n)).toMemCtrl = true := by
    rw [hexMem] at hw
    exact hw
  exact ⟨n, rfl, hd, serial_robEmpty hd (.inl (decode_writesState hws).1)⟩

/-- Nothing is dispatched into the buffer that a later write would need. -/
theorem writes_of_wedged (hw : Wedged (run imem p o t)) (hoff : oooEn (run imem p o t) = false) (htv : t < v)
    (hooo : oooEn (run imem p o v) = true) : writesState (run imem p o v).exMem.ctrl = false := by
  by_contra hne
  obtain ⟨n, rfl, hd, hempty⟩ := writes_dispatch hooo (Bool.eq_true_of_not_eq_false hne)
  by_cases htn : t ≤ n
  · have hpos := (wedged_run hw htn).occupied
    have hzero : occ (run imem p o n) = 0 := count_of_robEmpty (trapInv_run imem p o n).wf hempty
    omega
  · -- dispatched in the cycle before the mode was off
    obtain rfl : t = n + 1 := by omega
    have hcsr := csrWrite_of_switch (dispatchEn_spec hd).1 hoff
    rw [dispatchEn_of_csrWriteMem hcsr] at hd
    cases hd

theorem on_of_wedged (hw : Wedged (run imem p o t)) (h : Rises (run imem p o) t) (htv : t < v) :
    oooEn (run imem p o v) = true := by
  induction v, htv using Nat.le_induction with
  | base => exact h.2
  | succ v htv ih =>
      have hquiet := writes_of_wedged hw h.1 htv ih
      simp only [writesState, Bool.or_eq_false_iff] at hquiet
      rw [run, oooEn_tick hquiet.2]
      exact ih

theorem frozen_of_wedged (hw : Wedged (run imem p o t)) (h : Rises (run imem p o) t) (htv : t < v) :
    Frozen (run imem p o (t + 1)) (run imem p o v) := by
  induction v, htv using Nat.le_induction with
  | base => exact ⟨rfl, rfl, rfl⟩
  | succ v htv ih =>
      have hooo := on_of_wedged hw h htv
      have hhead := (wedged_run hw (by omega : t ≤ v)).head
      refine ih.trans (frozen_step hooo (fun hc => ?_) (writes_of_wedged hw h.1 htv hooo))
      rw [commitEn_of_head hhead.1] at hc
      cases hc

end Reentry

/-- OoO mode cannot be entered twice. Once it has been left, the next switch
into it is the last thing the machine does: it stays in OoO mode for ever,
commits nothing, takes no trap and changes no register and no byte of memory. -/
theorem reentry_hangs (imem : Imem) (p : PowerUp) (o : Nat → OpenNets) (t : Nat) (h : Rises (run imem p o) t)
    (hbefore : ∃ u ≤ t, oooEn (run imem p o u) = true) : ∀ v > t,
      oooEn (run imem p o v) = true ∧ commitEn (run imem p o v) = false ∧ finalFlush (run imem p o v) = false ∧
        Frozen (run imem p o (t + 1)) (run imem p o v) := by
  obtain ⟨u, hut, hon⟩ := hbefore
  have hw := wedged_of_off hut hon h.1
  intro v htv
  have hooo := on_of_wedged hw h htv
  have hhead := (wedged_run hw (by omega : t ≤ v)).head
  exact ⟨hooo, commitEn_of_head hhead.1, finalFlush_of_head hooo hhead, frozen_of_wedged hw h htv⟩

/-- The program that switches the mode on, off and on again stops there. -/
theorem reentry_hangs_toggle : Rises (run toggleImage zeroPowerUp (fun _ => zeroNets)) 9 ∧
    ∀ v > 9, commitEn (run toggleImage zeroPowerUp (fun _ => zeroNets) v) = false :=
  ⟨⟨by decide +kernel, by decide +kernel⟩, fun v hv =>
    (reentry_hangs toggleImage zeroPowerUp (fun _ => zeroNets) 9 ⟨by decide +kernel, by decide +kernel⟩
      ⟨4, by omega, by decide +kernel⟩ v hv).2.1⟩

section Traps

variable {imem : Imem} {o : OpenNets} {s : State}

/-- A trap at slot 0: a flush moves the head there and leaves the exception bit. -/
structure Spinning (s : State) : Prop where
  on : oooEn s = true
  head : robHead s = 0#4
  exception : (s.rob.robData 0#4).exception = true

theorem Spinning.finalException (h : Spinning s) : finalException s = true := by
  rw [RiscvTop.finalException, if_pos h.on]
  change (s.rob.robData (robHead s)).exception = true
  rw [h.head]
  exact h.exception

theorem Spinning.finalFlush (h : Spinning s) : finalFlush s = true := by
  rw [RiscvTop.finalFlush, h.finalException]
  rfl

theorem oooEn_trap (hx : finalException s = true) : oooEn (tick imem o s) = oooEn s := by
  simp [oooEn, tick, CsrFile.csrTick, csrIn, hx]

theorem spinning_step (h : Spinning s) : Spinning (tick imem o s) := by
  have hrob : (tick imem o s).rob = _ := rob_tick_flush h.on h.finalFlush
  refine ⟨(oooEn_trap h.finalException).trans h.on, ?_, ?_⟩
  · rw [robHead, hrob]
    rfl
  · rw [hrob]
    exact h.exception

/-- Slot 0 holds an exception bit only while the head is there. -/
theorem slotZero_step (ht : TrapInv s) (h : (s.rob.robData 0#4).exception = true → robHead s = 0#4)
    (hx : ((tick imem o s).rob.robData 0#4).exception = true) : robHead (tick imem o s) = 0#4 := by
  cases hooo : oooEn s with
  | false =>
      have hrob : (tick imem o s).rob = s.rob := rob_tick_inOrder hooo
      rw [robHead, hrob]
      rw [hrob] at hx
      exact h hx
  | true =>
      cases hf : finalFlush s with
      | true =>
          rw [robHead, rob_tick_flush hooo hf]
          rfl
      | false =>
          have hexc : (robIn o s).exception = false := cdbException_eq ht hooo hf
          rw [rob_tick_data hooo hf, nextEntry_exception, hexc] at hx
          split_ifs at hx with hcomp hacc
          · rw [Bool.and_eq_true, accepts_robIn, beq_iff_eq] at hacc
            obtain ⟨hd, htail⟩ := hacc
            rw [← (trap_dispatched ht.wf hd hx).1]
            exact htail.symm
          · have hhead : (commitEntry s).exception = true := by
              change (s.rob.robData (robHead s)).exception = true
              rw [h hx]
              exact hx
            rw [finalFlush_of_exception hooo hhead] at hf
            cases hf

theorem slotZero_run (imem : Imem) (p : PowerUp) (o : Nat → OpenNets) (n : Nat)
    (hx : ((run imem p o n).rob.robData 0#4).exception = true) : robHead (run imem p o n) = 0#4 := by
  induction n with
  | zero => cases hx
  | succ n ih => exact slotZero_step (trapInv_run imem p o n) ih hx

/-- What a cycle of flushing leaves: no instruction anywhere. -/
structure Flushed (s : State) : Prop where
  ifId : s.ifId = {}
  exMem : s.exMem = {}
  commit : commitEn s = false

theorem flushed_tick (hooo : oooEn s = true) (hx : finalException s = true) : Flushed (tick imem o s) := by
  have hf : finalFlush s = true := by rw [finalFlush, hx]; rfl
  refine ⟨?_, ?_, ?_⟩
  · simp [tick, pipeTick, hf]
  · rw [exMem_tick, hf]
    rfl
  · apply commitEn_of_count_zero
    rw [rob_tick_flush hooo hf]
    rfl

theorem Spinning.frozen_step (h : Spinning s) (hq : Flushed s) : Frozen s (tick imem o s) := by
  refine OooStuck.frozen_step h.on (fun hc => ?_) ?_
  · rw [hq.commit] at hc
    cases hc
  · rw [hq.exMem]
    rfl

end Traps

section Spin

variable {imem : Imem} {p : PowerUp} {o : Nat → OpenNets} {t u : Nat}

theorem spinning_run (h : Spinning (run imem p o t)) (htu : t ≤ u) : Spinning (run imem p o u) := by
  induction u, htu using Nat.le_induction with
  | base => exact h
  | succ u _ ih => exact spinning_step ih

theorem flushed_of_spinning (h : Spinning (run imem p o t)) (htu : t < u) : Flushed (run imem p o u) := by
  obtain ⟨u, rfl⟩ : ∃ k, u = k + 1 := ⟨u - 1, by omega⟩
  have hs := spinning_run h (Nat.le_of_lt_succ htu)
  exact flushed_tick hs.on hs.finalException

theorem frozen_of_spinning (h : Spinning (run imem p o t)) (htu : t < u) :
    Frozen (run imem p o (t + 1)) (run imem p o u) := by
  induction u, htu using Nat.le_induction with
  | base => exact ⟨rfl, rfl, rfl⟩
  | succ u htu ih => exact ih.trans ((spinning_run h (by omega)).frozen_step (flushed_of_spinning h htu))

end Spin

/-- A trap in OoO mode ends after one cycle exactly if its instruction is not
in slot 0. From slot 0 it is taken again in every cycle for ever, and nothing
is dispatched, committed or written any more. -/
theorem trap_repeats_iff (imem : Imem) (p : PowerUp) (o : Nat → OpenNets) (t : Nat)
    (hooo : oooEn (run imem p o t) = true) (hx : finalException (run imem p o t) = true) :
    (finalException (run imem p o (t + 1)) = true ↔ robHead (run imem p o t) = 0#4) ∧
      (robHead (run imem p o t) = 0#4 → ∀ u > t, finalException (run imem p o u) = true ∧
        dispatchEn (run imem p o u) = false ∧ commitEn (run imem p o u) = false ∧
        Frozen (run imem p o (t + 1)) (run imem p o u)) := by
  have hentry : ((run imem p o t).rob.robData (robHead (run imem p o t))).exception = true := by
    rw [finalException, if_pos hooo] at hx
    exact hx
  have hspin (h0 : robHead (run imem p o t) = 0#4) : Spinning (run imem p o t) := by
    rw [h0] at hentry
    exact ⟨hooo, h0, hentry⟩
  refine ⟨⟨fun hagain => ?_, fun h0 => ?_⟩, fun h0 u htu => ?_⟩
  · have hf : finalFlush (run imem p o t) = true := by rw [finalFlush, hx]; rfl
    have hon : oooEn (run imem p o (t + 1)) = true := (oooEn_trap hx).trans hooo
    rw [finalException, if_pos hon] at hagain
    change ((tick imem (o t) (run imem p o t)).rob.robData (tick imem (o t) (run imem p o t)).rob.headPtr).exception =
      true at hagain
    rw [rob_tick_flush hooo hf] at hagain
    exact slotZero_run imem p o t hagain
  · exact (spinning_run (hspin h0) (Nat.le_succ t)).finalException
  · have hs := spinning_run (hspin h0) (Nat.le_of_lt htu)
    exact ⟨hs.finalException, dispatchEn_of_finalFlush hs.on hs.finalFlush, (flushed_of_spinning (hspin h0) htu).commit,
      frozen_of_spinning (hspin h0) htu⟩

/-- `ecall` as the first instruction in OoO mode. -/
def ecallImage : Imem := imageOf [csrOooOn, 0x00000073#32]

theorem trap_repeats_iff_ecall :
    finalException (run ecallImage zeroPowerUp (fun _ => zeroNets) (5 + 1)) = true ∧
      ∀ u > 5, finalException (run ecallImage zeroPowerUp (fun _ => zeroNets) u) = true := by
  have hspin := trap_repeats_iff ecallImage zeroPowerUp (fun _ => zeroNets) 5 (by decide +kernel) (by decide +kernel)
  have hhead : robHead (run ecallImage zeroPowerUp (fun _ => zeroNets) 5) = 0#4 := by decide +kernel
  exact ⟨hspin.1.mpr hhead, fun u hu => (hspin.2 hhead u hu).1⟩

end VMate.OooStuck
