import VMate.OooRefine
import VMate.OooSwitchWrite

namespace VMate.OooRun

open Decode Pipe RegFile RiscvTop SeqExec StageCtrl RobFifo OooTrap OooWindow OooTimeline OooSerial Speculate OooPath
  OooOperand OooExec OooPathStep OooRefine
open InOrderRun (retired sim_run)
open InOrderSim (Sim EmptyMem EmptyEx leavesMem_of_emptyMem afterMem_of_emptyMem)
open OooSwitchWrite (hasDest)

section Step

variable {imem : Imem} {o : OpenNets} {a0 : Arch} {pos : Nat → Slot} {s : State}

def stepPos (imem : Imem) (a0 : Arch) (s : State) (pos : Nat → Slot) : Nat → Slot :=
  if finalFlush s then restartPos pos else nextPos imem a0 s pos

variable (hp : OnPath imem a0 pos s) (hr : RunInv s) (hs : Sound o s) (hooo : oooEn s = true)

include hp hr hooo

theorem onPath_step (hs : Sound o s) : OnPath imem a0 (stepPos imem a0 s pos) (tick imem o s) := by
  rw [stepPos]
  cases hf : finalFlush s with
  | true => exact onPath_flush hp hr hs hooo hf
  | false => exact onPath_next hp hr hs hooo hf

omit hooo in
/-- A commit moves the oldest position on, and nothing moves it back. -/
theorem idx_step : (pos 0).idx + (commitEn s).toNat ≤ (stepPos imem a0 s pos 0).idx := by
  rw [stepPos]
  cases hf : finalFlush s with
  | true => exact Nat.add_le_add_left (Bool.toNat_le _) _
  | false => exact advance_idx hp.window (Nat.le_trans (Nat.le_add_right _ _) (commit_le hp hr))

/-- The oldest position moves over what is committed and over blank words. -/
theorem trace_step :
    refTrace imem a0 (stepPos imem a0 s pos 0).idx = refTrace imem a0 (pos 0).idx ++ commitsOf s := by
  have hsucc (hc : commitEn s = true) :
      refTrace imem a0 ((pos 0).idx + 1) = refTrace imem a0 (pos 0).idx ++ commitsOf s := by
    obtain ⟨-, -, he⟩ := head_entry hp hr hc
    rw [commitsOf_head hp hr hc]
    exact trace_succ he.present
  rw [stepPos]
  cases hf : finalFlush s with
  | true => exact hsucc (commit_of_flush hp hr hooo hf).1
  | false =>
      have hkept : refTrace imem a0 (nextPos imem a0 s pos 0).idx = refTrace imem a0 (pos (0 + (commitEn s).toNat)).idx :=
        advance_value (f := refTrace imem a0) (fun i => trace_skip) (Nat.le_trans (Nat.le_add_right _ _) (commit_le hp hr))
          (fun h => (blank_of_passes hp h).2) (Nat.zero_le _)
      rw [if_neg Bool.false_ne_true, hkept]
      cases hc : commitEn s with
      | false =>
          rw [commitsOf, hc, if_neg Bool.false_ne_true, List.append_nil]
          rfl
      | true =>
          obtain ⟨hpos, -⟩ := not_turn hp hr hooo hf hc
          rw [← hsucc hc]
          exact (hp.window.linked 0 hpos).value (f := refTrace imem a0) (fun i => trace_skip) hp.window.head

end Step

section Start

variable {imem : Imem} {p : PowerUp} {o : Nat → OpenNets} {b : Nat}
  (hoff : ∀ k < b, oooEn (run imem p o k) = false) (hon : oooEn (run imem p o b) = true)

/-- What the in-order pipeline has executed when OoO mode is entered. -/
def startArch (imem : Imem) (p : PowerUp) (o : Nat → OpenNets) (b : Nat) : Arch :=
  archAt imem (archReset p) (retired (run imem p o) b)

include hoff hon

/-- OoO mode is entered with nothing behind the instruction that enters it. -/
theorem empty_start : EmptyEx (run imem p o b) ∧ EmptyMem (run imem p o b) ∧ (run imem p o b).idEx = {} := by
  obtain _ | b := b
  · cases hon
  have hw := csrWrite_of_switch (hoff b (Nat.lt_succ_self b)) hon
  have hcsr := ((modeInv_run imem p o b).csrMem hw).1
  have hidEx : (run imem p o (b + 1)).idEx = {} := by
    rw [run, idEx_tick, holdsId, flushIdEx_of_csrHazard (by simp [Hazard.csrHazard, hazardIn, hw])]
    rfl
  refine ⟨?_, ?_, hidEx⟩
  · rw [EmptyEx, hidEx]
    exact ⟨rfl, rfl, rfl, rfl⟩
  · rw [EmptyMem, run, exMem_tick, hcsr]
    split_ifs <;> exact ⟨rfl, rfl, rfl, rfl⟩

theorem idle_start : (run imem p o b).rob = {} ∧ (run imem p o b).track.validEx = false ∧
    (run imem p o b).track.validMem = false ∧ (run imem p o b).track.validWb = false := by
  refine ⟨(OooSwitch.idle_run hoff).1, ?_⟩
  obtain _ | b := b
  · cases hon
  have hlast := hoff b (Nat.lt_succ_self b)
  have hinv : OooInv (run imem p o b) := oooInv_run fun t ht h => by
    rw [hoff t (by omega)] at h
    cases h
  obtain ⟨-, hex, hmem, -⟩ := hinv.idle hlast
  refine ⟨?_, ?_, ?_⟩
  · rw [run, validEx_tick, dispatchEn, hlast]
    rfl
  · rw [run, validMem_tick, hex, Bool.false_and]
  · rw [run, validWb_tick, hmem, Bool.false_and]

/-- The state in which OoO mode is entered stands for what the in-order
pipeline has executed, unless WB still has a register to write. -/
theorem onPath_start
    (hdest : hasDest (run imem p o b).memWb.ctrl (run imem p o b).memWb.instruction = false) :
    OnPath imem (startArch imem p o b) (fun _ => ⟨true, 0⟩) (run imem p o b) := by
  have hsim : Sim imem (run imem p o b) (startArch imem p o b) := sim_run hoff
  obtain ⟨hex, hmem, hidEx⟩ := empty_start hoff hon
  obtain ⟨hrob, hvE, hvM, hvW⟩ := idle_start hoff hon
  have hocc : occ (run imem p o b) = 0 := by
    rw [occ, hrob]
    rfl
  rw [hasDest, Bool.or_eq_false_iff] at hdest
  have hfront := hsim.ex (leavesMem_of_emptyMem hmem)
  rw [afterMem_of_emptyMem hmem] at hfront
  refine ⟨?_, ?_, ?_, hsim.dmem.symm, hsim.csr.symm, fun _ => ?_, fun k hk => ?_, fun hv => ?_, fun hv => ?_,
    fun hv => ?_, fun hv => ?_, fun j => ?_⟩
  · rw [hocc]
    exact window_start 0
  · refine (hsim.regs.trans ?_).symm
    rw [intWrite, if_neg]
    exact Bool.eq_false_iff.mp hdest.2
  · refine (hsim.fpr.trans ?_).symm
    exact fpWrite_of_we_false hdest.1
  · rcases hfront with ⟨-, h⟩ | ⟨h, -⟩
    · exact h
    · -- an instruction in EX has its link address filled in
      have hpc := h.pc
      have hpc4 := h.pcPlus4
      rw [hidEx] at hpc hpc4
      change 0#32 = (startArch imem p o b).pc at hpc
      change 0#32 = (startArch imem p o b).pc + 4#32 at hpc4
      rw [← hpc] at hpc4
      cases hpc4
  · rw [hocc] at hk
    exact absurd hk (Nat.not_lt_zero k)
  · rw [hvE] at hv
    cases hv
  · rw [hvM] at hv
    cases hv
  · rw [hvW] at hv
    cases hv
  · rw [hvW] at hv
    cases hv
  · rw [hrob]

end Start

section Run

/-- The window of the reference run `n` cycles after the mode switch. -/
def posAt (imem : Imem) (a0 : Arch) (r : Nat → State) (b : Nat) : Nat → Nat → Slot
  | 0 => fun _ => ⟨true, 0⟩
  | n + 1 => stepPos imem a0 (r (b + n)) (posAt imem a0 r b n)

/-- How many instructions of the reference have committed or were passed over by then. -/
def executed (imem : Imem) (a0 : Arch) (r : Nat → State) (b n : Nat) : Nat := (posAt imem a0 r b n 0).idx

/-- A run that enters OoO mode at `b` and stays in it up to `N` without
meeting what OoO mode cannot do. -/
structure Undisturbed (imem : Imem) (p : PowerUp) (o : Nat → OpenNets) (b N : Nat) : Prop where
  off : ∀ k < b, oooEn (run imem p o k) = false
  on : ∀ t, b ≤ t → t ≤ N → oooEn (run imem p o t) = true
  dest : hasDest (run imem p o b).memWb.ctrl (run imem p o b).memWb.instruction = false
  sound : ∀ t, b ≤ t → t < N → Sound (o t) (run imem p o t)

/-- The machine has executed the first `k` instructions of the reference.
Memory and CSRs are ahead of the registers while instructions are in flight. -/
structure Executed (imem : Imem) (a0 : Arch) (s : State) (k : Nat) : Prop where
  regs : s.regs = (archAt imem a0 k).regs
  fpr : s.fpr = (archAt imem a0 k).fpr
  memory : robEmpty s = true → s.dmem = (archAt imem a0 k).dmem ∧ s.csr = (archAt imem a0 k).csr

variable {imem : Imem} {p : PowerUp} {o : Nat → OpenNets} {b N n : Nat} (h : Undisturbed imem p o b N)

include h

theorem Undisturbed.stays : StaysOn imem p o N := by
  intro t ht hooo
  have hbt : b ≤ t := by
    by_contra hlt
    rw [h.off t (by omega)] at hooo
    cases hooo
  exact h.on (t + 1) (by omega) (by omega)

theorem Undisturbed.runInv (hn : b + n ≤ N) : RunInv (run imem p o (b + n)) :=
  runInv_run fun t ht => h.stays t (by omega)

theorem Undisturbed.onPath (hn : b + n ≤ N) :
    OnPath imem (startArch imem p o b) (posAt imem (startArch imem p o b) (run imem p o) b n) (run imem p o (b + n)) := by
  induction n with
  | zero => exact onPath_start h.off (h.on b (Nat.le_refl b) hn) h.dest
  | succ n ih =>
      have hlt : b + n < N := by omega
      exact onPath_step (ih (by omega)) (h.runInv (by omega)) (h.on _ (Nat.le_add_right b n) (by omega))
        (h.sound _ (Nat.le_add_right b n) hlt)

theorem Undisturbed.executed_mono (hn : b + n < N) :
    executed imem (startArch imem p o b) (run imem p o) b n + (commitEn (run imem p o (b + n))).toNat ≤
      executed imem (startArch imem p o b) (run imem p o) b (n + 1) :=
  idx_step (h.onPath (by omega)) (h.runInv (by omega))

omit h in
theorem executed_of_onPath {a0 : Arch} {pos : Nat → Slot} {s : State} (hp : OnPath imem a0 pos s) (hr : RunInv s) :
    Executed imem a0 s (pos 0).idx := by
  refine ⟨hp.regs, hp.fpr, fun he => ?_⟩
  have hocc : occ s = 0 := count_of_robEmpty hr.trap.wf he
  have hreach : reach imem a0 pos s = 0 := by
    rw [reach, hocc, Nat.zero_sub, Nat.zero_sub, ite_self]
  have hdmem := hp.dmem
  have hcsr := hp.csr
  rw [hreach] at hdmem hcsr
  exact ⟨hdmem, hcsr⟩

theorem Undisturbed.commits_eq (hn : b + n ≤ N) : emitted commitsOf (run imem p o) b n =
    refTrace imem (startArch imem p o b) (executed imem (startArch imem p o b) (run imem p o) b n) := by
  have hstep (m : Nat) (hm : m < n) :
      refTrace imem (startArch imem p o b) (executed imem (startArch imem p o b) (run imem p o) b (m + 1)) =
        refTrace imem (startArch imem p o b) (executed imem (startArch imem p o b) (run imem p o) b m) ++
          commitsOf (run imem p o (b + m)) :=
    trace_step (h.onPath (by omega)) (h.runInv (by omega)) (h.on _ (Nat.le_add_right b m) (by omega))
  rw [refTrace, emitted_eq hstep (Nat.le_refl n)]
  rfl

end Run

/-- The mode switch, `addi x1, x0, 5`, a branch over `addi x1, x0, 9`,
`add x2, x1, x1` and `sw x2, 0(x0)`. -/
def branchImage : Imem :=
  imageOf [csrOooOn, 0x00500093#32, 0x00000463#32, 0x00900093#32, 0x00108133#32, 0x00202023#32]

/-- The contended net settles to the branch target. -/
def branchNets : OpenNets := { completeInstruction := 0, contended := 0x80000010#32 }

theorem undisturbed_branch : Undisturbed branchImage zeroPowerUp (fun _ => branchNets) 4 (4 + 12) where
  off := by decide +kernel
  on t hbt htN := by
    have h : ∀ u < 17, 4 ≤ u → oooEn (run branchImage zeroPowerUp (fun _ => branchNets) u) = true := by decide +kernel
    exact h t (by omega) hbt
  dest := by decide +kernel
  sound t hbt htN := by
    have h : ∀ u < 16, 4 ≤ u → Sound branchNets (run branchImage zeroPowerUp (fun _ => branchNets) u) := by
      decide +kernel
    exact h t htN hbt

end VMate.OooRun
