import VMate.InOrderSim

namespace VMate.InOrderRun

open Decode Pipe RegFile RiscvTop SeqExec InOrder InOrderSim

variable {imem : Imem} {s s' : State} {a : Arch} {blocked : Bool}

section Draining

def Drained (s : State) : Prop := s.ifId = {} ∧ EmptyEx s ∧ EmptyMem s ∧ EmptyWb s

def archOf (s : State) : Arch := ⟨s.pc, s.regs, s.fpr, s.dmem, s.csr⟩

theorem emptyEx_of_idEx (h : s.idEx = {}) : EmptyEx s := by
  rw [EmptyEx, h]
  exact ⟨rfl, rfl, rfl, rfl⟩

theorem ifId_drain (hadv : Advances imem true s s') : s'.ifId = {} ∨ (stalls s = true ∧ s'.ifId = s.ifId) := by
  have hfront := congrArg Prod.snd hadv.front
  change s'.ifId = _ at hfront
  simp only [front, frontNext, if_true] at hfront
  split_ifs at hfront with hm hsel hst
  · exact .inl hfront
  · exact .inl hfront
  · exact .inr ⟨hst, hfront⟩
  · exact .inl hfront

theorem ifId_drain_of_empty (hadv : Advances imem true s s') (h : s.ifId = {}) : s'.ifId = {} := by
  rcases ifId_drain hadv with h' | ⟨-, h'⟩
  · exact h'
  · exact h'.trans h

theorem emptyEx_drain (hadv : Advances imem blocked s s') (h : s.ifId = {}) : EmptyEx s' := by
  have hidEx := hadv.idEx
  split_ifs at hidEx
  · exact emptyEx_of_idEx hidEx
  · rw [EmptyEx, hidEx]
    simp only [idExIn, ctrlId, h]
    exact ⟨rfl, rfl, rfl, rfl⟩

theorem emptyEx_of_stalls (hadv : Advances imem blocked s s') (h : stalls s = true) : EmptyEx s' :=
  emptyEx_of_idEx (by rw [hadv.idEx, h, Bool.or_true, if_pos rfl])

theorem emptyMem_drain (hadv : Advances imem blocked s s') (h : EmptyEx s) : EmptyMem s' := by
  cases hm : leavesMem s.exMem with
  | true =>
      rw [EmptyMem, hadv.exMem, hm]
      exact ⟨rfl, rfl, rfl, rfl⟩
  | false => exact emptyMem_step hm h hadv

theorem emptyWb_drain (hadv : Advances imem blocked s s') (h : EmptyMem s) : EmptyWb s' := by
  obtain ⟨-, hpc4, hi, hctrl⟩ := h
  rw [EmptyWb, hadv.memWb]
  split_ifs
  · exact ⟨rfl, rfl, rfl⟩
  · exact ⟨hpc4, hi, by simp [memWbIn, hctrl]⟩

theorem stalls_of_empty (hex : EmptyEx s) (hmem : EmptyMem s) : stalls s = false := by
  simp [stalls, Hazard.intLoadUse, Hazard.fpLoadUse, Hazard.csrHazard, Hazard.fflagsHazard, hazardIn, hex.2.2.2,
    hmem.2.2.2]

/-- An instruction waits in ID for at most the two instructions ahead of it,
so six blocked cycles empty the pipeline. -/
theorem drained_of_blocked {d : Nat → State} (hadv : ∀ k < 6, Advances imem true (d k) (d (k + 1))) :
    Drained (d 6) := by
  have hif : (d 3).ifId = {} := by
    rcases ifId_drain (hadv 0 (by omega)) with h1 | ⟨hst0, -⟩
    · exact ifId_drain_of_empty (hadv 2 (by omega)) (ifId_drain_of_empty (hadv 1 (by omega)) h1)
    · have hex1 := emptyEx_of_stalls (hadv 0 (by omega)) hst0
      rcases ifId_drain (hadv 1 (by omega)) with h2 | ⟨hst1, -⟩
      · exact ifId_drain_of_empty (hadv 2 (by omega)) h2
      · have hex2 := emptyEx_of_stalls (hadv 1 (by omega)) hst1
        have hmem2 := emptyMem_drain (hadv 1 (by omega)) hex1
        rcases ifId_drain (hadv 2 (by omega)) with h3 | ⟨hst2, -⟩
        · exact h3
        · rw [stalls_of_empty hex2 hmem2] at hst2
          cases hst2
  have hif4 := ifId_drain_of_empty (hadv 3 (by omega)) hif
  have hif5 := ifId_drain_of_empty (hadv 4 (by omega)) hif4
  have hif6 := ifId_drain_of_empty (hadv 5 (by omega)) hif5
  have hex4 := emptyEx_drain (hadv 3 (by omega)) hif
  have hex5 := emptyEx_drain (hadv 4 (by omega)) hif4
  have hex6 := emptyEx_drain (hadv 5 (by omega)) hif5
  have hmem5 := emptyMem_drain (hadv 4 (by omega)) hex4
  have hmem6 := emptyMem_drain (hadv 5 (by omega)) hex5
  have hwb6 := emptyWb_drain (hadv 5 (by omega)) hmem5
  exact ⟨hif6, hex6, hmem6, hwb6⟩

theorem fetch_ne_empty (q : BitVec 32) : fetch imem q ≠ {} := by
  intro h
  have hpc : q = 0#32 := congrArg IfId.pc h
  have hpc4 : q + 4#32 = 0#32 := congrArg IfId.pcPlus4 h
  rw [hpc] at hpc4
  exact absurd hpc4 (by decide)

theorem not_exHolds_of_emptyEx (hex : EmptyEx s) : ¬ ExHolds imem s a := by
  intro h
  have hpc : 0#32 = a.pc := hex.1.symm.trans h.pc
  have hpc4 : 0#32 = a.pc + 4#32 := hex.2.1.symm.trans h.pcPlus4
  rw [← hpc] at hpc4
  exact absurd hpc4 (by decide)

/-- An empty pipeline stands for its own architectural registers. -/
theorem archOf_of_drained (hd : Drained s) (hsim : Sim imem s a) : archOf s = a := by
  obtain ⟨hif, hex, hmem, hwb⟩ := hd
  have hpc : s.pc = a.pc := by
    have hmatch := hsim.ex (leavesMem_of_emptyMem hmem)
    rw [afterMem_of_emptyMem hmem] at hmatch
    rcases hmatch with ⟨-, hid⟩ | ⟨hholds, -⟩
    · rcases hid with ⟨-, hpc⟩ | ⟨hif', -⟩
      · exact hpc
      · exact absurd (hif'.symm.trans hif) (fetch_ne_empty _)
    · exact absurd hholds (not_exHolds_of_emptyEx hex)
  have hregs : a.regs = s.regs := hsim.regs.trans (intWrite_of_we_false (by rw [intWb, hwb.2.2]))
  have hfpr : a.fpr = s.fpr := hsim.fpr.trans (fpWrite_of_we_false (by rw [fpWb, hwb.2.2]))
  obtain ⟨pc, regs, fpr, dmem, csr⟩ := a
  simp only [archOf, Arch.mk.injEq]
  exact ⟨hpc, hregs.symm, hfpr.symm, hsim.dmem.symm, hsim.csr.symm⟩

end Draining

section Runs

/-- Fetch blocked for `k` cycles from the state `s`. -/
def drainRun (imem : Imem) (o : Nat → OpenNets) (s : State) : Nat → State
  | 0 => s
  | k + 1 => drainTick imem (o k) (drainRun imem o s k)

/-- How many of the first `n` states of a run have an instruction in MEM. -/
def retired (r : Nat → State) : Nat → Nat
  | 0 => 0
  | n + 1 => retired r n + (occupiedMem (r n)).toNat

theorem iterate_afterMem (m : Nat) :
    afterMem imem s ((execOne imem)^[m] a) = (execOne imem)^[m + (occupiedMem s).toNat] a := by
  unfold afterMem
  cases occupiedMem s with
  | false => rfl
  | true =>
      rw [if_pos rfl]
      exact (Function.iterate_succ_apply' _ _ _).symm

theorem sim_iterate {r : Nat → State} {bl : Bool} {n : Nat} (h : ∀ k < n, oooEn (r k) = false)
    (hadv : ∀ k < n, Advances imem bl (r k) (r (k + 1))) (hsim : Sim imem (r 0) a) :
    Sim imem (r n) ((execOne imem)^[retired r n] a) := by
  induction n with
  | zero => exact hsim
  | succ n ih =>
      have hprev := ih (fun k hk => h k (by omega)) (fun k hk => hadv k (by omega))
      rw [retired, ← iterate_afterMem]
      exact sim_step (h n (by omega)) hprev (hadv n (by omega))

theorem sim_reset (imem : Imem) (p : PowerUp) : Sim imem (reset p) (archReset p) := by
  refine ⟨?_, ?_, rfl, rfl, .inl ⟨rfl, rfl, rfl, rfl⟩, fun _ => .inl ⟨⟨rfl, rfl, rfl, rfl⟩, .inl ⟨rfl, rfl⟩⟩⟩
  · exact (intWrite_of_we_false rfl).symm
  · exact (fpWrite_of_we_false rfl).symm

theorem sim_run {p : PowerUp} {o : Nat → OpenNets} {n : Nat} (h : ∀ k < n, oooEn (run imem p o k) = false) :
    Sim imem (run imem p o n) ((execOne imem)^[retired (run imem p o) n] (archReset p)) :=
  sim_iterate h (fun k hk => tick_advances (h k hk)) (sim_reset imem p)

/-- Emptying the in-order pipeline after any number of cycles leaves exactly
the state that the instructions which went through MEM produce one by one. -/
theorem inOrder_drain_refines (imem : Imem) (p : PowerUp) (o o' : Nat → OpenNets) (n : Nat)
    (hrun : ∀ k ≤ n, oooEn (run imem p o k) = false)
    (hdrain : ∀ k < 6, oooEn (drainRun imem o' (run imem p o n) k) = false) :
    Drained (drainRun imem o' (run imem p o n) 6) ∧
      archOf (drainRun imem o' (run imem p o n) 6) =
        (execOne imem)^[retired (drainRun imem o' (run imem p o n)) 6 + retired (run imem p o) n] (archReset p) := by
  have hadv : ∀ k < 6, Advances imem true (drainRun imem o' (run imem p o n) k)
      (drainRun imem o' (run imem p o n) (k + 1)) := fun k hk => drainTick_advances (hdrain k hk)
  have hdrained := drained_of_blocked hadv
  have hsim := sim_iterate hdrain hadv (sim_run fun k hk => hrun k (by omega))
  rw [← Function.iterate_add_apply] at hsim
  exact ⟨hdrained, archOf_of_drained hdrained hsim⟩

/-- `addi x1, x0, 5; add x2, x1, x1`. -/
def addImage : Imem := imageOf [0x00500093#32, 0x00108133#32]

/-- Drained while the second instruction is in EX. -/
theorem inOrder_drain_refines_add :
    (∀ k ≤ 3, oooEn (run addImage zeroPowerUp (fun _ => zeroNets) k) = false) ∧
      (drainRun addImage (fun _ => zeroNets) (run addImage zeroPowerUp (fun _ => zeroNets) 3) 6).regs 2#5 = 10#32 ∧
      Drained (drainRun addImage (fun _ => zeroNets) (run addImage zeroPowerUp (fun _ => zeroNets) 3) 6) :=
  ⟨by decide +kernel, by decide +kernel,
    (inOrder_drain_refines _ zeroPowerUp (fun _ => zeroNets) (fun _ => zeroNets) 3 (by decide +kernel)
      (by decide +kernel)).1⟩

end Runs

section OneAtATime

theorem sim_of_drained (hd : Drained s) : Sim imem s (archOf s) := by
  obtain ⟨hif, hex, hmem, hwb⟩ := hd
  refine ⟨?_, ?_, rfl, rfl, .inl hmem, fun _ => .inl ⟨hex, .inl ⟨hif, ?_⟩⟩⟩
  · exact (intWrite_of_we_false (by rw [intWb, hwb.2.2])).symm
  · exact (fpWrite_of_we_false (by rw [fpWb, hwb.2.2])).symm
  · rw [afterMem_of_emptyMem hmem]
    rfl

/-- An instruction fetched into an empty pipeline passes MEM once, two cycles
after it has entered ID. -/
theorem retired_of_fetched {d : Nat → State} (hadv : ∀ k < 6, Advances imem true (d k) (d (k + 1)))
    (hif : (d 0).ifId = fetch imem (s.pc)) (hex : EmptyEx (d 0)) (hmem : EmptyMem (d 0)) : retired d 6 = 1 := by
  have hst := stalls_of_empty hex hmem
  have hif1 : (d 1).ifId = {} := by
    rcases ifId_drain (hadv 0 (by omega)) with h | ⟨h, -⟩
    · exact h
    · rw [hst] at h
      cases h
  have hif2 := ifId_drain_of_empty (hadv 1 (by omega)) hif1
  have hif3 := ifId_drain_of_empty (hadv 2 (by omega)) hif2
  have hmem1 := emptyMem_drain (hadv 0 (by omega)) hex
  have hmem3 := emptyMem_drain (hadv 2 (by omega)) (emptyEx_drain (hadv 1 (by omega)) hif1)
  have hmem4 := emptyMem_drain (hadv 3 (by omega)) (emptyEx_drain (hadv 2 (by omega)) hif2)
  have hmem5 := emptyMem_drain (hadv 4 (by omega)) (emptyEx_drain (hadv 3 (by omega)) hif3)
  have hocc2 : occupiedMem (d 2) = true := by
    have hidEx := (hadv 0 (by omega)).idEx
    rw [leavesMem_of_emptyMem hmem, pcSelEx_of_emptyEx hex, hst] at hidEx
    rw [occupiedMem, (hadv 1 (by omega)).exMem, leavesMem_of_emptyMem hmem1, if_neg Bool.false_ne_true, hidEx]
    simp only [Bool.or_self, Bool.false_eq_true, if_false, exMemIn, idExIn, hif]
    exact beq_self_eq_true _
  simp only [retired, occupiedMem_of_emptyMem hmem, occupiedMem_of_emptyMem hmem1, hocc2, occupiedMem_of_emptyMem hmem3,
    occupiedMem_of_emptyMem hmem4, occupiedMem_of_emptyMem hmem5]
  rfl

/-- The reference is the pipeline itself, given one instruction at a time:
fetching once and waiting until nothing is in flight is `execOne`. -/
theorem execOne_eq_drain {o : OpenNets} {o' : Nat → OpenNets} (hd : Drained s) (h : oooEn s = false)
    (hdrain : ∀ k < 6, oooEn (drainRun imem o' (tick imem o s) k) = false) :
    archOf (drainRun imem o' (tick imem o s) 6) = execOne imem (archOf s) := by
  have hadv0 : Advances imem false s (tick imem o s) := tick_advances h
  have hadv : ∀ k < 6, Advances imem true (drainRun imem o' (tick imem o s) k)
      (drainRun imem o' (tick imem o s) (k + 1)) := fun k hk => drainTick_advances (hdrain k hk)
  have hdrained := drained_of_blocked hadv
  have hstart : Sim imem s (archOf s) := sim_of_drained hd
  have hsim := sim_step h hstart hadv0
  obtain ⟨hif, hex, hmem, -⟩ := hd
  have hif' : (tick imem o s).ifId = fetch imem s.pc := by
    have hfront := congrArg Prod.snd hadv0.front
    simpa [front, frontNext, leavesMem_of_emptyMem hmem, pcSelEx_of_emptyEx hex, stalls_of_empty hex hmem] using hfront
  have hcount := retired_of_fetched hadv hif' (emptyEx_drain hadv0 hif) (emptyMem_drain hadv0 hex)
  rw [afterMem_of_emptyMem hmem] at hsim
  have hlast := sim_iterate hdrain hadv hsim
  rw [hcount] at hlast
  exact archOf_of_drained hdrained hlast

end OneAtATime

end VMate.InOrderRun
