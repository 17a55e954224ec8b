import VMate.OooRun
import VMate.OooOrder
import VMate.OooSpace

namespace VMate.Progress

open Decode Pipe RiscvTop SeqExec StageCtrl OooTrap OooWindow OooTimeline OooSerial Speculate OooPath OooOperand
  OooPathStep OooRefine OooRun
open InOrder (Advances stalls front frontNext tick_advances)
open InOrderSim
open InOrderRun (retired sim_run stalls_of_empty not_exHolds_of_emptyEx fetch_ne_empty)

section InOrder

variable {imem : Imem} {s s' s'' : State} {a : Arch}

/-- With nothing in EX and MEM the front end delivers. -/
theorem front_of_empty (hex : EmptyEx s) (hmem : EmptyMem s) (hadv : Advances imem false s s') :
    s'.ifId = fetch imem s.pc ∧ s'.idEx = idExIn s := by
  have hm := leavesMem_of_emptyMem hmem
  have hsel := pcSelEx_of_emptyEx hex
  have hst := stalls_of_empty hex hmem
  have hfront := hadv.front
  have hidEx := hadv.idEx
  rw [front, hm, hsel, hst, frontNext] at hfront
  rw [hm, hsel, hst] at hidEx
  exact ⟨congrArg Prod.snd hfront, hidEx⟩

theorem not_emptyEx_of_fetch {q : BitVec 32} (h : s.ifId = fetch imem q) (hidEx : s'.idEx = idExIn s) :
    ¬ EmptyEx s' := by
  rintro ⟨hpc, hpc4, -⟩
  rw [hidEx] at hpc hpc4
  change s.ifId.pc = 0#32 at hpc
  change s.ifId.pcPlus4 = 0#32 at hpc4
  rw [h] at hpc hpc4
  change q = 0#32 at hpc
  change q + 4#32 = 0#32 at hpc4
  rw [hpc] at hpc4
  cases hpc4

/-- While MEM stays empty nothing has been in EX. -/
theorem emptyEx_of_unoccupied (h : oooEn s = false) (hsim : Sim imem s a) (hmem : EmptyMem s)
    (hadv : Advances imem false s s') (hocc : occupiedMem s' = false) : EmptyEx s := by
  have hm := leavesMem_of_emptyMem hmem
  rcases hsim.ex hm with ⟨hex, -⟩ | ⟨hex, -⟩
  · exact hex
  · rw [occupiedMem_of_holds (exMem_step h hsim hm hex hadv)] at hocc
    cases hocc

theorem emptyMem_of_unoccupied (hsim : Sim imem s a) (hocc : occupiedMem s = false) : EmptyMem s := by
  rcases hsim.mem with h | h
  · exact h
  · rw [occupiedMem_of_holds h] at hocc
    cases hocc

variable {p : PowerUp} {o : Nat → OpenNets} {n N : Nat} (hoff : ∀ k < N, oooEn (run imem p o k) = false)

include hoff

theorem occupied_within (hn : n + 4 ≤ N) : ∃ m < 4, occupiedMem (run imem p o (n + m)) = true := by
  by_contra hno
  have hunocc (m : Nat) (hm : m < 4) : occupiedMem (run imem p o (n + m)) = false :=
    Bool.eq_false_iff.mpr fun hocc => hno ⟨m, hm, hocc⟩
  have hmem (m : Nat) (hm : m < 4) : EmptyMem (run imem p o (n + m)) :=
    emptyMem_of_unoccupied (sim_run (n := n + m) fun k hk => hoff k (by omega)) (hunocc m hm)
  have hadv (m : Nat) (hm : m < 4) : Advances imem false (run imem p o (n + m)) (run imem p o (n + (m + 1))) :=
    tick_advances (hoff (n + m) (by omega))
  have hex (m : Nat) (hm : m < 3) : EmptyEx (run imem p o (n + m)) :=
    emptyEx_of_unoccupied (hoff (n + m) (by omega)) (sim_run (n := n + m) fun k hk => hoff k (by omega))
      (hmem m (by omega)) (hadv m (by omega)) (hunocc (m + 1) (by omega))
  have hif1 := (front_of_empty (hex 0 (by omega)) (hmem 0 (by omega)) (hadv 0 (by omega))).1
  have hidEx2 := (front_of_empty (hex 1 (by omega)) (hmem 1 (by omega)) (hadv 1 (by omega))).2
  exact not_emptyEx_of_fetch hif1 hidEx2 (hex 2 (by omega))

omit hoff in
theorem retired_le (r : Nat → State) (n : Nat) : retired r n ≤ n := by
  induction n with
  | zero => exact Nat.le_refl _
  | succ n ih =>
      have h := Bool.toNat_le (occupiedMem (r n))
      rw [retired]
      omega

omit hoff in
theorem retired_mono (r : Nat → State) (n : Nat) : retired r n ≤ retired r (n + 1) := Nat.le_add_right _ _

theorem retired_grows (hn : n + 4 ≤ N) : retired (run imem p o) n < retired (run imem p o) (n + 4) := by
  obtain ⟨m, hm, hocc⟩ := occupied_within hoff hn
  have hstep : retired (run imem p o) (n + m) < retired (run imem p o) (n + m + 1) := by
    rw [retired, hocc]
    exact Nat.lt_succ_self _
  have hbefore : retired (run imem p o) n ≤ retired (run imem p o) (n + m) :=
    le_of_steps (N := n + m) (fun k _ => retired_mono _ k) (Nat.le_add_right n m) (Nat.le_refl _)
  have hbehind : retired (run imem p o) (n + m + 1) ≤ retired (run imem p o) (n + 4) :=
    le_of_steps (N := n + 4) (fun k _ => retired_mono _ k) (by omega) (Nat.le_refl _)
  omega

end InOrder

/-- In in-order mode the pipeline is always at some point of the reference
run, moves over at most one instruction in a cycle and over at least one in
any four. -/
theorem inOrder_rate (imem : Imem) (p : PowerUp) (o : Nat → OpenNets) (n : Nat)
    (h : ∀ k < n, oooEn (run imem p o k) = false) :
    Sim imem (run imem p o n) (archAt imem (archReset p) (retired (run imem p o) n)) ∧
      retired (run imem p o) n ≤ n ∧
      ∀ m k, m + 4 * k ≤ n → retired (run imem p o) m + k ≤ retired (run imem p o) (m + 4 * k) :=
  ⟨sim_run h, retired_le _ n, fun _ k hmk => add_le_of_grows (fun _ hn => retired_grows h hn) k hmk⟩

/-- `jal x0, 0`. -/
def loopImage : Imem := imageOf [0x0000006f#32]

/-- A jump to itself takes three cycles. -/
theorem inOrder_rate_loop :
    retired (run loopImage zeroPowerUp (fun _ => zeroNets)) 1 + 2 ≤
        retired (run loopImage zeroPowerUp (fun _ => zeroNets)) 9 ∧
      retired (run loopImage zeroPowerUp (fun _ => zeroNets)) 9 = 2 :=
  ⟨(inOrder_rate loopImage zeroPowerUp (fun _ => zeroNets) 9 (by decide +kernel)).2.2 1 2 (by omega), by decide +kernel⟩

section Idle

variable {imem : Imem} {o : OpenNets} {a0 : Arch} {pos : Nat → Slot} {s : State}
  (hp : OnPath imem a0 pos s) (hr : RunInv s) (hooo : oooEn s = true) (hocc : occ s = 0)

include hr hocc

theorem stages_of_idle : s.track.validEx = false ∧ s.track.validMem = false := by
  constructor <;> by_contra hv
  · obtain ⟨k, hk, -⟩ := hr.inv.ex (by simpa using hv)
    omega
  · obtain ⟨k, hk, -⟩ := hr.inv.mem (by simpa using hv)
    omega

include hooo

theorem stalls_of_idle : stalls s = false := by
  obtain ⟨hvE, hvM⟩ := stages_of_idle hr hocc
  have hex := (hr.bubbles.ex hooo hvE).2
  have hmem := (hr.bubbles.mem hooo hvM).2
  simp [stalls, Hazard.intLoadUse, Hazard.fpLoadUse, Hazard.csrHazard, Hazard.fflagsHazard, hazardIn, hex, hmem]

include hp

theorem finalFlush_of_idle : finalFlush s = false := by
  by_contra hf
  have hc := (commit_of_flush hp hr hooo (by simpa using hf)).1
  have hpos := ((commitEn_eq hr.trap.wf).mp hc).1
  omega

/-- With nothing in flight ID is never held back. -/
theorem stallIfId_of_idle (hiq : Iq.iqFull s.iq = false) : stallIfId s = false := by
  have hempty : robEmpty s = true := by
    have hfull : robFull s = false := OooSpace.robFull_of_occ (by omega)
    have hslot := robIdxDisp_eq hr.trap.wf
    rw [hocc, slot_zero] at hslot
    rw [robEmpty, hslot, hfull, beq_self_eq_true]
    rfl
  have hstall : stallDispatch s = false := by
    rw [stallDispatch, hempty, hiq, OooSpace.robFull_of_occ (by omega)]
    simp
  rw [stallIfId, hstall, hazard_quiet hooo (finalFlush_of_idle hp hr hooo hocc), stalls_of_idle hr hooo hocc]
  rfl

/-- With nothing in flight the next word is fetched. -/
theorem fetch_of_idle (hiq : Iq.iqFull s.iq = false) : (tick imem o s).ifId = fetch imem s.pc := by
  rw [(front_tick imem o hooo (finalFlush_of_idle hp hr hooo hocc) hr.trap).1, stallIfId_of_idle hp hr hooo hocc hiq]
  rfl

/-- A fetched word leaves ID as soon as nothing is in flight. -/
theorem idle_fetched (hiq : Iq.iqFull s.iq = false) (hpc4 : s.ifId.pcPlus4 = s.ifId.pc + 4#32) :
    dispatchEn s = true ∨ (stepPos imem a0 s pos 0).idx = (pos 0).idx + 1 := by
  have hf := finalFlush_of_idle hp hr hooo hocc
  have hstall := stallIfId_of_idle hp hr hooo hocc hiq
  have hdisp := dispatchEn_quiet hooo hf
  rw [hstall, Bool.not_false, Bool.and_true] at hdisp
  cases hd : dispatchEn s with
  | true => exact .inl rfl
  | false =>
      right
      rw [hd] at hdisp
      have hword : s.ifId.instruction = 0#32 := by simpa using hdisp.symm
      have hpasses : blankPasses s = true := by simp [blankPasses, hstall, hword, hpc4]
      have hc : commitEn s = false := by
        rw [Bool.eq_false_iff]
        intro hc
        have hpos := ((commitEn_eq hr.trap.wf).mp hc).1
        omega
      have hblank : advance (refPath imem a0) (occ s) false false true pos (occ s - 0) = ⟨true, (pos (occ s)).idx + 1⟩ :=
        advance_blank (Nat.zero_le _)
      rw [hocc] at hblank
      rw [stepPos, hf, if_neg Bool.false_ne_true, nextPos, hocc, hd, hc, hpasses, hp.window.head]
      exact congrArg Slot.idx hblank

end Idle

section OutOfOrder

variable {imem : Imem} {p : PowerUp} {o : Nat → OpenNets} {b N n : Nat} (h : Undisturbed imem p o b N)

include h

/-- What is in flight commits or makes way for a flush, which a commit causes. -/
theorem commit_within (hn : b + n + 4 ≤ N) (hocc : 0 < occ (run imem p o (b + n))) :
    ∃ m < 4, commitEn (run imem p o (b + n + m)) = true := by
  have hr := oooTrace_run h.stays
  have hv := entryAt_valid (hr.trap (b + n)).wf hocc
  obtain ⟨d, hd, hdisp, -, halive⟩ := OooOrder.owner_of_valid hr rfl (by omega) hv
  obtain ⟨v, hv, hfate⟩ := fate hr hdisp (by omega)
  have hle : b + n ≤ v := by
    by_contra hlt
    have hdv : d < v := hfate.elim (fun hc => hc.1) (fun hf => hf.1)
    obtain ⟨hf, hc⟩ := halive v (by omega) hdv
    rcases hfate with hcommit | hflush
    · exact hc hcommit.2.2
    · rw [hflush.2.2.1] at hf
      cases hf
  obtain ⟨m, rfl⟩ : ∃ m, v = b + n + m := ⟨v - (b + n), by omega⟩
  refine ⟨m, by omega, ?_⟩
  rcases hfate with hcommit | hflush
  · exact hcommit.2.2.1
  · rw [Nat.add_assoc] at hflush ⊢
    exact (commit_of_flush (h.onPath (by omega)) (h.runInv (by omega)) (h.on _ (by omega) (by omega)) hflush.2.2.1).1

theorem executed_of_commit {m : Nat} (hn : b + n + m < N) (hc : commitEn (run imem p o (b + n + m)) = true) :
    executed imem (startArch imem p o b) (run imem p o) b n <
      executed imem (startArch imem p o b) (run imem p o) b (n + m + 1) := by
  have hbefore := le_of_steps (f := executed imem (startArch imem p o b) (run imem p o) b) (N := n + m)
    (fun k hk => Nat.le_trans (Nat.le_add_right _ _) (h.executed_mono (n := k) (by omega))) (Nat.le_add_right n m)
    (Nat.le_refl _)
  have hstep := h.executed_mono (n := n + m) (by omega)
  rw [← Nat.add_assoc, hc, Bool.toNat_true] at hstep
  omega

theorem iqFull_false (hn : b + n ≤ N) : Iq.iqFull (run imem p o (b + n)).iq = false :=
  OooSpace.iqFull_of_one (OooSpace.iqInv_run fun t ht => h.stays t (by omega)).one

theorem executed_mono {m : Nat} (hmn : m ≤ n) (hn : b + n ≤ N) :
    executed imem (startArch imem p o b) (run imem p o) b m ≤ executed imem (startArch imem p o b) (run imem p o) b n :=
  le_of_steps (N := n) (fun k hk => Nat.le_trans (Nat.le_add_right _ _) (h.executed_mono (n := k) (by omega))) hmn
    (Nat.le_refl n)

theorem executed_of_occ (hn : b + n + 4 ≤ N) (hocc : 0 < occ (run imem p o (b + n))) :
    executed imem (startArch imem p o b) (run imem p o) b n <
      executed imem (startArch imem p o b) (run imem p o) b (n + 4) := by
  obtain ⟨m, hm, hc⟩ := commit_within h hn hocc
  exact Nat.lt_of_lt_of_le (executed_of_commit h (by omega) hc) (executed_mono h (by omega) (by omega))

theorem occ_of_idle (hn : b + n < N) (hocc : occ (run imem p o (b + n)) = 0) :
    occ (run imem p o (b + (n + 1))) = (dispatchEn (run imem p o (b + n))).toNat := by
  have hp := h.onPath (n := n) (by omega)
  have hr := h.runInv (n := n) (by omega)
  have hon := h.on (b + n) (Nat.le_add_right b n) (by omega)
  have hnext := occ_next hp hr hon (finalFlush_of_idle hp hr hon hocc) (o (b + n))
  rwa [hocc, Nat.zero_sub, Nat.zero_add] at hnext

/-- Six cycles are enough: two to fetch and dispatch, four to commit. -/
theorem executed_grows (hn : b + n + 6 ≤ N) : executed imem (startArch imem p o b) (run imem p o) b n <
    executed imem (startArch imem p o b) (run imem p o) b (n + 6) := by
  have hgrows (m : Nat) (hm : m ≤ 2) (hocc : 0 < occ (run imem p o (b + (n + m)))) :
      executed imem (startArch imem p o b) (run imem p o) b n <
        executed imem (startArch imem p o b) (run imem p o) b (n + 6) :=
    Nat.lt_of_le_of_lt (executed_mono h (Nat.le_add_right n m) (by omega))
      (Nat.lt_of_lt_of_le (executed_of_occ h (by omega) hocc) (executed_mono h (by omega) (by omega)))
  rcases Nat.eq_zero_or_pos (occ (run imem p o (b + n))) with hocc | hocc
  · have hocc1 := occ_of_idle h (by omega) hocc
    cases hd : dispatchEn (run imem p o (b + n)) with
    | true => exact hgrows 1 (by omega) (by rw [hocc1, hd]; exact Nat.one_pos)
    | false =>
        rw [hd, Bool.toNat_false] at hocc1
        have hif : (run imem p o (b + (n + 1))).ifId = fetch imem (run imem p o (b + n)).pc :=
          fetch_of_idle (h.onPath (by omega)) (h.runInv (by omega)) (h.on (b + n) (Nat.le_add_right b n) (by omega)) hocc
            (iqFull_false h (by omega))
        rcases idle_fetched (h.onPath (n := n + 1) (by omega)) (h.runInv (by omega)) (h.on _ (by omega) (by omega)) hocc1
          (iqFull_false h (by omega)) (by rw [hif]; rfl) with hd1 | hidx
        · have hocc2 := occ_of_idle h (by omega) hocc1
          exact hgrows 2 (by omega) (by rw [hocc2, hd1]; exact Nat.one_pos)
        · have hstep : executed imem (startArch imem p o b) (run imem p o) b (n + 2) =
              executed imem (startArch imem p o b) (run imem p o) b (n + 1) + 1 := hidx
          have hbefore := executed_mono h (Nat.le_add_right n 1) (by omega)
          have hbehind := executed_mono h (show n + 2 ≤ n + 6 by omega) (by omega)
          omega
  · exact hgrows 0 (by omega) hocc

end OutOfOrder

end VMate.Progress
