import VMate.OooWindow

namespace VMate.OooTimeline

open Decode Pipe RiscvTop DecodeFacts StageCtrl RobFifo OooTrap OooWindow

section Fates

/-- Up to cycle `t` the instruction dispatched at `n` is neither committed nor flushed. -/
def Alive (r : Nat → State) (n t : Nat) : Prop :=
  ∀ u < t, n < u → finalFlush (r u) = false ∧ ¬ (commitEn (r u) = true ∧ robHead (r u) = robIdxDisp (r n))

def CommitsAt (r : Nat → State) (n v : Nat) : Prop :=
  n < v ∧ Alive r n v ∧ commitEn (r v) = true ∧ robHead (r v) = robIdxDisp (r n)

def FlushedAt (r : Nat → State) (n f : Nat) : Prop :=
  n < f ∧ Alive r n f ∧ finalFlush (r f) = true ∧ ¬ (commitEn (r f) = true ∧ robHead (r f) = robIdxDisp (r n))

instance (r : Nat → State) (n t : Nat) : Decidable (Alive r n t) :=
  inferInstanceAs (Decidable (∀ u < t, n < u → _))

instance (r : Nat → State) (n v : Nat) : Decidable (CommitsAt r n v) := inferInstanceAs (Decidable (_ ∧ _))

instance (r : Nat → State) (n f : Nat) : Decidable (FlushedAt r n f) := inferInstanceAs (Decidable (_ ∧ _))

/-- A run in which the mode is not switched off again up to cycle `N`, with its invariants. -/
structure OooTrace (imem : Imem) (o : Nat → OpenNets) (N : Nat) (r : Nat → State) : Prop where
  step : ∀ t, r (t + 1) = tick imem (o t) (r t)
  trap : ∀ t, TrapInv (r t)
  inv : ∀ t ≤ N, OooInv (r t)
  on : ∀ t < N, oooEn (r t) = true → oooEn (r (t + 1)) = true

theorem oooTrace_run {imem : Imem} {p : PowerUp} {o : Nat → OpenNets} {N : Nat} (h : StaysOn imem p o N) :
    OooTrace imem o N (run imem p o) where
  step _ := rfl
  trap := trapInv_run imem p o
  inv _ ht := oooInv_run fun u hu => h u (by omega)
  on := h

end Fates

section Stages

variable {imem : Imem} {o : Nat → OpenNets} {N n : Nat} {r : Nat → State}
  (hr : OooTrace imem o N r) (hd : dispatchEn (r n) = true)

include hr

theorem on_of_le {t u : Nat} (htu : t ≤ u) (hu : u ≤ N) (hooo : oooEn (r t) = true) : oooEn (r u) = true := by
  induction u, htu using Nat.le_induction with
  | base => exact hooo
  | succ u htu ih => exact hr.on u (by omega) (ih (by omega))

include hd

theorem ooo_after {t : Nat} (ht : n ≤ t) (htN : t ≤ N) : oooEn (r t) = true :=
  on_of_le hr ht htN (dispatchEn_spec hd).1

theorem ex_of_dispatch : (r (n + 1)).track.validEx = true ∧ (r (n + 1)).track.robIdxEx = robIdxDisp (r n) ∧
    (r (n + 1)).idEx = idExIn (r n) := by
  obtain ⟨-, hf, hflush, -⟩ := dispatchEn_spec hd
  rw [hr.step n, track_tick hf, hflush, idEx_dispatched hd]
  exact ⟨hd, rfl, rfl⟩

theorem mem_of_dispatch (hf1 : finalFlush (r (n + 1)) = false) :
    (r (n + 2)).track.validMem = true ∧ (r (n + 2)).track.robIdxMem = robIdxDisp (r n) ∧
      (r (n + 2)).track.cdbDoneMem = grantEx (r (n + 1)) ∧
      (r (n + 2)).exMem = exMemIn (r (n + 1)).idEx (operandsEx (r (n + 1))) (fcsrRmMem (r (n + 1))) := by
  obtain ⟨hv, hidx, -⟩ := ex_of_dispatch hr hd
  rw [hr.step (n + 1), track_tick hf1, exMem_tick, hf1]
  exact ⟨hv, hidx, rfl, rfl⟩

theorem wb_of_dispatch (hf1 : finalFlush (r (n + 1)) = false) (hf2 : finalFlush (r (n + 2)) = false) :
    (r (n + 3)).track.validWb = true ∧ (r (n + 3)).track.robIdxWb = robIdxDisp (r n) ∧
      (r (n + 3)).track.cdbDoneWb = (grantEx (r (n + 1)) || grantMem (r (n + 2))) ∧
      (r (n + 3)).memWb = memWbIn (r (n + 2)).exMem (dmemRdataMem (r (n + 2))) (csrRdataMem (r (n + 2))) := by
  obtain ⟨hv, hidx, hdone, -⟩ := mem_of_dispatch hr hd hf1
  rw [hr.step (n + 2), track_tick hf2, memWb_tick, hf2]
  exact ⟨hv, hidx, by rw [hdone], rfl⟩

end Stages

section Entry

variable {imem : Imem} {o : OpenNets} {s : State}

variable (imem o) in
/-- Nothing is dispatched into an occupied slot, so its payload stays. -/
theorem payload_tick (hwf : WellFormed s.rob) {j : BitVec 4} (hv : (s.rob.robData j).valid = true) :
    payload ((tick imem o s).rob.robData j) = payload (s.rob.robData j) ∧
      (tick imem o s).robRegWriteArray j = s.robRegWriteArray j := by
  have hne : dispatchEn s = true → j ≠ robIdxDisp s := by
    rintro hd rfl
    rw [robIdxDisp_free hwf hd] at hv
    cases hv
  constructor
  · cases hooo : oooEn s with
    | false => rw [rob_tick_inOrder hooo]
    | true =>
        cases hf : finalFlush s with
        | true => rw [rob_tick_flush hooo hf]; rfl
        | false =>
            rw [rob_tick_data hooo hf, nextEntry_payload, accepts_robIn, if_neg]
            intro h
            rw [Bool.and_eq_true, beq_iff_eq] at h
            exact hne h.1 h.2
  · simp only [tick]
    split_ifs with hd
    · exact Function.update_of_ne (hne hd) _ _
    · rfl

/-- An entry stays in the buffer until it commits or a flush clears it. -/
theorem valid_tick (hooo : oooEn s = true) (hf : finalFlush s = false) {j : BitVec 4}
    (hv : (s.rob.robData j).valid = true) (hc : ¬ (commitEn s = true ∧ robHead s = j)) :
    ((tick imem o s).rob.robData j).valid = true := by
  rw [rob_tick_data hooo hf, nextEntry_valid, retires_robIn, if_neg, hv]
  · split_ifs <;> rfl
  · intro h
    rw [Bool.and_eq_true, beq_iff_eq] at h
    exact hc ⟨h.1, h.2.symm⟩

theorem exception_tick (ht : TrapInv s) (hooo : oooEn s = true) (hf : finalFlush s = false) {j : BitVec 4}
    (hv : (s.rob.robData j).valid = true) (he : (s.rob.robData j).exception = false) :
    ((tick imem o s).rob.robData j).exception = false := by
  have hexc : (robIn o s).exception = false := cdbException_eq ht hooo hf
  rw [rob_tick_data hooo hf, nextEntry_exception, hexc, accepts_robIn, he]
  split_ifs with hcomp hacc
  · rfl
  · rw [Bool.and_eq_true, beq_iff_eq] at hacc
    have hfree := robIdxDisp_free ht.wf hacc.1
    rw [robIdxDisp, ← hacc.2, hv] at hfree
    cases hfree
  · rfl

/-- Only a broadcast to its slot completes an occupied entry and sets its outcome. -/
theorem outcome_tick (hwf : WellFormed s.rob) (hooo : oooEn s = true) (hf : finalFlush s = false) {j : BitVec 4}
    (hv : (s.rob.robData j).valid = true) (hc : ¬ (commitEn s = true ∧ robHead s = j))
    (hcomp : ((tick imem o s).rob.robData j).completed = true) :
    (cdbEn s = true ∧ cdbRobIdx s = j ∧
        outcome ((tick imem o s).rob.robData j) = (cdbData o s, cdbPcSel s, cdbPcTarget s)) ∨
      ((s.rob.robData j).completed = true ∧ outcome ((tick imem o s).rob.robData j) = outcome (s.rob.robData j)) := by
  rw [rob_tick_data hooo hf] at hcomp ⊢
  rw [nextEntry_outcome]
  by_cases hhit : (Rob.completes s.rob (robIn o s) && j == (robIn o s).completeIdx) = true
  · left
    rw [if_pos hhit]
    simp only [Rob.completes, Bool.and_eq_true, beq_iff_eq] at hhit
    exact ⟨hhit.1.1, hhit.2.symm, rfl⟩
  · right
    rw [if_neg hhit]
    refine ⟨?_, rfl⟩
    rw [nextEntry_completed, retires_robIn, accepts_robIn, if_neg, if_neg hhit, if_neg] at hcomp
    · exact hcomp
    · intro h
      rw [Bool.and_eq_true, beq_iff_eq] at h
      have hfree := robIdxDisp_free hwf h.1
      rw [robIdxDisp, ← h.2, hv] at hfree
      cases hfree
    · intro h
      rw [Bool.and_eq_true, beq_iff_eq] at h
      exact hc ⟨h.1, h.2.symm⟩

variable (imem o) in
theorem dispatched_tick (hwf : WellFormed s.rob) (hd : dispatchEn s = true) :
    ((tick imem o s).rob.robData (robIdxDisp s)).valid = true ∧
      ((tick imem o s).rob.robData (robIdxDisp s)).exception = (ctrlId s).exception ∧
      payload ((tick imem o s).rob.robData (robIdxDisp s)) = dispatchPayload (robIn o s) ∧
      (tick imem o s).robRegWriteArray (robIdxDisp s) = ((ctrlId s).regWrite || (ctrlId s).fpWe) := by
  obtain ⟨hooo, hf, -⟩ := dispatchEn_spec hd
  have hacc : Rob.accepts s.rob (robIn o s) = true := by rw [accepts_robIn, hd]
  rw [rob_tick_data hooo hf, robIdxDisp]
  refine ⟨?_, ?_, ?_, ?_⟩
  · simp [nextEntry_valid, retires_ne_tail hwf hd, hacc]
  · rw [nextEntry_exception, completes_ne_tail hwf hd, hacc]
    simp [robIn]
  · simp [nextEntry_payload, hacc]
  · simp [tick, hd, robIdxDisp]

end Entry

section Fate

variable {imem : Imem} {o : Nat → OpenNets} {N n : Nat} {r : Nat → State}
  (hr : OooTrace imem o N r) (hd : dispatchEn (r n) = true)

theorem alive_mono {t u : Nat} (htu : t ≤ u) (h : Alive r n u) : Alive r n t := fun v hv => h v (by omega)

theorem alive_succ {t : Nat} (h : Alive r n t)
    (ht : finalFlush (r t) = false ∧ ¬ (commitEn (r t) = true ∧ robHead (r t) = robIdxDisp (r n))) :
    Alive r n (t + 1) := by
  intro u hu hnu
  rcases Nat.lt_succ_iff_lt_or_eq.mp hu with hlt | rfl
  · exact h u hlt hnu
  · exact ht

theorem alive_next : Alive r n (n + 1) := fun u hu hnu => by omega

include hr hd

/-- While it is alive an instruction keeps its entry as dispatched. -/
theorem entry_alive {t : Nat} (hnt : n < t) (htN : t ≤ N) (hal : Alive r n t) :
    ((r t).rob.robData (robIdxDisp (r n))).valid = true ∧
      payload ((r t).rob.robData (robIdxDisp (r n))) = dispatchPayload (robIn (o n) (r n)) ∧
      (r t).robRegWriteArray (robIdxDisp (r n)) = ((ctrlId (r n)).regWrite || (ctrlId (r n)).fpWe) := by
  induction t, hnt using Nat.le_induction with
  | base =>
      rw [hr.step n]
      obtain ⟨hv, -, hp, hw⟩ := dispatched_tick imem (o n) (hr.trap n).wf hd
      exact ⟨hv, hp, hw⟩
  | succ t hnt ih =>
      obtain ⟨hv, hp, hw⟩ := ih (by omega) (alive_mono (by omega) hal)
      obtain ⟨hf, hc⟩ := hal t (by omega) hnt
      obtain ⟨hp', hw'⟩ := payload_tick imem (o t) (hr.trap t).wf hv
      rw [hr.step t]
      exact ⟨valid_tick (ooo_after hr hd (by omega) (by omega)) hf hv hc, hp'.trans hp, hw'.trans hw⟩

theorem exception_alive (hexc : (ctrlId (r n)).exception = false) {t : Nat} (hnt : n < t) (htN : t ≤ N)
    (hal : Alive r n t) : ((r t).rob.robData (robIdxDisp (r n))).exception = false := by
  induction t, hnt using Nat.le_induction with
  | base =>
      rw [hr.step n]
      exact (dispatched_tick imem (o n) (hr.trap n).wf hd).2.1.trans hexc
  | succ t hnt ih =>
      have hal' : Alive r n t := alive_mono (by omega) hal
      rw [hr.step t]
      exact exception_tick (hr.trap t) (ooo_after hr hd (by omega) (by omega)) (hal t (by omega) hnt).1
        (entry_alive hr hd hnt (by omega) hal').1 (ih (by omega) hal')

/-- A completed entry holds what the bus carried in an earlier cycle. -/
theorem outcome_alive (hexc : (ctrlId (r n)).exception = false) {t : Nat} (hnt : n < t) (htN : t ≤ N)
    (hal : Alive r n t) (hcomp : ((r t).rob.robData (robIdxDisp (r n))).completed = true) :
    ∃ g, n < g ∧ g < t ∧ cdbEn (r g) = true ∧ cdbRobIdx (r g) = robIdxDisp (r n) ∧
      outcome ((r t).rob.robData (robIdxDisp (r n))) =
        (cdbData (o g) (r g), cdbPcSel (r g), cdbPcTarget (r g)) := by
  induction t, hnt using Nat.le_induction with
  | base =>
      rw [hr.step n, completed_dispatched (hr.trap n).wf hd, hexc] at hcomp
      cases hcomp
  | succ t hnt ih =>
      have hal' : Alive r n t := alive_mono (by omega) hal
      obtain ⟨hf, hc⟩ := hal t (by omega) hnt
      have hv := (entry_alive hr hd hnt (by omega) hal').1
      rw [hr.step t] at hcomp ⊢
      rcases outcome_tick (hr.trap t).wf (ooo_after hr hd (by omega) (by omega)) hf hv hc hcomp with
        ⟨hen, hidx, hout⟩ | ⟨hcomp', hout⟩
      · exact ⟨t, hnt, by omega, hen, hidx, hout⟩
      · obtain ⟨g, hng, hgt, hen, hidx, hout'⟩ := ih (by omega) hal' hcomp'
        exact ⟨g, hng, by omega, hen, hidx, hout.trans hout'⟩

theorem not_commits_ex (hexc : (ctrlId (r n)).exception = false) (hN : n + 1 ≤ N) :
    ¬ (commitEn (r (n + 1)) = true ∧ robHead (r (n + 1)) = robIdxDisp (r n)) := by
  rintro ⟨hc, hhead⟩
  obtain ⟨hv, hidx, hidEx⟩ := ex_of_dispatch hr hd
  obtain ⟨k, hk, hslot, hcomp, -⟩ := (hr.inv (n + 1) hN).ex hv
  have hle := occ_le (hr.inv (n + 1) hN)
  have hk0 : 0 = k := by
    rw [← hidx, hslot, ← slot_zero] at hhead
    exact (slot_inj (by omega) (by omega)).mp hhead
  subst hk0
  rw [commitEn_head (hr.trap (n + 1)).wf hc, hidEx] at hcomp
  have hex : (idExIn (r n)).ctrl.exception = false := hexc
  rw [hex] at hcomp
  cases hcomp

theorem commits_ge (hexc : (ctrlId (r n)).exception = false) (hN : n + 1 ≤ N) {v : Nat} (hc : CommitsAt r n v) :
    n + 2 ≤ v := by
  obtain ⟨hnv, -, hcommit⟩ := hc
  by_contra hlt
  obtain rfl : v = n + 1 := by omega
  exact not_commits_ex hr hd hexc hN hcommit

/-- An instruction that leaves EX is alive in MEM. -/
theorem alive_mem (hexc : (ctrlId (r n)).exception = false) (hN : n + 1 ≤ N)
    (hf1 : finalFlush (r (n + 1)) = false) : Alive r n (n + 2) :=
  alive_succ alive_next ⟨hf1, not_commits_ex hr hd hexc hN⟩

omit hr hd in
theorem pos_of_not_commits {s : State} {j : BitVec 4} {k : Nat} (hj : j = slot s k)
    (hc : ¬ (commitEn s = true ∧ robHead s = j)) : commitEn s = true → 0 < k := by
  intro hce
  rcases Nat.eq_zero_or_pos k with rfl | hpos
  · exact absurd ⟨hce, by rw [hj, slot_zero]⟩ hc
  · exact hpos

theorem mem_position (hN : n + 2 ≤ N) (hal : Alive r n (n + 2)) :
    ∃ k, occ (r (n + 2)) = k + 1 + (r (n + 2)).track.validEx.toNat ∧ robIdxDisp (r n) = slot (r (n + 2)) k ∧
      (entryAt (r (n + 2)) k).completed = grantEx (r (n + 1)) := by
  have hf1 := (hal (n + 1) (by omega) (by omega)).1
  obtain ⟨hv, hidx, hdone, -⟩ := mem_of_dispatch hr hd hf1
  obtain ⟨k, hk, hslot, hcomp, -⟩ := (hr.inv (n + 2) hN).mem hv
  exact ⟨k, hk, hidx.symm.trans hslot, hcomp.trans hdone⟩

theorem wb_position (hN : n + 3 ≤ N) (hal : Alive r n (n + 3)) :
    ∃ k, occ (r (n + 3)) = k + 1 + (r (n + 3)).track.validEx.toNat + (r (n + 3)).track.validMem.toNat ∧
      robIdxDisp (r n) = slot (r (n + 3)) k ∧
      (entryAt (r (n + 3)) k).completed = (grantEx (r (n + 1)) || grantMem (r (n + 2))) := by
  have hf1 := (hal (n + 1) (by omega) (by omega)).1
  obtain ⟨hf2, hc2⟩ := hal (n + 2) (by omega) (by omega)
  obtain ⟨hv, hidx, hdone, -⟩ := mem_of_dispatch hr hd hf1
  obtain ⟨-, hidx', hdone', -⟩ := wb_of_dispatch hr hd hf1 hf2
  obtain ⟨k, hk, hslot, hcomp, -⟩ := (hr.inv (n + 2) (by omega)).mem hv
  have hpos := pos_of_not_commits (hidx.symm.trans hslot) hc2
  have hooo := ooo_after hr hd (t := n + 2) (by omega) (by omega)
  obtain ⟨k', -, hocc, hslot', hcomp'⟩ := wb_step_stays imem (o (n + 2)) (hr.inv (n + 2) (by omega))
    (hr.trap (n + 2)) hooo hf2 hv hk hslot hcomp hpos
  rw [← hr.step (n + 2)] at hocc hslot' hcomp'
  exact ⟨k', hocc, hidx'.symm.trans hslot', hcomp'.trans hdone'⟩

theorem last_position (hN : n + 4 ≤ N) (hal : Alive r n (n + 4)) :
    commitEn (r (n + 4)) = true ∧ robHead (r (n + 4)) = robIdxDisp (r n) ∧
      occ (r (n + 4)) = (r (n + 4)).track.validEx.toNat + (r (n + 4)).track.validMem.toNat +
        (r (n + 4)).track.validWb.toNat + 1 := by
  obtain ⟨hf3, hc3⟩ := hal (n + 3) (by omega) (by omega)
  obtain ⟨k, hk, hslot, -⟩ := wb_position hr hd (by omega) (alive_mono (by omega) hal)
  have hinv := hr.inv (n + 4) hN
  rw [hr.step (n + 3)] at hinv ⊢
  rw [hslot]
  exact commits_after_wb (hr.trap (n + 3)) (ooo_after hr hd (by omega) (by omega)) hf3 hinv hk
    (pos_of_not_commits hslot hc3)

theorem last_commit (hN : n + 4 ≤ N) (hal : Alive r n (n + 4)) : CommitsAt r n (n + 4) := by
  obtain ⟨hc, hhead, -⟩ := last_position hr hd hN hal
  exact ⟨by omega, hal, hc, hhead⟩

theorem commits_le (hN : n + 4 ≤ N) {v : Nat} (hc : CommitsAt r n v) : v ≤ n + 4 := by
  by_contra hlt
  have hlast := last_commit hr hd hN (alive_mono (by omega) hc.2.1)
  exact (hc.2.1 (n + 4) (by omega) (by omega)).2 hlast.2.2

omit hr hd in
theorem ends_or_alive {t : Nat} (hnt : n < t) (hal : Alive r n t) :
    CommitsAt r n t ∨ FlushedAt r n t ∨ Alive r n (t + 1) := by
  by_cases hc : commitEn (r t) = true ∧ robHead (r t) = robIdxDisp (r n)
  · exact .inl ⟨hnt, hal, hc⟩
  · cases hf : finalFlush (r t) with
    | true => exact .inr (.inl ⟨hnt, hal, hf, hc⟩)
    | false => exact .inr (.inr (alive_succ hal ⟨hf, hc⟩))

/-- Four cycles after its dispatch at the latest an instruction has committed
or was flushed. -/
theorem fate (hN : n + 4 ≤ N) : ∃ v ≤ n + 4, CommitsAt r n v ∨ FlushedAt r n v := by
  rcases ends_or_alive (t := n + 1) (by omega) alive_next with h1 | h1 | hal2
  · exact ⟨n + 1, by omega, .inl h1⟩
  · exact ⟨n + 1, by omega, .inr h1⟩
  rcases ends_or_alive (t := n + 2) (by omega) hal2 with h2 | h2 | hal3
  · exact ⟨n + 2, by omega, .inl h2⟩
  · exact ⟨n + 2, by omega, .inr h2⟩
  rcases ends_or_alive (t := n + 3) (by omega) hal3 with h3 | h3 | hal4
  · exact ⟨n + 3, by omega, .inl h3⟩
  · exact ⟨n + 3, by omega, .inr h3⟩
  exact ⟨n + 4, by omega, .inl (last_commit hr hd hN hal4)⟩

end Fate

section History

variable {imem : Imem} {p : PowerUp} {o : Nat → OpenNets}

theorem finalFlush_of_mem {t : Nat} (h : (run imem p o (t + 1)).track.validMem = true) :
    finalFlush (run imem p o t) = false := by
  rw [run, validMem_tick, Bool.and_eq_true, Bool.not_eq_true'] at h
  exact h.2

/-- What is in MEM was dispatched two cycles ago. -/
theorem dispatch_of_mem {t : Nat} (h : (run imem p o t).track.validMem = true) :
    ∃ n, t = n + 2 ∧ dispatchEn (run imem p o n) = true ∧ finalFlush (run imem p o (n + 1)) = false := by
  obtain _ | _ | n := t
  · cases h
  · rw [run, validMem_tick] at h
    cases h
  · rw [run, validMem_tick, Bool.and_eq_true, Bool.not_eq_true', run, validEx_tick, Bool.and_eq_true] at h
    exact ⟨n, rfl, h.1.1, h.2⟩

/-- What is in WB was dispatched three cycles ago. -/
theorem dispatch_of_wb {t : Nat} (h : (run imem p o t).track.validWb = true) :
    ∃ n, t = n + 3 ∧ dispatchEn (run imem p o n) = true ∧ finalFlush (run imem p o (n + 1)) = false ∧
      finalFlush (run imem p o (n + 2)) = false := by
  obtain _ | t := t
  · cases h
  · rw [run, validWb_tick, Bool.and_eq_true, Bool.not_eq_true'] at h
    obtain ⟨n, rfl, hd, hf1⟩ := dispatch_of_mem h.1
    exact ⟨n, rfl, hd, hf1, h.2⟩

theorem exception_of_mem {n : Nat} (hd : dispatchEn (run imem p o n) = true)
    (hon : oooEn (run imem p o (n + 1)) = true) (hf : finalFlush (run imem p o (n + 1)) = false) :
    (ctrlId (run imem p o n)).exception = false := by
  have h := exception_of_finalFlush (trapInv_run imem p o (n + 1)) hon hf
  rw [run, idEx_dispatched hd] at h
  exact h

end History

end VMate.OooTimeline
