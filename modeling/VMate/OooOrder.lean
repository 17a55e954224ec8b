import VMate.OooComplete

namespace VMate.OooOrder

open Decode Pipe RiscvTop StageCtrl RobFifo OooTrap OooWindow OooTimeline OooComplete

section Ends

variable {r : Nat → State} {n v f : Nat}

theorem not_flushed_of_commits (hc : CommitsAt r n v) (hf : FlushedAt r n f) : False := by
  obtain ⟨hnv, halv, hcommit⟩ := hc
  obtain ⟨hnf, half, hflush, hno⟩ := hf
  rcases Nat.lt_trichotomy f v with h | rfl | h
  · rw [(halv f h hnf).1] at hflush
    cases hflush
  · exact hno hcommit
  · exact (half v h hnv).2 hcommit

end Ends

section Fifo

variable {imem : Imem} {o : Nat → OpenNets} {N : Nat} {r : Nat → State} (hr : OooTrace imem o N r)

include hr

/-- Every entry belongs to an instruction that was dispatched and is still alive. -/
theorem owner_of_valid (hzero : occ (r 0) = 0) {t : Nat} (ht : t ≤ N) {j : BitVec 4}
    (hv : ((r t).rob.robData j).valid = true) :
    ∃ m < t, dispatchEn (r m) = true ∧ robIdxDisp (r m) = j ∧ Alive r m t := by
  induction t with
  | zero =>
      rw [(hr.trap 0).wf.valid_iff] at hv
      change Circular.InWindow _ (occ (r 0)) j at hv
      rw [hzero] at hv
      exact absurd hv (Circular.not_inWindow_zero _ _)
  | succ t ih =>
      cases hooo : oooEn (r t) with
      | false =>
          rw [hr.step t, rob_tick_inOrder hooo, (hr.trap t).wf.valid_iff] at hv
          change Circular.InWindow _ (occ (r t)) j at hv
          rw [((hr.inv t (by omega)).idle hooo).1] at hv
          exact absurd hv (Circular.not_inWindow_zero _ _)
      | true =>
          cases hf : finalFlush (r t) with
          | true =>
              rw [hr.step t, rob_tick_flush hooo hf] at hv
              cases hv
          | false =>
              rw [hr.step t, rob_tick_data hooo hf, nextEntry_valid, retires_robIn, accepts_robIn] at hv
              split_ifs at hv with hret hacc
              · rw [Bool.and_eq_true, beq_iff_eq] at hacc
                exact ⟨t, by omega, hacc.1, hacc.2.symm, alive_next⟩
              · obtain ⟨m, hm, hd, hj, hal⟩ := ih (by omega) hv
                refine ⟨m, by omega, hd, hj, alive_succ hal ⟨hf, fun hc => hret ?_⟩⟩
                have hhead : (r t).rob.headPtr = j := hc.2.trans hj
                rw [hc.1, hhead]
                exact beq_self_eq_true _

theorem owner_of_commit (hzero : occ (r 0) = 0) {t : Nat} (ht : t ≤ N) (hc : commitEn (r t) = true) :
    ∃ m, dispatchEn (r m) = true ∧ CommitsAt r m t := by
  have hv := ((commitEn_iff (r t).rob).mp hc).2.1
  obtain ⟨m, hm, hd, hj, hal⟩ := owner_of_valid hr hzero ht hv
  exact ⟨m, hd, hm, hal, hc, hj.symm⟩

theorem position_alive {n t : Nat} (hd : dispatchEn (r n) = true) (hnt : n < t) (ht : t ≤ N) (hal : Alive r n t) :
    ∃ k < occ (r t), robIdxDisp (r n) = slot (r t) k := by
  have hv := (entry_alive hr hd hnt ht hal).1
  exact ⟨_, ((hr.trap t).wf.valid_iff _).mp hv, Circular.add_toNat_sub _ _⟩

/-- Older instructions are nearer to the head. -/
theorem position_lt {m n t : Nat} (hdm : dispatchEn (r m) = true) (hdn : dispatchEn (r n) = true) (hmn : m < n)
    (hnt : n < t) (ht : t ≤ N) (halm : Alive r m t) (haln : Alive r n t) :
    ∃ a b, a < b ∧ b < occ (r t) ∧ robIdxDisp (r m) = slot (r t) a ∧ robIdxDisp (r n) = slot (r t) b := by
  induction t, hnt using Nat.le_induction with
  | base =>
      change ∃ a b, a < b ∧ b < occ (r (n + 1)) ∧ _
      obtain ⟨hv, hidx, -⟩ := ex_of_dispatch hr hdn
      obtain ⟨b, hb, hslot, -⟩ := (hr.inv (n + 1) ht).ex hv
      obtain ⟨a, ha, hslota⟩ := position_alive hr hdm (t := n + 1) (by omega) ht halm
      refine ⟨a, b, ?_, by omega, hslota, hidx.symm.trans hslot⟩
      have hne : a ≠ b := by
        rintro rfl
        have hvm := (entry_alive hr hdm hmn (by omega) (alive_mono (by omega) halm)).1
        rw [hslota, ← hslot, hidx, robIdxDisp_free (hr.trap n).wf hdn] at hvm
        cases hvm
      omega
  | succ t hnt ih =>
      obtain ⟨a, b, hab, hb, hslota, hslotb⟩ := ih (by omega) (alive_mono (by omega) halm) (alive_mono (by omega) haln)
      obtain ⟨hf, hcm⟩ := halm t (by omega) (by omega)
      have hooo := ooo_after hr hdn (t := t) (by omega) (by omega)
      have hocc := occ_tick imem (o t) (hr.trap t).wf hooo hf
      have hpos := pos_of_not_commits hslota hcm
      have hca := commitEn_toNat_le hpos
      rw [hr.step t]
      refine ⟨a - (commitEn (r t)).toNat, b - (commitEn (r t)).toNat, by omega, by omega, ?_, ?_⟩
      · rw [hslota, slot_tick hooo hf, Nat.sub_add_cancel hca]
      · rw [hslotb, slot_tick hooo hf, Nat.sub_add_cancel (by omega)]

/-- Instructions commit in the order of their dispatch. -/
theorem commits_in_order {m n v w : Nat} (hdm : dispatchEn (r m) = true) (hdn : dispatchEn (r n) = true)
    (hv : CommitsAt r n v) (hw : CommitsAt r m w) (hvw : v < w) (hwN : w ≤ N) : n < m := by
  rcases Nat.lt_trichotomy n m with h | rfl | h
  · exact h
  · exact absurd hv.2.2 (hw.2.1 v hvw hv.1).2
  · obtain ⟨hnv, haln, -, hhead⟩ := hv
    obtain ⟨a, b, hab, hb, -, hslot⟩ := position_lt hr hdm hdn h hnv (by omega) (alive_mono (by omega) hw.2.1) haln
    have hle := occ_le (hr.inv v (by omega))
    rw [hslot, ← slot_zero] at hhead
    have := (slot_inj (by omega) (by omega)).mp hhead
    omega

end Fifo

end VMate.OooOrder
