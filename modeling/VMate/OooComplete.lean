import VMate.OooTimeline

namespace VMate.OooComplete

open RiscvTop StageCtrl OooTrap OooWindow OooTimeline

/-- The CDB completes the entry in slot `j`, which waits for it. -/
def Broadcast (s : State) (j : BitVec 4) : Prop :=
  cdbEn s = true ∧ cdbRobIdx s = j ∧ (s.rob.robData j).valid = true ∧ (s.rob.robData j).completed = false

/-- The instruction dispatched at `n` is in EX, MEM and WB one, two and three
cycles later and has the bus in exactly one of these cycles. Its entry takes
no other broadcast as long as it is there. -/
structure CompletesOnce (r : Nat → State) (n : Nat) : Prop where
  once : (grantEx (r (n + 1))).toNat + (grantMem (r (n + 2))).toNat + (grantWb (r (n + 3))).toNat = 1
  ex : grantEx (r (n + 1)) = true →
    (r (n + 1)).track.robIdxEx = robIdxDisp (r n) ∧ Broadcast (r (n + 1)) (robIdxDisp (r n))
  mem : grantMem (r (n + 2)) = true →
    (r (n + 2)).track.robIdxMem = robIdxDisp (r n) ∧ Broadcast (r (n + 2)) (robIdxDisp (r n))
  wb : grantWb (r (n + 3)) = true →
    (r (n + 3)).track.robIdxWb = robIdxDisp (r n) ∧ Broadcast (r (n + 3)) (robIdxDisp (r n))
  own : ∀ u ≤ n + 4, n < u → Alive r n u → cdbEn (r u) = true → cdbRobIdx (r u) = robIdxDisp (r n) →
    (u = n + 1 ∧ grantEx (r u) = true) ∨ (u = n + 2 ∧ grantMem (r u) = true) ∨ (u = n + 3 ∧ grantWb (r u) = true)
  commits : ∃ v ≤ n + 4, CommitsAt r n v

section Grants

variable {imem : Imem} {o : Nat → OpenNets} {N n : Nat} {r : Nat → State}
  (hr : OooTrace imem o N r) (hd : dispatchEn (r n) = true)

theorem grantMem_not_done {s : State} (ht : TrapInv s) (hooo : oooEn s = true) (h : grantMem s = true) :
    s.track.cdbDoneMem = false := by
  simp only [grantMem, memWantsCdb, ht.mem hooo, Bool.or_false, Bool.and_eq_true, Bool.not_eq_true'] at h
  exact h.1.2.1

include hr hd

theorem broadcast_ex (hexc : (ctrlId (r n)).exception = false) (hN : n + 1 ≤ N) (h : grantEx (r (n + 1)) = true) :
    Broadcast (r (n + 1)) (robIdxDisp (r n)) := by
  obtain ⟨hv, hidx, hidEx⟩ := ex_of_dispatch hr hd
  obtain ⟨k, hk, hslot, hcomp, -⟩ := (hr.inv (n + 1) hN).ex hv
  obtain ⟨hen, hrob⟩ := cdb_of_grantEx (ooo_after hr hd (by omega) hN) h
  have hvalid := entryAt_valid (hr.trap (n + 1)).wf (k := k) (by omega)
  rw [hidEx] at hcomp
  rw [← hidx, hslot] at *
  exact ⟨hen, hrob, hvalid, hcomp.trans hexc⟩

theorem broadcast_mem (hN : n + 2 ≤ N) (hal : Alive r n (n + 2)) (h : grantMem (r (n + 2)) = true) :
    grantEx (r (n + 1)) = false ∧ Broadcast (r (n + 2)) (robIdxDisp (r n)) := by
  have hooo := ooo_after hr hd (t := n + 2) (by omega) hN
  have hf1 := (hal (n + 1) (by omega) (by omega)).1
  obtain ⟨-, hidx, hdone, -⟩ := mem_of_dispatch hr hd hf1
  have hno : grantEx (r (n + 1)) = false := hdone.symm.trans (grantMem_not_done (hr.trap _) hooo h)
  obtain ⟨k, hk, hslot, hcomp⟩ := mem_position hr hd hN hal
  obtain ⟨hen, hrob⟩ := cdb_of_grantMem hooo h
  have hvalid := entryAt_valid (hr.trap (n + 2)).wf (k := k) (by omega)
  refine ⟨hno, hen, hrob.trans hidx, ?_, ?_⟩
  · rw [hslot]
    exact hvalid
  · rw [hslot]
    exact hcomp.trans hno

theorem broadcast_wb (hN : n + 3 ≤ N) (hal : Alive r n (n + 3)) (h : grantWb (r (n + 3)) = true) :
    Broadcast (r (n + 3)) (robIdxDisp (r n)) := by
  have hooo := ooo_after hr hd (t := n + 3) (by omega) hN
  have hf1 := (hal (n + 1) (by omega) (by omega)).1
  have hf2 := (hal (n + 2) (by omega) (by omega)).1
  obtain ⟨-, hidx, hdone, -⟩ := wb_of_dispatch hr hd hf1 hf2
  obtain ⟨k, hk, hslot, hcomp⟩ := wb_position hr hd hN hal
  obtain ⟨hen, hrob⟩ := cdb_of_grantWb hooo h
  have hvalid := entryAt_valid (hr.trap (n + 3)).wf (k := k) (by omega)
  refine ⟨hen, hrob.trans hidx, ?_, ?_⟩
  · rw [hslot]
    exact hvalid
  · rw [hslot]
    exact (hcomp.trans hdone.symm).trans ((grantWb_spec (hr.trap _)).mp h).2

/-- An instruction that commits from MEM had the bus in EX. -/
theorem grantEx_of_commits (hN : n + 2 ≤ N) (hc : CommitsAt r n (n + 2)) : grantEx (r (n + 1)) = true := by
  obtain ⟨-, hal, hce, hhead⟩ := hc
  obtain ⟨k, hk, hslot, hcomp⟩ := mem_position hr hd hN hal
  have hle := occ_le (hr.inv (n + 2) hN)
  have hk0 : 0 = k := by
    rw [hslot, ← slot_zero] at hhead
    exact (slot_inj (by omega) (by omega)).mp hhead
  subst hk0
  rw [← hcomp]
  exact commitEn_head (hr.trap _).wf hce

/-- What is granted in WB has neither committed nor had the bus before. -/
theorem grantWb_alive (hexc : (ctrlId (r n)).exception = false) (hN : n + 2 ≤ N) (h : grantWb (r (n + 3)) = true) :
    Alive r n (n + 3) ∧ grantEx (r (n + 1)) = false ∧ grantMem (r (n + 2)) = false := by
  obtain ⟨hv, hdone⟩ := (grantWb_spec (hr.trap _)).mp h
  rw [hr.step (n + 2), validWb_tick, hr.step (n + 1), validMem_tick, Bool.and_eq_true, Bool.and_eq_true,
    Bool.not_eq_true', Bool.not_eq_true', ← hr.step (n + 1)] at hv
  obtain ⟨⟨-, hf1⟩, hf2⟩ := hv
  have hal2 := alive_mem hr hd hexc (by omega) hf1
  rw [(wb_of_dispatch hr hd hf1 hf2).2.2.1, Bool.or_eq_false_iff] at hdone
  refine ⟨alive_succ hal2 ⟨hf2, fun hc => ?_⟩, hdone⟩
  have hex := grantEx_of_commits hr hd hN ⟨by omega, hal2, hc⟩
  rw [hdone.1] at hex
  cases hex

theorem own_broadcast (hN : n + 4 ≤ N) {u : Nat} (hu : u ≤ n + 4) (hnu : n < u) (hal : Alive r n u)
    (hen : cdbEn (r u) = true) (hrob : cdbRobIdx (r u) = robIdxDisp (r n)) :
    (u = n + 1 ∧ grantEx (r u) = true) ∨ (u = n + 2 ∧ grantMem (r u) = true) ∨
      (u = n + 3 ∧ grantWb (r u) = true) := by
  have hooo := ooo_after hr hd (t := u) (by omega) (by omega)
  have hinv := hr.inv u (by omega)
  have ht := hr.trap u
  have hit {k : Nat} (hslot : robIdxDisp (r n) = slot (r u) k) :
      (cdbEn (r u) && cdbRobIdx (r u) == slot (r u) k) = true := by
    rw [hen, hrob, hslot]
    exact beq_self_eq_true _
  obtain rfl | rfl | rfl | rfl : u = n + 1 ∨ u = n + 2 ∨ u = n + 3 ∨ u = n + 4 := by omega
  · obtain ⟨hv, hidx, -⟩ := ex_of_dispatch hr hd
    obtain ⟨k, hk, hslot, -⟩ := hinv.ex hv
    exact .inl ⟨rfl, (hit_ex hinv ht hooo hv hk hslot).symm.trans (hit (hidx.symm.trans hslot))⟩
  · obtain ⟨hv, hidx, -⟩ := mem_of_dispatch hr hd (hal (n + 1) (by omega) (by omega)).1
    obtain ⟨k, hk, hslot, -⟩ := hinv.mem hv
    exact .inr (.inl ⟨rfl, (hit_mem hinv ht hooo hv hk hslot).symm.trans (hit (hidx.symm.trans hslot))⟩)
  · obtain ⟨-, hidx, -⟩ := wb_of_dispatch hr hd (hal (n + 1) (by omega) (by omega)).1
      (hal (n + 2) (by omega) (by omega)).1
    obtain ⟨k, hk, hslot, -⟩ := wb_position hr hd (by omega) hal
    exact .inr (.inr ⟨rfl, (hit_wb hinv ht hooo hk (hidx.trans hslot)).symm.trans (hit hslot)⟩)
  · -- the entry is older than those of all stages
    exfalso
    obtain ⟨-, hhead, hocc⟩ := last_position hr hd hN hal
    have h0 : robIdxDisp (r n) = slot (r (n + 4)) 0 := by rw [slot_zero, hhead]
    rcases cdb_hits hinv ht hooo (k := 0) (by omega) (hit h0) with ⟨he, hk⟩ | ⟨hm, hk⟩ | ⟨hw, hk⟩
    · rw [grantEx_valid he, Bool.toNat_true] at hocc
      omega
    · rw [grantMem_valid hm, Bool.toNat_true] at hocc
      omega
    · rw [((grantWb_spec ht).mp hw).1, Bool.toNat_true] at hocc
      omega

/-- Whichever stage broadcasts, the branch outcome is the one computed in EX. -/
theorem cdb_branch (hN : n + 4 ≤ N) {g : Nat} (hg : g ≤ n + 4) (hng : n < g) (hal : Alive r n g)
    (hen : cdbEn (r g) = true) (hrob : cdbRobIdx (r g) = robIdxDisp (r n)) :
    cdbPcSel (r g) = pcSelEx (r (n + 1)) ∧ cdbPcTarget (r g) = pcTargetEx (r (n + 1)) := by
  rcases own_broadcast hr hd hN hg hng hal hen hrob with ⟨rfl, h⟩ | ⟨rfl, h⟩ | ⟨rfl, h⟩
  · simp [cdbPcSel, cdbPcTarget, h, grantEx_alone h]
  · simp only [cdbPcSel, cdbPcTarget, h, grantMem_alone h, Bool.false_eq_true, if_false, if_true]
    rw [hr.step (n + 1), track_tick (hal (n + 1) (by omega) (by omega)).1]
    exact ⟨rfl, rfl⟩
  · simp only [cdbPcSel, cdbPcTarget, h, if_true]
    rw [hr.step (n + 2), track_tick (hal (n + 2) (by omega) (by omega)).1, hr.step (n + 1),
      track_tick (hal (n + 1) (by omega) (by omega)).1]
    exact ⟨rfl, rfl⟩

theorem branch_alive (hexc : (ctrlId (r n)).exception = false) (hN : n + 4 ≤ N) {t : Nat} (hnt : n < t)
    (ht : t ≤ n + 4) (hal : Alive r n t) (hcomp : ((r t).rob.robData (robIdxDisp (r n))).completed = true) :
    ((r t).rob.robData (robIdxDisp (r n))).branchMispredicted = pcSelEx (r (n + 1)) ∧
      ((r t).rob.robData (robIdxDisp (r n))).branchTarget = pcTargetEx (r (n + 1)) := by
  obtain ⟨g, hng, hgt, hen, hidx, hout⟩ := outcome_alive hr hd hexc hnt (by omega) hal hcomp
  obtain ⟨hsel, htgt⟩ := cdb_branch hr hd hN (by omega) hng (alive_mono (by omega) hal) hen hidx
  simp only [RobFifo.outcome, Prod.mk.injEq] at hout
  exact ⟨hout.2.1.trans hsel, hout.2.2.trans htgt⟩

theorem completesOnce (hexc : (ctrlId (r n)).exception = false) (hN : n + 4 ≤ N)
    (hlive : ∀ f ≤ n + 4, ¬ FlushedAt r n f) : CompletesOnce r n := by
  have hal2 : Alive r n (n + 2) := by
    rcases ends_or_alive (t := n + 1) (by omega) alive_next with hc | hf | hal
    · exact absurd hc.2.2 (not_commits_ex hr hd hexc (by omega))
    · exact absurd hf (hlive _ (by omega))
    · exact hal
  have hf1 := (hal2 (n + 1) (by omega) (by omega)).1
  have hmem := broadcast_mem hr hd (by omega) hal2
  obtain ⟨-, hidxEx, -⟩ := ex_of_dispatch hr hd
  obtain ⟨-, hidxMem, -⟩ := mem_of_dispatch hr hd hf1
  have hwb := grantWb_alive hr hd hexc (by omega)
  refine ⟨?_, ?_, ?_, ?_, fun u hu hnu hal => own_broadcast hr hd hN hu hnu hal, ?_⟩
  · cases hw : grantWb (r (n + 3)) with
    | true =>
        obtain ⟨-, hex, hm⟩ := hwb hw
        rw [hex, hm]
        rfl
    | false =>
        cases hm : grantMem (r (n + 2)) with
        | true => rw [(hmem hm).1]; rfl
        | false =>
            have hex : grantEx (r (n + 1)) = true := by
              cases hf2 : finalFlush (r (n + 2)) with
              | true =>
                  refine grantEx_of_commits hr hd (by omega) ⟨by omega, hal2, ?_⟩
                  by_contra hc
                  exact hlive (n + 2) (by omega) ⟨by omega, hal2, hf2, hc⟩
              | false =>
                  obtain ⟨hv, -, hdone, -⟩ := wb_of_dispatch hr hd hf1 hf2
                  rw [hm, Bool.or_false] at hdone
                  rw [← hdone]
                  by_contra hno
                  have hg := (grantWb_spec (hr.trap (n + 3))).mpr ⟨hv, Bool.eq_false_iff.mpr hno⟩
                  rw [hw] at hg
                  cases hg
            rw [hex]
            rfl
  · exact fun h => ⟨hidxEx, broadcast_ex hr hd hexc (by omega) h⟩
  · exact fun h => ⟨hidxMem, (hmem h).2⟩
  · intro h
    have hal3 := (hwb h).1
    exact ⟨(wb_of_dispatch hr hd hf1 (hal3 (n + 2) (by omega) (by omega)).1).2.1, broadcast_wb hr hd (by omega) hal3 h⟩
  · obtain ⟨v, hv, hc | hfl⟩ := fate hr hd hN
    · exact ⟨v, hv, hc⟩
    · exact absurd hfl (hlive v hv)

end Grants

/-- In OoO mode every instruction that is dispatched without an exception and
is not flushed has the bus exactly once. -/
theorem dispatched_completesOnce (imem : Imem) (p : PowerUp) (o : Nat → OpenNets) (n : Nat)
    (hstay : StaysOn imem p o (n + 4)) (hd : dispatchEn (run imem p o n) = true)
    (hexc : (ctrlId (run imem p o n)).exception = false)
    (hlive : ∀ f ≤ n + 4, ¬ FlushedAt (run imem p o) n f) : CompletesOnce (run imem p o) n :=
  completesOnce (oooTrace_run hstay) hd hexc (Nat.le_refl _) hlive

/-- `addi x1, x0, 5` behind the mode switch is dispatched at cycle 4. -/
theorem addi_completesOnce :
    dispatchEn (run (imageOf [csrOooOn, 0x00500093#32]) zeroPowerUp (fun _ => zeroNets) 4) = true ∧
      CompletesOnce (run (imageOf [csrOooOn, 0x00500093#32]) zeroPowerUp (fun _ => zeroNets)) 4 :=
  ⟨by decide +kernel,
    dispatched_completesOnce _ zeroPowerUp (fun _ => zeroNets) 4 (by decide +kernel)
      (by decide +kernel) (by decide +kernel) (by decide +kernel)⟩

end VMate.OooComplete
