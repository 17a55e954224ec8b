import VMate.OooTrap

namespace VMate.OooWindow

open Decode Pipe RiscvTop DecodeFacts StageCtrl RobFifo OooTrap Circular

variable {imem : Imem} {o : OpenNets} {s : State}

section Slots

/-- The number of occupied entries. -/
def occ (s : State) : Nat := s.rob.count.toNat

/-- The slot of the entry with `k` older ones. -/
def slot (s : State) (k : Nat) : BitVec 4 := robHead s + BitVec.ofNat 4 k

def entryAt (s : State) (k : Nat) : Rob.RobEntry := s.rob.robData (slot s k)

theorem slot_zero : slot s 0 = robHead s := by simp [slot]

theorem slot_inj {a b : Nat} (ha : a < 16) (hb : b < 16) : slot s a = slot s b ↔ a = b := add_ofNat_inj ha hb

theorem robIdxDisp_eq (hwf : WellFormed s.rob) : robIdxDisp s = slot s (occ s) := hwf.tail_eq

theorem entryAt_valid (hwf : WellFormed s.rob) {k : Nat} (hk : k < occ s) : (entryAt s k).valid = true := by
  have hle : occ s ≤ 16 := hwf.count_le
  refine (hwf.valid_iff _).mpr ((inWindow_add ?_).mpr hk)
  omega

theorem commitEn_eq (hwf : WellFormed s.rob) : commitEn s = true ↔ 0 < occ s ∧ (commitEntry s).completed = true := by
  rw [commitEn, commitEn_iff]
  refine ⟨fun h => ⟨h.1, h.2.2⟩, fun h => ⟨h.1, ?_, h.2⟩⟩
  exact (hwf.valid_iff _).mpr (inWindow_head h.1)

theorem commitEn_toNat_le {k : Nat} (hpos : commitEn s = true → 0 < k) : (commitEn s).toNat ≤ k := by
  cases hc : commitEn s with
  | false => exact Nat.zero_le _
  | true => exact hpos hc

theorem commitEntry_of_head {j : BitVec 4} (h : robHead s = j) : commitEntry s = s.rob.robData j := by
  rw [← h]
  rfl

variable (imem o) in
theorem occ_tick (hwf : WellFormed s.rob) (hooo : oooEn s = true) (hf : finalFlush s = false) :
    occ (tick imem o s) + (commitEn s).toNat = occ s + (dispatchEn s).toNat := by
  have h := count_step (i := robIn o s) hwf hooo hf
  rwa [accepts_robIn, retires_robIn] at h

theorem occ_tick_flush (hooo : oooEn s = true) (hf : finalFlush s = true) : occ (tick imem o s) = 0 := by
  rw [occ, rob_tick_flush hooo hf]
  rfl

theorem slot_tick (hooo : oooEn s = true) (hf : finalFlush s = false) (k : Nat) :
    slot (tick imem o s) k = slot s (k + (commitEn s).toNat) := by
  rw [slot, slot, rob_tick_headPtr hooo hf, BitVec.ofNat_add]
  cases commitEn s with
  | false => simp
  | true =>
      rw [if_pos rfl, add_assoc, add_comm (1 : BitVec 4)]
      rfl

/-- An entry that stays is completed by the broadcast with its index and by nothing else. -/
theorem completed_tick (hwf : WellFormed s.rob) (hooo : oooEn s = true) (hf : finalFlush s = false) {k : Nat}
    (hk : k < occ s) (hc : commitEn s = true → 0 < k) :
    ((tick imem o s).rob.robData (slot s k)).completed =
      (cdbEn s && cdbRobIdx s == slot s k || (entryAt s k).completed) := by
  have hle : occ s ≤ 16 := hwf.count_le
  have hret : (Rob.retires s.rob (robIn o s) && slot s k == s.rob.headPtr) = false := by
    rw [retires_robIn, Bool.and_eq_false_iff]
    cases hce : commitEn s with
    | false => exact .inl rfl
    | true =>
        right
        rw [beq_eq_false_iff_ne]
        have hpos := hc hce
        have hne := (slot_inj (s := s) (a := k) (b := 0) (by omega) (by omega)).not.mpr (by omega)
        rwa [slot_zero] at hne
  have hacc : (Rob.accepts s.rob (robIn o s) && slot s k == s.rob.tailPtr) = false := by
    rw [accepts_robIn, Bool.and_eq_false_iff]
    cases hd : dispatchEn s with
    | false => exact .inl rfl
    | true =>
        right
        rw [beq_eq_false_iff_ne]
        have hlt := count_of_dispatch hwf hd
        have hne := (slot_inj (s := s) (a := k) (b := occ s) (by omega) hlt).not.mpr (by omega)
        rwa [← robIdxDisp_eq hwf] at hne
  rw [rob_tick_data hooo hf, nextEntry_completed, hret, hacc]
  have hcomp : (Rob.completes s.rob (robIn o s) && slot s k == (robIn o s).completeIdx) =
      (cdbEn s && cdbRobIdx s == slot s k) := by
    change (cdbEn s && (s.rob.robData (cdbRobIdx s)).valid && slot s k == cdbRobIdx s) = _
    by_cases he : slot s k = cdbRobIdx s
    · have hv : (s.rob.robData (cdbRobIdx s)).valid = true := by rw [← he]; exact entryAt_valid hwf hk
      simp [he, hv]
    · rw [beq_eq_false_iff_ne.mpr he, beq_eq_false_iff_ne.mpr (Ne.symm he), Bool.and_false, Bool.and_false]
  rw [hcomp]
  cases cdbEn s && cdbRobIdx s == slot s k <;> rfl

theorem completed_dispatched (hwf : WellFormed s.rob) (hd : dispatchEn s = true) :
    ((tick imem o s).rob.robData (robIdxDisp s)).completed = (ctrlId s).exception := by
  obtain ⟨hooo, hf, -⟩ := dispatchEn_spec hd
  have hacc : Rob.accepts s.rob (robIn o s) = true := by rw [accepts_robIn, hd]
  rw [rob_tick_data hooo hf, robIdxDisp, nextEntry_completed, retires_ne_tail hwf hd, completes_ne_tail hwf hd, hacc]
  simp [robIn]

end Slots

section Invariant

/-- Where the instructions in EX, MEM and WB have their entries. The youngest
entries of the buffer are those of EX, MEM and WB, in this order; only an
instruction in WB may have left the buffer already, and at most one completed
entry is older than all of them. -/
structure OooInv (s : State) : Prop where
  idle : oooEn s = false →
    occ s = 0 ∧ s.track.validEx = false ∧ s.track.validMem = false ∧ s.track.validWb = false
  ex : s.track.validEx = true → ∃ k, occ s = k + 1 ∧ s.track.robIdxEx = slot s k ∧
    (entryAt s k).completed = s.idEx.ctrl.exception ∧
    (serialOpcode s.idEx.instruction = true ∨ s.idEx.ctrl.exception = true → k = 0)
  mem : s.track.validMem = true → ∃ k, occ s = k + 1 + s.track.validEx.toNat ∧ s.track.robIdxMem = slot s k ∧
    (entryAt s k).completed = s.track.cdbDoneMem ∧ (serialOpcode s.exMem.instruction = true → k = 0)
  wb : s.track.validWb = true →
    (∃ k, occ s = k + 1 + s.track.validEx.toNat + s.track.validMem.toNat ∧ s.track.robIdxWb = slot s k ∧
      (entryAt s k).completed = s.track.cdbDoneWb ∧ (serialOpcode s.memWb.instruction = true → k = 0)) ∨
    (occ s = s.track.validEx.toNat + s.track.validMem.toNat ∧ s.track.cdbDoneWb = true)
  lag : occ s ≤ s.track.validEx.toNat + s.track.validMem.toNat + s.track.validWb.toNat ∨
    (occ s = s.track.validEx.toNat + s.track.validMem.toNat + s.track.validWb.toNat + 1 ∧
      (commitEntry s).completed = true)

theorem occ_le (h : OooInv s) : occ s ≤ 4 := by
  have he := Bool.toNat_le s.track.validEx
  have hm := Bool.toNat_le s.track.validMem
  have hw := Bool.toNat_le s.track.validWb
  rcases h.lag with hl | ⟨hl, -⟩ <;> omega

theorem grantWb_spec (ht : TrapInv s) : grantWb s = true ↔ s.track.validWb = true ∧ s.track.cdbDoneWb = false := by
  simp [grantWb, wbWantsCdb, ht.wb]

theorem grantMem_valid (h : grantMem s = true) : s.track.validMem = true := by
  simp only [grantMem, memWantsCdb, Bool.and_eq_true] at h
  exact h.1.1

theorem grantEx_valid (h : grantEx s = true) : s.track.validEx = true := by
  simp only [grantEx, exWantsCdb, Bool.and_eq_true] at h
  exact h.1.1.1

theorem cdbEn_eq (hooo : oooEn s = true) : cdbEn s = (grantWb s || grantMem s || grantEx s) := by
  simp [cdbEn, hooo]

theorem grantEx_alone (h : grantEx s = true) : grantWb s = false ∧ grantMem s = false := by
  simp only [grantEx, Bool.and_eq_true, Bool.not_eq_true'] at h
  exact ⟨h.1.2, h.2⟩

theorem grantMem_alone (h : grantMem s = true) : grantWb s = false := by
  simp only [grantMem, Bool.and_eq_true, Bool.not_eq_true'] at h
  exact h.2

theorem cdb_of_grantEx (hooo : oooEn s = true) (h : grantEx s = true) :
    cdbEn s = true ∧ cdbRobIdx s = s.track.robIdxEx := by
  simp [cdbEn_eq hooo, cdbRobIdx, h, grantEx_alone h]

theorem cdb_of_grantMem (hooo : oooEn s = true) (h : grantMem s = true) :
    cdbEn s = true ∧ cdbRobIdx s = s.track.robIdxMem := by
  simp [cdbEn_eq hooo, cdbRobIdx, h, grantMem_alone h]

theorem cdb_of_grantWb (hooo : oooEn s = true) (h : grantWb s = true) :
    cdbEn s = true ∧ cdbRobIdx s = s.track.robIdxWb := by
  simp [cdbEn_eq hooo, cdbRobIdx, h]

/-- The broadcast of a cycle goes to the entry of the stage that is granted. -/
theorem cdb_position (h : OooInv s) (ht : TrapInv s) (hooo : oooEn s = true) (hen : cdbEn s = true) :
    ∃ k, cdbRobIdx s = slot s k ∧ ((grantEx s = true ∧ occ s = k + 1) ∨
      (grantMem s = true ∧ occ s = k + 1 + s.track.validEx.toNat) ∨
      (grantWb s = true ∧ occ s = k + 1 + s.track.validEx.toNat + s.track.validMem.toNat)) := by
  rw [cdbEn_eq hooo, Bool.or_eq_true, Bool.or_eq_true] at hen
  rcases hen with (hw | hm) | he
  · obtain ⟨hv, hdone⟩ := (grantWb_spec ht).mp hw
    rcases h.wb hv with ⟨k, hk, hidx, -⟩ | ⟨-, hd⟩
    · exact ⟨k, (cdb_of_grantWb hooo hw).2.trans hidx, .inr (.inr ⟨hw, hk⟩)⟩
    · rw [hdone] at hd
      cases hd
  · obtain ⟨k, hk, hidx, -⟩ := h.mem (grantMem_valid hm)
    exact ⟨k, (cdb_of_grantMem hooo hm).2.trans hidx, .inr (.inl ⟨hm, hk⟩)⟩
  · obtain ⟨k, hk, hidx, -⟩ := h.ex (grantEx_valid he)
    exact ⟨k, (cdb_of_grantEx hooo he).2.trans hidx, .inl ⟨he, hk⟩⟩

theorem cdb_hits (h : OooInv s) (ht : TrapInv s) (hooo : oooEn s = true) {k : Nat} (hk : k < occ s)
    (hit : (cdbEn s && cdbRobIdx s == slot s k) = true) :
    (grantEx s = true ∧ occ s = k + 1) ∨ (grantMem s = true ∧ occ s = k + 1 + s.track.validEx.toNat) ∨
      (grantWb s = true ∧ occ s = k + 1 + s.track.validEx.toNat + s.track.validMem.toNat) := by
  have hle := occ_le h
  rw [Bool.and_eq_true, beq_iff_eq] at hit
  obtain ⟨k', hidx, hcases⟩ := cdb_position h ht hooo hit.1
  have hkk : k' = k := (slot_inj (by omega) (by omega)).mp (hidx.symm.trans hit.2)
  rwa [← hkk]

theorem hit_ex (h : OooInv s) (ht : TrapInv s) (hooo : oooEn s = true) {k : Nat} (hv : s.track.validEx = true)
    (hk : occ s = k + 1) (hidx : s.track.robIdxEx = slot s k) :
    (cdbEn s && cdbRobIdx s == slot s k) = grantEx s := by
  rw [Bool.eq_iff_iff]
  constructor
  · intro hit
    rcases cdb_hits h ht hooo (by omega) hit with ⟨he, -⟩ | ⟨-, hk'⟩ | ⟨-, hk'⟩
    · exact he
    · rw [hv, Bool.toNat_true] at hk'
      omega
    · rw [hv, Bool.toNat_true] at hk'
      omega
  · intro he
    obtain ⟨hen, hrob⟩ := cdb_of_grantEx hooo he
    simp [hen, hrob, hidx]

theorem hit_mem (h : OooInv s) (ht : TrapInv s) (hooo : oooEn s = true) {k : Nat} (hv : s.track.validMem = true)
    (hk : occ s = k + 1 + s.track.validEx.toNat) (hidx : s.track.robIdxMem = slot s k) :
    (cdbEn s && cdbRobIdx s == slot s k) = grantMem s := by
  rw [Bool.eq_iff_iff]
  constructor
  · intro hit
    rcases cdb_hits h ht hooo (by omega) hit with ⟨he, hk'⟩ | ⟨hm, -⟩ | ⟨-, hk'⟩
    · rw [grantEx_valid he, Bool.toNat_true] at hk
      omega
    · exact hm
    · rw [hv, Bool.toNat_true] at hk'
      omega
  · intro hm
    obtain ⟨hen, hrob⟩ := cdb_of_grantMem hooo hm
    simp [hen, hrob, hidx]

theorem hit_wb (h : OooInv s) (ht : TrapInv s) (hooo : oooEn s = true) {k : Nat}
    (hk : occ s = k + 1 + s.track.validEx.toNat + s.track.validMem.toNat) (hidx : s.track.robIdxWb = slot s k) :
    (cdbEn s && cdbRobIdx s == slot s k) = grantWb s := by
  rw [Bool.eq_iff_iff]
  constructor
  · intro hit
    rcases cdb_hits h ht hooo (by omega) hit with ⟨he, hk'⟩ | ⟨hm, hk'⟩ | ⟨hw, -⟩
    · rw [grantEx_valid he, Bool.toNat_true] at hk
      omega
    · rw [grantMem_valid hm, Bool.toNat_true] at hk
      omega
    · exact hw
  · intro hw
    obtain ⟨hen, hrob⟩ := cdb_of_grantWb hooo hw
    simp [hen, hrob, hidx]

theorem commitEn_head (hwf : WellFormed s.rob) (hc : commitEn s = true) : (entryAt s 0).completed = true := by
  rw [entryAt, slot_zero]
  exact ((commitEn_eq hwf).mp hc).2

theorem exception_of_finalFlush (ht : TrapInv s) (hooo : oooEn s = true) (hf : finalFlush s = false) :
    s.idEx.ctrl.exception = false := by
  rw [Bool.eq_false_iff]
  intro he
  rw [finalFlush_of_exception hooo (ht.ex hooo he)] at hf
  cases hf

theorem serial_robEmpty (hd : dispatchEn s = true)
    (hser : serialOpcode s.ifId.instruction = true ∨ (ctrlId s).exception = true) : robEmpty s = true := by
  refine (dispatchEn_spec hd).2.2.2.2.2 ?_
  rw [isSerializationReq]
  rcases hser with h | h
  · exact Bool.or_eq_true_iff.mpr (.inl h)
  · exact Bool.or_eq_true_iff.mpr (.inr h)

section Step

variable (h : OooInv s) (ht : TrapInv s) (hooo : oooEn s = true) (hf : finalFlush s = false)

include ht in
theorem ex_step (hv : (tick imem o s).track.validEx = true) :
    ∃ k, occ (tick imem o s) = k + 1 ∧ (tick imem o s).track.robIdxEx = slot (tick imem o s) k ∧
      (entryAt (tick imem o s) k).completed = (tick imem o s).idEx.ctrl.exception ∧
      (serialOpcode (tick imem o s).idEx.instruction = true ∨ (tick imem o s).idEx.ctrl.exception = true → k = 0) := by
  have hd : dispatchEn s = true := by
    rw [validEx_tick, Bool.and_eq_true] at hv
    exact hv.1
  obtain ⟨hooo, hf, hflush, -⟩ := dispatchEn_spec hd
  have hocc := occ_tick imem o ht.wf hooo hf
  rw [hd, Bool.toNat_true] at hocc
  have hpos := commitEn_toNat_le fun hc => ((commitEn_eq ht.wf).mp hc).1
  have hslot : slot (tick imem o s) (occ s - (commitEn s).toNat) = robIdxDisp s := by
    rw [slot_tick hooo hf, Nat.sub_add_cancel hpos, robIdxDisp_eq ht.wf]
  refine ⟨occ s - (commitEn s).toNat, by omega, ?_, ?_, fun hser => ?_⟩
  · rw [hslot, track_tick hf, hflush]
    rfl
  · rw [entryAt, hslot, completed_dispatched ht.wf hd, idEx_dispatched hd]
    rfl
  · rw [idEx_dispatched hd] at hser
    have hzero := count_of_robEmpty ht.wf (serial_robEmpty hd hser)
    exact Nat.sub_eq_zero_of_le (by rw [occ, hzero]; exact Nat.zero_le _)

include h ht hooo hf

theorem mem_step (hv : (tick imem o s).track.validMem = true) :
    ∃ k, occ (tick imem o s) = k + 1 + (tick imem o s).track.validEx.toNat ∧
      (tick imem o s).track.robIdxMem = slot (tick imem o s) k ∧
      (entryAt (tick imem o s) k).completed = (tick imem o s).track.cdbDoneMem ∧
      (serialOpcode (tick imem o s).exMem.instruction = true → k = 0) := by
  have hocc := occ_tick imem o ht.wf hooo hf
  rw [track_tick hf] at hv
  obtain ⟨k, hk, hidx, hcomp, hser⟩ := h.ex hv
  have hexc := exception_of_finalFlush ht hooo hf
  rw [hexc] at hcomp
  have hpos : commitEn s = true → 0 < k := by
    intro hc
    rcases Nat.eq_zero_or_pos k with rfl | hpos
    · rw [commitEn_head ht.wf hc] at hcomp
      cases hcomp
    · exact hpos
  have hle := commitEn_toNat_le hpos
  have hslot : slot (tick imem o s) (k - (commitEn s).toNat) = slot s k := by
    rw [slot_tick hooo hf, Nat.sub_add_cancel hle]
  refine ⟨k - (commitEn s).toNat, ?_, ?_, ?_, fun hs => ?_⟩
  · rw [track_tick hf]
    dsimp only
    omega
  · rw [hslot, ← hidx, track_tick hf]
  · rw [entryAt, hslot, completed_tick ht.wf hooo hf (by omega) hpos, hcomp, hit_ex h ht hooo hv hk hidx, Bool.or_false,
      track_tick hf]
  · rw [exMem_tick, hf] at hs
    have hk0 := hser (.inl hs)
    omega

variable (imem o) in
/-- An instruction in MEM that does not commit now keeps its entry in WB. -/
theorem wb_step_stays (hv : s.track.validMem = true) {k : Nat} (hk : occ s = k + 1 + s.track.validEx.toNat)
    (hidx : s.track.robIdxMem = slot s k) (hcomp : (entryAt s k).completed = s.track.cdbDoneMem)
    (hpos : commitEn s = true → 0 < k) :
    ∃ k', k' + (commitEn s).toNat = k ∧
      occ (tick imem o s) = k' + 1 + (tick imem o s).track.validEx.toNat + (tick imem o s).track.validMem.toNat ∧
      (tick imem o s).track.robIdxWb = slot (tick imem o s) k' ∧
      (entryAt (tick imem o s) k').completed = (tick imem o s).track.cdbDoneWb := by
  have hocc := occ_tick imem o ht.wf hooo hf
  have hle := commitEn_toNat_le hpos
  have hslot : slot (tick imem o s) (k - (commitEn s).toNat) = slot s k := by
    rw [slot_tick hooo hf, Nat.sub_add_cancel hle]
  refine ⟨k - (commitEn s).toNat, Nat.sub_add_cancel hle, ?_, ?_, ?_⟩
  · rw [track_tick hf]
    dsimp only
    omega
  · rw [hslot, ← hidx, track_tick hf]
  · rw [entryAt, hslot, completed_tick ht.wf hooo hf (by omega) hpos, hcomp, hit_mem h ht hooo hv hk hidx,
      Bool.or_comm, track_tick hf]

theorem wb_step (hv : (tick imem o s).track.validWb = true) :
    (∃ k, occ (tick imem o s) =
        k + 1 + (tick imem o s).track.validEx.toNat + (tick imem o s).track.validMem.toNat ∧
      (tick imem o s).track.robIdxWb = slot (tick imem o s) k ∧
      (entryAt (tick imem o s) k).completed = (tick imem o s).track.cdbDoneWb ∧
      (serialOpcode (tick imem o s).memWb.instruction = true → k = 0)) ∨
    (occ (tick imem o s) = (tick imem o s).track.validEx.toNat + (tick imem o s).track.validMem.toNat ∧
      (tick imem o s).track.cdbDoneWb = true) := by
  have hocc := occ_tick imem o ht.wf hooo hf
  rw [track_tick hf] at hv
  obtain ⟨k, hk, hidx, hcomp, hser⟩ := h.mem hv
  by_cases hgone : commitEn s = true ∧ k = 0
  · obtain ⟨hc, rfl⟩ := hgone
    rw [commitEn_head ht.wf hc] at hcomp
    rw [hc, Bool.toNat_true] at hocc
    right
    rw [track_tick hf]
    exact ⟨by dsimp only; omega, by rw [← hcomp]; rfl⟩
  · have hpos : commitEn s = true → 0 < k := fun hc => Nat.pos_of_ne_zero fun hk0 => hgone ⟨hc, hk0⟩
    obtain ⟨k', hk', hocc', hidx', hcomp'⟩ := wb_step_stays imem o h ht hooo hf hv hk hidx hcomp hpos
    refine .inl ⟨k', hocc', hidx', hcomp', fun hs => ?_⟩
    rw [memWb_tick, hf] at hs
    have hk0 := hser hs
    omega

/-- What is in WB is complete one cycle later, by then at the latest. -/
theorem completed_wb_step (hv : s.track.validWb = true) {k : Nat}
    (hk : occ s = k + 1 + s.track.validEx.toNat + s.track.validMem.toNat) (hidx : s.track.robIdxWb = slot s k)
    (hcomp : (entryAt s k).completed = s.track.cdbDoneWb) (hpos : commitEn s = true → 0 < k) :
    ((tick imem o s).rob.robData (slot s k)).completed = true := by
  rw [completed_tick ht.wf hooo hf (by omega) hpos, hcomp, hit_wb h ht hooo hk hidx]
  cases hd : s.track.cdbDoneWb with
  | true => exact Bool.or_true _
  | false => rw [(grantWb_spec ht).mpr ⟨hv, hd⟩]; rfl

theorem lag_step :
    occ (tick imem o s) ≤ (tick imem o s).track.validEx.toNat + (tick imem o s).track.validMem.toNat +
        (tick imem o s).track.validWb.toNat ∨
      (occ (tick imem o s) = (tick imem o s).track.validEx.toNat + (tick imem o s).track.validMem.toNat +
          (tick imem o s).track.validWb.toNat + 1 ∧ (commitEntry (tick imem o s)).completed = true) := by
  have hocc := occ_tick imem o ht.wf hooo hf
  have hhead : commitEntry (tick imem o s) = (tick imem o s).rob.robData (slot s (commitEn s).toNat) := by
    have hs : slot (tick imem o s) 0 = _ := slot_tick hooo hf 0
    rw [slot_zero, Nat.zero_add] at hs
    rw [← hs]
    rfl
  rw [hhead, track_tick hf]
  dsimp only
  by_cases hle : occ s ≤ s.track.validEx.toNat + s.track.validMem.toNat + (commitEn s).toNat
  · left
    omega
  · right
    cases hw : s.track.validWb with
    | false =>
        -- one entry older than all stages is completed, so it commits
        exfalso
        rcases h.lag with hl | ⟨hl, hc⟩
        · rw [hw, Bool.toNat_false] at hl
          omega
        · have hce : commitEn s = true := (commitEn_eq ht.wf).mpr ⟨by omega, hc⟩
          rw [hw, Bool.toNat_false] at hl
          rw [hce, Bool.toNat_true] at hle
          omega
    | true =>
        rcases h.wb hw with ⟨k, hk, hidx, hcomp, -⟩ | ⟨hk, -⟩
        · have hkc : k = (commitEn s).toNat := by
            rcases h.lag with hl | ⟨hl, hc⟩
            · rw [hw, Bool.toNat_true] at hl
              omega
            · have hce : commitEn s = true := (commitEn_eq ht.wf).mpr ⟨by omega, hc⟩
              rw [hw, Bool.toNat_true] at hl
              rw [hce, Bool.toNat_true]
              omega
          subst hkc
          refine ⟨by omega, completed_wb_step h ht hooo hf hw hk hidx hcomp fun hc => ?_⟩
          rw [hc]
          exact Nat.one_pos
        · omega

omit h in
/-- An instruction that leaves WB uncommitted commits in the next cycle. -/
theorem commits_after_wb (h' : OooInv (tick imem o s)) {k : Nat}
    (hk : occ s = k + 1 + s.track.validEx.toNat + s.track.validMem.toNat) (hpos : commitEn s = true → 0 < k) :
    commitEn (tick imem o s) = true ∧ robHead (tick imem o s) = slot s k ∧
      occ (tick imem o s) = (tick imem o s).track.validEx.toNat + (tick imem o s).track.validMem.toNat +
        (tick imem o s).track.validWb.toNat + 1 := by
  have hocc := occ_tick imem o ht.wf hooo hf
  have hle := commitEn_toNat_le hpos
  have hlag := h'.lag
  rw [track_tick hf] at hlag
  dsimp only at hlag
  rcases hlag with hl | ⟨hl, hc⟩
  · have hw := Bool.toNat_le s.track.validMem
    omega
  · have hkc : 0 + (commitEn s).toNat = k := by omega
    refine ⟨(commitEn_eq (wellFormed_step ht.wf _)).mpr ⟨by omega, hc⟩, ?_, ?_⟩
    · rw [← slot_zero, slot_tick hooo hf, hkc]
    · rw [track_tick hf]
      exact hl

end Step

theorem oooInv_step (h : OooInv s) (ht : TrapInv s) (hstay : oooEn s = true → oooEn (tick imem o s) = true) :
    OooInv (tick imem o s) := by
  cases hooo : oooEn s with
  | false =>
      obtain ⟨hocc, hex, hmem, -⟩ := h.idle hooo
      have hocc' : occ (tick imem o s) = 0 := by rw [occ, rob_tick_inOrder hooo]; exact hocc
      have hex' : (tick imem o s).track.validEx = false := by simp [validEx_tick, dispatchEn, hooo]
      have hmem' : (tick imem o s).track.validMem = false := by simp [validMem_tick, hex]
      have hwb' : (tick imem o s).track.validWb = false := by simp [validWb_tick, hmem]
      exact ⟨fun _ => ⟨hocc', hex', hmem', hwb'⟩, fun hv => by simp [hex'] at hv, fun hv => by simp [hmem'] at hv,
        fun hv => by simp [hwb'] at hv, .inl (by omega)⟩
  | true =>
      have hidle : oooEn (tick imem o s) = false → occ (tick imem o s) = 0 ∧ (tick imem o s).track.validEx = false ∧
          (tick imem o s).track.validMem = false ∧ (tick imem o s).track.validWb = false := fun hoff => by
        rw [hstay hooo] at hoff
        cases hoff
      cases hf : finalFlush s with
      | true =>
          have hocc' : occ (tick imem o s) = 0 := occ_tick_flush hooo hf
          have hex' : (tick imem o s).track.validEx = false := by simp [validEx_tick, hf]
          have hmem' : (tick imem o s).track.validMem = false := by simp [validMem_tick, hf]
          have hwb' : (tick imem o s).track.validWb = false := by simp [validWb_tick, hf]
          exact ⟨hidle, fun hv => by simp [hex'] at hv, fun hv => by simp [hmem'] at hv, fun hv => by simp [hwb'] at hv,
            .inl (by omega)⟩
      | false => exact ⟨hidle, ex_step ht, mem_step h ht hooo hf, wb_step h ht hooo hf, lag_step h ht hooo hf⟩

/-- The mode is never switched off again up to cycle `n`. -/
def StaysOn (imem : Imem) (p : PowerUp) (o : Nat → OpenNets) (n : Nat) : Prop :=
  ∀ t < n, oooEn (run imem p o t) = true → oooEn (run imem p o (t + 1)) = true

instance (imem : Imem) (p : PowerUp) (o : Nat → OpenNets) (n : Nat) : Decidable (StaysOn imem p o n) :=
  inferInstanceAs (Decidable (∀ t < n, _ → _))

theorem oooInv_run {p : PowerUp} {o : Nat → OpenNets} {n : Nat} (h : StaysOn imem p o n) :
    OooInv (run imem p o n) := by
  induction n with
  | zero =>
      exact ⟨fun _ => ⟨rfl, rfl, rfl, rfl⟩, fun hv => (Bool.false_ne_true hv).elim,
        fun hv => (Bool.false_ne_true hv).elim, fun hv => (Bool.false_ne_true hv).elim, .inl (Nat.zero_le _)⟩
  | succ n ih =>
      exact oooInv_step (ih fun t ht => h t (by omega)) (trapInv_run imem p o n) (h n (by omega))

end Invariant

end VMate.OooWindow
