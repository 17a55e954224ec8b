import VMate.OooWindow
import VMate.IqFate

namespace VMate.OooSpace

open Decode Pipe RiscvTop DecodeFacts StageCtrl RobFifo OooTrap OooWindow Iq IqFate

variable {imem : Imem} {o : OpenNets} {s : RiscvTop.State}

/-- The operands of an entry that waits for nothing. -/
def settled (e : IqEntry) : Prop := e.rs1.wait = false ∧ e.rs2.wait = false ∧ e.rs3.wait = false

/-- The issue queue holds at most the instruction in EX. -/
structure IqInv (s : RiscvTop.State) : Prop where
  one : ∀ k l, (s.iq k).valid = true → (s.iq l).valid = true → k = l
  ex : ∀ k, (s.iq k).valid = true → s.track.validEx = true ∧ (s.iq k).robIdx = s.track.robIdxEx ∧
    (s.iq k).opType = s.idEx.instruction ∧ settled (s.iq k)

section Issue

theorem captured_settled {i : IqIn} {x : Operand} (h : x.wait = false) : captured i x = x := by
  simp [captured, hit, h]

theorem woken_settled {i : IqIn} {e : IqEntry} (h : settled e) : woken i e = e := by
  simp [woken, captured_settled h.1, captured_settled h.2.1, captured_settled h.2.2]

/-- An opcode that `iq` takes for a memory operation is serialised or illegal. -/
theorem serial_of_isMemOp {i : BitVec 32} (fs : BitVec 2) (rm : BitVec 3) (h : isMemOp i = true) :
    serialOpcode i = true ∨ (decode i fs rm).exception = true := by
  by_cases hop : opcodeOf i = 0b0101011#7
  · right
    have hrow : row i = illegal {} := by rw [row, hop]; rfl
    rw [decode_eq, hrow]
    rfl
  · left
    have hne : (i.extractLsb 6 0 == 0b0101011#7) = false := beq_eq_false_iff_ne.mpr hop
    simp only [isMemOp, hne, Bool.or_false, Bool.or_eq_true, beq_iff_eq] at h
    simp only [serialOpcode, serialOp, opcodeOf, Bool.or_eq_true, beq_iff_eq]
    tauto

/-- The entry of the instruction in EX is ready: it waits for no operand, and
a memory operation is alone in the reorder buffer. -/
theorem ready_of_valid (hq : IqInv s) (h : OooInv s) (ht : TrapInv s) (hdec : CtrlDecoded s) (hooo : oooEn s = true)
    (hf : finalFlush s = false) {k : Fin 8} (hv : (s.iq k).valid = true) : ready (iqIn o s) (s.iq k) = true := by
  obtain ⟨hex, hidx, hop, h1, h2, h3⟩ := hq.ex k hv
  have hmem : (!isMemOp (s.iq k).opType || (s.iq k).robIdx == (iqIn o s).robHead) = true := by
    cases hm : isMemOp (s.iq k).opType with
    | false => rfl
    | true =>
        obtain ⟨fs, rm, hctrl⟩ := hdec.idEx
        obtain ⟨j, -, hslot, -, hser⟩ := h.ex hex
        have hexc := exception_of_finalFlush ht hooo hf
        rw [hop] at hm
        have hj : j = 0 := by
          rcases serial_of_isMemOp fs rm hm with hs | he
          · exact hser (.inl hs)
          · rw [hctrl] at hexc
            rw [he] at hexc
            cases hexc
        rw [hidx, hslot, hj, slot_zero]
        simp [iqIn]
  simp [ready, hv, h1, h2, h3, hmem]

/-- So the only entry leaves the queue on the next edge. -/
theorem selIdx_of_valid (hq : IqInv s) (h : OooInv s) (ht : TrapInv s) (hdec : CtrlDecoded s)
    (hooo : oooEn s = true) (hf : finalFlush s = false) {k : Fin 8} (hv : (s.iq k).valid = true) :
    selIdx s.iq (iqIn o s) = some k := by
  have hr := ready_of_valid (o := o) hq h ht hdec hooo hf hv
  cases hs : selIdx s.iq (iqIn o s) with
  | none =>
      have hnone := List.find?_eq_none.mp hs k (List.mem_finRange k)
      exact absurd hr hnone
  | some l => rw [hq.one l k (valid_of_ready (selIdx_ready hs)) hv]

end Issue

section Step

theorem iq_tick : (tick imem o s).iq = iqTick s.iq (iqIn o s) := rfl

/-- After an edge the queue holds the instruction dispatched in that cycle
and nothing else. -/
theorem dispatched_of_valid (hq : IqInv s) (h : OooInv s) (ht : TrapInv s) (hdec : CtrlDecoded s) {k : Fin 8}
    (hv : ((tick imem o s).iq k).valid = true) :
    dispatchEn s = true ∧ allocIdx s.iq = some k ∧
      (tick imem o s).iq k = { woken (iqIn o s) (iqDispatch s) with valid := true } := by
  rw [iq_tick] at hv ⊢
  cases hooo : oooEn s with
  | false =>
      rw [iqTick_gated hooo] at hv
      have hidle := (h.idle hooo).2.1
      rw [(hq.ex k hv).1] at hidle
      cases hidle
  | true =>
      cases hf : finalFlush s with
      | true =>
          rw [iqTick_flush hooo hf] at hv
          cases hv
      | false =>
          by_cases hd : dispatchEn s = true ∧ allocIdx s.iq = some k
          · exact ⟨hd.1, hd.2, iqTick_alloc hooo hf hd⟩
          · exfalso
            by_cases ha : (iqIn o s).issueAck = true ∧ selIdx s.iq (iqIn o s) = some k
            · rw [iqTick_taken hooo hf ha] at hv
              cases hv
            · rw [iqTick_keep hooo hf hd ha] at hv
              have hold : (s.iq k).valid = true := by
                by_contra hno
                rw [if_neg hno] at hv
                exact hno hv
              have hsel := selIdx_of_valid (o := o) hq h ht hdec hooo hf hold
              refine ha ⟨?_, hsel⟩
              change issueEn s.iq (iqIn o s) = true
              rw [issueEn, hsel]
              rfl

theorem iqInv_step (hq : IqInv s) (h : OooInv s) (ht : TrapInv s) (hdec : CtrlDecoded s) :
    IqInv (tick imem o s) := by
  constructor
  · intro k l hk hl
    obtain ⟨-, hk, -⟩ := dispatched_of_valid hq h ht hdec hk
    obtain ⟨-, hl, -⟩ := dispatched_of_valid hq h ht hdec hl
    exact Option.some_injective _ (hk.symm.trans hl)
  · intro k hk
    obtain ⟨hd, -, he⟩ := dispatched_of_valid hq h ht hdec hk
    obtain ⟨-, hf, hflush, -⟩ := dispatchEn_spec hd
    have hset : settled (iqDispatch s) := ⟨rfl, rfl, rfl⟩
    rw [he, woken_settled hset, validEx_tick, idEx_dispatched hd, track_tick hf, hd, hf, hflush]
    exact ⟨rfl, rfl, rfl, hset⟩

theorem iqInv_run {p : PowerUp} {o : Nat → OpenNets} {n : Nat} (h : StaysOn imem p o n) :
    IqInv (run imem p o n) := by
  induction n with
  | zero => exact ⟨fun k l hk => (Bool.false_ne_true hk).elim, fun k hk => (Bool.false_ne_true hk).elim⟩
  | succ n ih =>
      have hn : StaysOn imem p o n := fun t ht => h t (by omega)
      exact iqInv_step (ih hn) (oooInv_run hn) (trapInv_run imem p o n) (ctrlDecoded_run imem p o n)

end Step

theorem robFull_of_occ (h : occ s ≤ 4) : RiscvTop.robFull s = false := by
  rw [RiscvTop.robFull, Bool.eq_false_iff, ne_eq, RobFifo.robFull_iff]
  have hocc : s.rob.count.toNat ≤ 4 := h
  omega

theorem iqFull_of_one (h : ∀ k l, (s.iq k).valid = true → (s.iq l).valid = true → k = l) : iqFull s.iq = false := by
  rw [Bool.eq_false_iff]
  intro hfull
  rw [iqFull, Option.isNone_iff_eq_none] at hfull
  have hall : ∀ k, (s.iq k).valid = true := by
    intro k
    have hk := List.find?_eq_none.mp hfull k (List.mem_finRange k)
    simpa using hk
  exact absurd (h 0 1 (hall 0) (hall 1)) (by decide)

/-- Neither structure fills up in OoO mode. The reorder buffer holds at most
four instructions and the issue queue one, so a dispatch is held back by
serialisation or by a hazard and by nothing else. -/
theorem ooo_never_full (imem : Imem) (p : PowerUp) (o : Nat → OpenNets) (n : Nat) (h : StaysOn imem p o n) :
    (run imem p o n).rob.count.toNat ≤ 4 ∧
      (∀ k l, ((run imem p o n).iq k).valid = true → ((run imem p o n).iq l).valid = true → k = l) ∧
      RiscvTop.robFull (run imem p o n) = false ∧ iqFull (run imem p o n).iq = false ∧
      stallIfId (run imem p o n) = ((hazard (run imem p o n)).stallIfId ||
        (oooEn (run imem p o n) && isSerializationReq (run imem p o n) && !robEmpty (run imem p o n) &&
          validInstIdNoStall (run imem p o n))) := by
  have hocc := occ_le (oooInv_run h)
  have hone := (iqInv_run h).one
  have hrob := robFull_of_occ hocc
  have hiq := iqFull_of_one hone
  refine ⟨hocc, hone, hrob, hiq, ?_⟩
  rw [stallIfId, stallDispatch, hrob, hiq, Bool.or_false, Bool.or_false]
  simp only [Bool.and_assoc]

/-- Six additions in OoO mode. -/
def addsImage : Imem :=
  imageOf [csrOooOn, 0x00108093#32, 0x00108093#32, 0x00108093#32, 0x00108093#32, 0x00108093#32, 0x00108093#32]

theorem ooo_never_full_adds :
    StaysOn addsImage zeroPowerUp (fun _ => zeroNets) 8 ∧
      oooEn (run addsImage zeroPowerUp (fun _ => zeroNets) 8) = true ∧
      (run addsImage zeroPowerUp (fun _ => zeroNets) 8).rob.count.toNat ≤ 4 := by
  have h : StaysOn addsImage zeroPowerUp (fun _ => zeroNets) 8 := by decide +kernel
  exact ⟨h, by decide +kernel, (ooo_never_full addsImage zeroPowerUp _ 8 h).1⟩

end VMate.OooSpace
