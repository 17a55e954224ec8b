import VMate.TopUnits

namespace VMate.RatProducer

open Rob RobFifo RatRob OooTrap TopUnits
open VMate.Rat hiding State
open Decode Pipe
open RiscvTop hiding robFull commitEn

/-- Control decodes a destination for the instruction in ID. -/
def hasDest (s : RiscvTop.State) : Bool := (ctrlId s).regWrite || (ctrlId s).fpWe

/-- What `rat` reports for an integer register is an entry in flight that
writes it. -/
def ProducersOnly (s : RiscvTop.State) : Prop :=
  ∀ r, inRob s.rat r false = true →
    carries s.rob r false (robIdxOf s.rat r false) ∧ s.robRegWriteArray (robIdxOf s.rat r false) = true

/-- The dispatch of this cycle, if it maps a register, has a destination. -/
def CapturesProducer (s : RiscvTop.State) : Prop := (mapsInt (ratIn s) || mapsFp (ratIn s)) = true → hasDest s = true

/-- An instruction that is dispatched without a destination has zeros where
the others have `rd`. -/
def BlankDest (s : RiscvTop.State) : Prop :=
  dispatchEn s = true → hasDest s = false → rdOf s.ifId.instruction = 0#5

theorem capturesProducer_iff (s : RiscvTop.State) : CapturesProducer s ↔ BlankDest s := by
  have hmaps : (mapsInt (ratIn s) || mapsFp (ratIn s)) =
      (dispatchEn s && ((ctrlId s).fpWe || rdOf s.ifId.instruction != 0#5)) := by
    show (dispatchEn s && !(ctrlId s).fpWe && rdOf s.ifId.instruction != 0#5 || dispatchEn s && (ctrlId s).fpWe) = _
    cases dispatchEn s <;> cases (ctrlId s).fpWe <;> simp
  rw [CapturesProducer, BlankDest, hmaps, hasDest]
  cases dispatchEn s <;> cases (ctrlId s).fpWe <;> cases (ctrlId s).regWrite <;> simp

section Step

variable {imem : Imem} {o : OpenNets} {s : RiscvTop.State}

/-- The entries in flight for integer registers are marked as writers. -/
def Marked (s : RiscvTop.State) : Prop :=
  ∀ {r j}, r ≠ 0#5 → carries s.rob r false j → s.robRegWriteArray j = true

theorem accepts_robIn (o : OpenNets) (s : RiscvTop.State) : accepts s.rob (robIn o s) = dispatchEn s :=
  accepts_wired fun h => (dispatchEn_spec h).2.2.2.2.1

theorem robRegWriteArray_tick (imem : Imem) (o : OpenNets) (s : RiscvTop.State) (j : BitVec 4) :
    (tick imem o s).robRegWriteArray j = if dispatchEn s = true ∧ j = s.rob.tailPtr then hasDest s
      else s.robRegWriteArray j := by
  change (if dispatchEn s then Function.update s.robRegWriteArray s.rob.tailPtr (hasDest s)
    else s.robRegWriteArray) j = _
  cases dispatchEn s with
  | false => simp
  | true =>
      by_cases hj : j = s.rob.tailPtr
      · simp [hj]
      · simp [hj]

theorem marked_tick (hr : WellFormed s.rob) (hb : BlankDest s) (h : Marked s) : Marked (tick imem o s) := by
  intro r j hr0 hc
  change carries (robTick s.rob (robIn o s)) r false j at hc
  rw [robRegWriteArray_tick]
  cases hooo : oooEn s with
  | false =>
      have hd : dispatchEn s = false := by simp [dispatchEn, hooo]
      rw [robTick_gated hooo] at hc
      rw [if_neg (by simp [hd])]
      exact h hr0 hc
  | true =>
      cases hf : finalFlush s with
      | true =>
          rw [robTick_flush hooo hf] at hc
          simp [carries, released] at hc
      | false =>
          rcases (carries_step hr hooo hf j).mp hc with ⟨hacc, hreg, hty, hj⟩ | ⟨hc, -⟩
          · rw [accepts_robIn] at hacc
            rw [if_pos ⟨hacc, hj⟩]
            by_contra hno
            exact hr0 (hreg ▸ hb hacc (by simpa using hno))
          · have hold := h hr0 hc
            rw [if_neg]
            · exact hold
            · rintro ⟨hd, rfl⟩
              have hfree := tail_free hr (accepts_lt hr ((accepts_robIn o s).trans hd))
              exact absurd hc.1 (by simp [hfree])

/-- A dispatch that has no destination and is not blank maps a register to an
entry that is not marked. -/
theorem blankDest_of_producersOnly (h : ProducersOnly (tick imem o s)) : BlankDest s := by
  intro hd hno
  by_contra hrd
  obtain ⟨hooo, hflush, -⟩ := dispatchEn_spec hd
  have hfp : (ctrlId s).fpWe = false := (Bool.or_eq_false_iff.mp hno).2
  have hmap : maps (ratIn s) (rdOf s.ifId.instruction) false := ⟨hd, rfl, hfp⟩
  obtain ⟨hin, hidx⟩ := inRob_of_maps (m := s.rat) hooo hflush (.inr hrd) hmap
  have hmark := (h _ hin).2
  change (tick imem o s).robRegWriteArray (robIdxOf (ratTick s.rat (ratIn s)) _ false) = true at hmark
  rw [hidx, robRegWriteArray_tick, if_pos ⟨hd, rfl⟩, hno] at hmark
  cases hmark

end Step

section Run

variable (imem : Imem) (p : PowerUp) (o : Nat → OpenNets)

theorem wellFormed_top (n : Nat) : WellFormed (run imem p o n).rob := by
  have h := (coherent_run (robIns imem p o) n).1
  rwa [pairRun_top] at h

theorem marked_run {n : Nat} (h : ∀ t < n, BlankDest (run imem p o t)) : Marked (run imem p o n) := by
  induction n with
  | zero =>
      intro r j _ hc
      cases hc.1
  | succ n ih =>
      exact marked_tick (wellFormed_top imem p o n) (h n (Nat.lt_succ_self n)) (ih fun t ht => h t (Nat.lt_succ_of_lt ht))

theorem producersOnly_of_marked {n : Nat} (h : Marked (run imem p o n)) : ProducersOnly (run imem p o n) := by
  intro r hin
  have hr0 : r ≠ 0#5 := by
    rintro rfl
    cases hin
  have hc := ((coherent_top imem p o n).youngest (.inr hr0) hin).1
  exact ⟨hc, h hr0 hc⟩

/-- The RAT takes the bits 11:7 of whatever is dispatched for a destination,
while the register write array asks the decoder. So it reports producers only,
and captures producers only, exactly in the runs in which instructions without
a destination have zeros in these bits. -/
theorem producersOnly_iff (N : Nat) :
    ((∀ n ≤ N, ProducersOnly (run imem p o n)) ↔ ∀ n < N, BlankDest (run imem p o n)) ∧
      ((∀ n < N, CapturesProducer (run imem p o n)) ↔ ∀ n < N, BlankDest (run imem p o n)) := by
  refine ⟨⟨fun h n hn => ?_, fun h n hn => ?_⟩, forall₂_congr fun n _ => capturesProducer_iff _⟩
  · exact blankDest_of_producersOnly (h (n + 1) hn)
  · apply producersOnly_of_marked
    exact marked_run imem p o fun t ht => h t (lt_of_lt_of_le ht hn)

/-- `bne x0, x0, 4` has the bits of `x4` where an `addi` names its `rd`. -/
theorem branch_captures :
    oooEn (run (imageOf [csrOooOn, 0x00001263#32]) zeroPowerUp (fun _ => zeroNets) 5) = true ∧
      ¬ ProducersOnly (run (imageOf [csrOooOn, 0x00001263#32]) zeroPowerUp (fun _ => zeroNets) 5) ∧
      ¬ CapturesProducer (run (imageOf [csrOooOn, 0x00001263#32]) zeroPowerUp (fun _ => zeroNets) 4) := by
  refine ⟨by decide +kernel, fun h => ?_, fun h => ?_⟩
  · have hmark := (h 4#5 (by decide +kernel)).2
    revert hmark
    decide +kernel
  · have hdest := h (by decide +kernel)
    revert hdest
    decide +kernel

end Run

end VMate.RatProducer
