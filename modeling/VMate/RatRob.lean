import VMate.RobFifo
import VMate.Rat

namespace VMate.RatRob

open Rob VMate.Rat RobFifo Circular

structure State where
  rob : Rob.State 4 := {}
  rat : Rat.State := {}

/-- What `riscv_top` feeds to `rat` beside the inputs `i` of `rob`. -/
def ratInOf (r : Rob.State 4) (i : RobIn 4) : RatIn :=
  { oooEn := i.oooEn, dispatchEn := i.dispatchEn, destReg := i.destReg, destType := i.destType
    robIdx := r.tailPtr, commitEn := commitEn r, commitDestReg := (headEntry r).destReg
    commitDestType := (headEntry r).destType, commitRobIdx := r.headPtr, flush := i.flush }

/-- `riscv_top` never dispatches into a full buffer and takes every commit. -/
def wired (r : Rob.State 4) (i : RobIn 4) : RobIn 4 :=
  { i with dispatchEn := i.dispatchEn && !robFull r, commitAck := commitEn r }

def pairTick (s : State) (i : RobIn 4) : State :=
  { rob := robTick s.rob (wired s.rob i), rat := ratTick s.rat (ratInOf s.rob (wired s.rob i)) }

def pairRun (ins : Nat → RobIn 4) : Nat → State
  | 0 => {}
  | n + 1 => pairTick (pairRun ins n) (ins n)

/-- Register `a` of the integer file or of the FP file, without `x0`. -/
def renamed (a : BitVec 5) (fp : Bool) : Prop := fp = true ∨ a ≠ 0#5

def entryValid (m : Rat.State) (a : BitVec 5) (fp : Bool) : Bool :=
  if fp then m.fpRatValid a else m.intRatValid a

def carries (r : Rob.State 4) (a : BitVec 5) (fp : Bool) (j : BitVec 4) : Prop :=
  (r.robData j).valid = true ∧ (r.robData j).destReg = a ∧ (r.robData j).destType = fp

/-- The distance of an entry from the head is its age rank. -/
def youngest (r : Rob.State 4) (a : BitVec 5) (fp : Bool) (j : BitVec 4) : Prop :=
  carries r a fp j ∧ ∀ k, carries r a fp k → (k - r.headPtr).toNat ≤ (j - r.headPtr).toNat

structure Coherent (r : Rob.State 4) (m : Rat.State) : Prop where
  youngest : ∀ {a fp}, renamed a fp → inRob m a fp = true → youngest r a fp (robIdxOf m a fp)
  mapped : ∀ {a fp j}, renamed a fp → carries r a fp j → inRob m a fp = true

section Rat

variable {m : Rat.State} {i : RatIn} {a : BitVec 5} {fp : Bool}

/-- The commit in `i` takes back the mapping of register `a`. -/
def unmaps (m : Rat.State) (i : RatIn) (a : BitVec 5) (fp : Bool) : Prop :=
  i.commitEn = true ∧ i.commitDestReg = a ∧ i.commitDestType = fp ∧ robIdxOf m a fp = i.commitRobIdx

def maps (i : RatIn) (a : BitVec 5) (fp : Bool) : Prop :=
  i.dispatchEn = true ∧ i.destReg = a ∧ i.destType = fp

theorem inRob_renamed (ha : renamed a fp) : inRob m a fp = entryValid m a fp := by
  rcases ha with rfl | ha
  · simp [inRob, entryValid]
  · simp [inRob, entryValid, ha]

theorem inRob_of_maps (h : i.oooEn = true) (hf : i.flush = false) (ha : renamed a fp) (hm : maps i a fp) :
    inRob (ratTick m i) a fp = true ∧ robIdxOf (ratTick m i) a fp = i.robIdx := by
  obtain ⟨hd, rfl, rfl⟩ := hm
  rw [inRob_renamed ha]
  cases hfp : i.destType with
  | false =>
      have hne : i.destReg ≠ 0#5 := ha.resolve_left (by simp [hfp])
      simp [entryValid, ratTick, robIdxOf, h, hf, mapsInt, hd, hfp, hne]
  | true => simp [entryValid, ratTick, robIdxOf, h, hf, mapsFp, hd, hfp]

theorem not_mapsInt (hm : ¬ maps i a false) : (mapsInt i && a == i.destReg) = false := by
  rw [Bool.eq_false_iff]
  intro h
  simp only [mapsInt, Bool.and_eq_true, Bool.not_eq_true', beq_iff_eq] at h
  exact hm ⟨h.1.1.1, h.2.symm, h.1.1.2⟩

theorem not_mapsFp (hm : ¬ maps i a true) : (mapsFp i && a == i.destReg) = false := by
  rw [Bool.eq_false_iff]
  intro h
  simp only [mapsFp, Bool.and_eq_true, beq_iff_eq] at h
  exact hm ⟨h.1.1, h.2.symm, h.1.2⟩

theorem clearsInt_iff (ha : a ≠ 0#5) :
    (clearsInt m i && a == i.commitDestReg) = true ↔ unmaps m i a false := by
  simp only [clearsInt, unmaps, robIdxOf, Bool.and_eq_true, Bool.not_eq_true', beq_iff_eq, bne_iff_ne]
  constructor
  · rintro ⟨⟨⟨⟨hc, ht⟩, -⟩, hi⟩, rfl⟩
    exact ⟨hc, rfl, ht, by simpa using hi⟩
  · rintro ⟨hc, rfl, ht, hi⟩
    exact ⟨⟨⟨⟨hc, ht⟩, ha⟩, by simpa using hi⟩, rfl⟩

theorem clearsFp_iff : (clearsFp m i && a == i.commitDestReg) = true ↔ unmaps m i a true := by
  simp only [clearsFp, unmaps, robIdxOf, Bool.and_eq_true, beq_iff_eq]
  constructor
  · rintro ⟨⟨⟨hc, ht⟩, hi⟩, rfl⟩
    exact ⟨hc, rfl, ht, by simpa using hi⟩
  · rintro ⟨hc, rfl, ht, hi⟩
    exact ⟨⟨⟨hc, ht⟩, by simpa using hi⟩, rfl⟩

theorem robIdxOf_of_not_maps (hm : ¬ maps i a fp) : robIdxOf (ratTick m i) a fp = robIdxOf m a fp := by
  unfold ratTick
  split_ifs
  · rfl
  · rfl
  · cases fp with
    | false => simp [robIdxOf, not_mapsInt hm]
    | true => simp [robIdxOf, not_mapsFp hm]

theorem inRob_of_not_maps (h : i.oooEn = true) (hf : i.flush = false) (ha : renamed a fp) (hm : ¬ maps i a fp) :
    inRob (ratTick m i) a fp = true ↔ inRob m a fp = true ∧ ¬ unmaps m i a fp := by
  rw [inRob_renamed ha, inRob_renamed ha]
  cases fp with
  | false =>
      have hne : a ≠ 0#5 := ha.resolve_left (by simp)
      simp only [entryValid, ratTick, h, hf, not_mapsInt hm, Bool.not_true, Bool.false_eq_true, if_false]
      rw [← clearsInt_iff hne]
      cases clearsInt m i && a == i.commitDestReg <;> simp
  | true =>
      simp only [entryValid, ratTick, h, hf, not_mapsFp hm, Bool.not_true, Bool.false_eq_true, if_false, if_true]
      rw [← clearsFp_iff]
      cases clearsFp m i && a == i.commitDestReg <;> simp

theorem inRob_flush (h : i.oooEn = true) (hf : i.flush = true) : inRob (ratTick m i) a fp = false := by
  cases fp <;> simp [inRob, ratTick, h, hf]

end Rat

section Step

variable {r : Rob.State 4} {m : Rat.State} {i : RobIn 4} {a : BitVec 5} {fp : Bool} {j : BitVec 4}

theorem carries_inWindow (hr : WellFormed r) (h : carries r a fp j) : (j - r.headPtr).toNat < r.count.toNat :=
  (hr.valid_iff j).mp h.1

/-- The writers of a register after an edge: the dispatched one at the tail,
and the earlier ones that do not commit. -/
theorem carries_step (hr : WellFormed r) (h : i.oooEn = true) (hf : i.flush = false) (j : BitVec 4) :
    carries (robTick r i) a fp j ↔
      (accepts r i = true ∧ i.destReg = a ∧ i.destType = fp ∧ j = r.tailPtr) ∨
        (carries r a fp j ∧ ¬ (retires r i = true ∧ j = r.headPtr)) := by
  have hdata : (robTick r i).robData j = nextEntry r i j := by rw [robTick_step h hf]
  have hpay := nextEntry_payload r i j
  have hval := nextEntry_valid r i j
  simp only [payload, dispatchPayload] at hpay
  simp only [carries, hdata, hval]
  by_cases hacc : accepts r i = true ∧ j = r.tailPtr
  · obtain ⟨ha, rfl⟩ := hacc
    have hfree := tail_free hr (accepts_lt hr ha)
    have hne : ¬ (retires r i = true ∧ r.tailPtr = r.headPtr) := fun hc => head_ne_tail hr ha hc.1 hc.2.symm
    simp only [ha, beq_self_eq_true, Bool.and_self, if_true, Payload.mk.injEq] at hpay
    simp [ha, hpay, hfree, hne]
  · have hacc' : (accepts r i && j == r.tailPtr) = false := by
      rw [Bool.eq_false_iff]
      simpa using hacc
    simp only [hacc', Bool.false_eq_true, if_false, Payload.mk.injEq] at hpay
    have hno : ¬ (accepts r i = true ∧ i.destReg = a ∧ i.destType = fp ∧ j = r.tailPtr) :=
      fun hd => hacc ⟨hd.1, hd.2.2.2⟩
    rw [hacc', or_iff_right hno, hpay.1, hpay.2.1]
    by_cases hret : retires r i = true ∧ j = r.headPtr
    · simp [hret]
    · have hret' : (retires r i && j == r.headPtr) = false := by
        rw [Bool.eq_false_iff]
        simpa using hret
      simp [hret', hret]

theorem age_step (h : i.oooEn = true) (hf : i.flush = false) (hj : ¬ (retires r i = true ∧ j = r.headPtr)) :
    (j - (robTick r i).headPtr).toNat + (retires r i).toNat = (j - r.headPtr).toNat := by
  have hhead : (robTick r i).headPtr = if retires r i then r.headPtr + 1 else r.headPtr := by
    rw [robTick_step h hf]
  rw [hhead]
  cases hc : retires r i with
  | false => rfl
  | true => exact sub_succ_toNat (fun he => hj ⟨hc, he⟩)

/-- A dispatched writer is the youngest: it sits in the last slot of the window. -/
theorem youngest_dispatched (hr : WellFormed r) (h : i.oooEn = true) (hf : i.flush = false)
    (hacc : accepts r i = true) (ha : i.destReg = a) (hfp : i.destType = fp) :
    youngest (robTick r i) a fp r.tailPtr := by
  have hwf := wellFormed_step hr i
  have hcount := count_step hr h hf
  have hlt := accepts_lt hr hacc
  have hne : ¬ (retires r i = true ∧ r.tailPtr = r.headPtr) := fun hc => head_ne_tail hr hacc hc.1 hc.2.symm
  have hage := age_step h hf hne
  have htail : (r.tailPtr - r.headPtr).toNat = r.count.toNat := (sub_eq_ofNat_iff hlt).mpr hr.tail_eq
  refine ⟨(carries_step hr h hf _).mpr (.inl ⟨hacc, ha, hfp, rfl⟩), fun k hk => ?_⟩
  have hk' := carries_inWindow hwf hk
  rw [hacc, Bool.toNat_true] at hcount
  omega

theorem accepts_wired (hdisp : i.dispatchEn = true → robFull r = false) : accepts r i = i.dispatchEn := by
  cases hd : i.dispatchEn with
  | false => simp [accepts, hd]
  | true => simp [accepts, hd, hdisp hd]

theorem unmaps_iff (hack : i.commitAck = commitEn r) :
    unmaps m (ratInOf r i) a fp ↔ retires r i = true ∧ (headEntry r).destReg = a ∧
      (headEntry r).destType = fp ∧ robIdxOf m a fp = r.headPtr := by
  rw [retires, hack, Bool.and_self]
  rfl

/-- The mapping that survives a commit is not the head, so it stays the
youngest writer while all ages drop together. -/
theorem youngest_kept (hr : WellFormed r) (h : i.oooEn = true) (hf : i.flush = false)
    (hack : i.commitAck = commitEn r) (hdisp : i.dispatchEn = true → robFull r = false)
    (hm : ¬ maps (ratInOf r i) a fp) (hun : ¬ unmaps m (ratInOf r i) a fp)
    (hy : youngest r a fp (robIdxOf m a fp)) : youngest (robTick r i) a fp (robIdxOf m a fp) := by
  obtain ⟨hcar, hmax⟩ := hy
  have hkeep : ¬ (retires r i = true ∧ robIdxOf m a fp = r.headPtr) := by
    rintro ⟨hre, hhead⟩
    have hdest := hcar.2
    rw [hhead] at hdest
    exact hun ((unmaps_iff hack).mpr ⟨hre, hdest.1, hdest.2, hhead⟩)
  refine ⟨(carries_step hr h hf _).mpr (.inr ⟨hcar, hkeep⟩), fun k hk => ?_⟩
  rcases (carries_step hr h hf k).mp hk with ⟨hd, hreg, hty, -⟩ | ⟨hk, hkr⟩
  · exact absurd ⟨(accepts_wired hdisp).symm.trans hd, hreg, hty⟩ hm
  · have hle := hmax k hk
    have hage := age_step h hf hkeep
    have hage' := age_step h hf hkr
    omega

/-- A commit takes a mapping back only when the head was the last writer. -/
theorem not_unmaps_of_carries (hack : i.commitAck = commitEn r) (hy : youngest r a fp (robIdxOf m a fp))
    (hj : carries r a fp j) (hjr : ¬ (retires r i = true ∧ j = r.headPtr)) :
    ¬ unmaps m (ratInOf r i) a fp := by
  rw [unmaps_iff hack]
  rintro ⟨hre, -, -, hhead⟩
  have hle := hy.2 j hj
  rw [hhead] at hle
  have hz : (j - r.headPtr).toNat = 0 := by simpa using hle
  have hjh : j = r.headPtr := by
    rw [sub_eq_ofNat_iff (by decide)] at hz
    simpa using hz
  exact hjr ⟨hre, hjh⟩

theorem coherent_step (hr : WellFormed r) (hack : i.commitAck = commitEn r)
    (hdisp : i.dispatchEn = true → robFull r = false) (hc : Coherent r m) :
    Coherent (robTick r i) (ratTick m (ratInOf r i)) := by
  cases h : i.oooEn with
  | false =>
      have hm : ratTick m (ratInOf r i) = m := by simp [ratTick, ratInOf, h]
      rwa [hm, robTick_gated h]
  | true =>
      have hrat : (ratInOf r i).oooEn = true := h
      cases hf : i.flush with
      | true =>
          constructor
          · intro a fp _ hin
            rw [inRob_flush hrat hf] at hin
            cases hin
          · intro a fp j _ hj
            simp [carries, robTick_flush h hf, released] at hj
      | false =>
          have hratf : (ratInOf r i).flush = false := hf
          constructor
          · intro a fp ha hin
            by_cases hm : maps (ratInOf r i) a fp
            · rw [(inRob_of_maps hrat hratf ha hm).2]
              exact youngest_dispatched hr h hf ((accepts_wired hdisp).trans hm.1) hm.2.1 hm.2.2
            · rw [inRob_of_not_maps hrat hratf ha hm] at hin
              rw [robIdxOf_of_not_maps hm]
              exact youngest_kept hr h hf hack hdisp hm hin.2 (hc.youngest ha hin.1)
          · intro a fp j ha hj
            by_cases hm : maps (ratInOf r i) a fp
            · exact (inRob_of_maps hrat hratf ha hm).1
            · rw [inRob_of_not_maps hrat hratf ha hm]
              rcases (carries_step hr h hf j).mp hj with ⟨hd, hreg, hty, -⟩ | ⟨hj, hjr⟩
              · exact absurd ⟨(accepts_wired hdisp).symm.trans hd, hreg, hty⟩ hm
              · have hin := hc.mapped ha hj
                exact ⟨hin, not_unmaps_of_carries hack (hc.youngest ha hin) hj hjr⟩

theorem coherent_reset : Coherent {} {} where
  youngest {a fp} _ hin := by cases fp <;> simp [inRob] at hin
  mapped {a fp j} _ hj := by simp [carries] at hj

end Step

theorem wired_dispatchEn {r : Rob.State 4} {i : RobIn 4} (h : (wired r i).dispatchEn = true) :
    robFull r = false := by
  simp only [wired, Bool.and_eq_true, Bool.not_eq_true'] at h
  exact h.2

theorem coherent_run (ins : Nat → RobIn 4) (n : Nat) :
    WellFormed (pairRun ins n).rob ∧ Coherent (pairRun ins n).rob (pairRun ins n).rat := by
  induction n with
  | zero => exact ⟨wellFormed_reset, coherent_reset⟩
  | succ n ih => exact ⟨wellFormed_step ih.1 _, coherent_step ih.1 rfl wired_dispatchEn ih.2⟩

/-- In every reachable state a renamed register is mapped exactly while some
valid entry of the buffer writes it, and then to the youngest such entry. -/
theorem rat_rob_coherent (ins : Nat → RobIn 4) (n : Nat) (a : BitVec 5) (fp : Bool) (ha : renamed a fp) :
    (entryValid (pairRun ins n).rat a fp = true ↔ ∃ j, carries (pairRun ins n).rob a fp j) ∧
      ((∃ j, carries (pairRun ins n).rob a fp j) →
        youngest (pairRun ins n).rob a fp (robIdxOf (pairRun ins n).rat a fp)) := by
  have hc := (coherent_run ins n).2
  rw [← inRob_renamed ha]
  have hiff : inRob (pairRun ins n).rat a fp = true ↔ ∃ j, carries (pairRun ins n).rob a fp j := by
    constructor
    · intro hin
      exact ⟨_, (hc.youngest ha hin).1⟩
    · rintro ⟨j, hj⟩
      exact hc.mapped ha hj
  exact ⟨hiff, fun hj => hc.youngest ha (hiff.mpr hj)⟩

/-- Two dispatches that write `f3`. -/
def twoWriters (n : Nat) : RobIn 4 :=
  { oooEn := true, dispatchEn := n < 2, destReg := 3#5, destType := true, pc := 0, isStore := false
    isBranch := false, instruction := 0, dispatchException := false, dispatchExceptionCause := 0
    completeEn := false, completeIdx := 0, result := 0, exception := false, exceptionCause := 0
    branchMispredicted := false, branchTarget := 0, commitAck := false, flush := false }

theorem rat_rob_coherent_two :
    renamed 3#5 true ∧ carries (pairRun twoWriters 2).rob 3#5 true 1#4 ∧
      youngest (pairRun twoWriters 2).rob 3#5 true (robIdxOf (pairRun twoWriters 2).rat 3#5 true) := by
  have hj : carries (pairRun twoWriters 2).rob 3#5 true 1#4 := ⟨by decide, by decide, by decide⟩
  exact ⟨.inl rfl, hj, (rat_rob_coherent twoWriters 2 3#5 true (.inl rfl)).2 ⟨_, hj⟩⟩

end VMate.RatRob
