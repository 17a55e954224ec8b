import VMate.Iq

namespace VMate.IqFate

open Iq

variable {depth : Nat}

theorem firstIdx_spec {p : Fin depth → Bool} {k : Fin depth} (h : firstIdx p = some k) : p k = true :=
  List.find?_some h

theorem allocIdx_free {q : State depth} {k : Fin depth} (h : allocIdx q = some k) : (q k).valid = false := by
  simpa using firstIdx_spec h

theorem selIdx_ready {q : State depth} {i : IqIn} {k : Fin depth} (h : selIdx q i = some k) :
    ready i (q k) = true :=
  firstIdx_spec h

theorem valid_of_ready {i : IqIn} {e : IqEntry} (h : ready i e = true) : e.valid = true := by
  simp only [ready, Bool.and_eq_true] at h
  exact h.1.1.1.1

section Run

variable (q₀ : State depth) (i : Nat → IqIn)

/-- The queue after `t` cycles from reset. Reset clears the valid bits only. -/
def iqRun : Nat → State depth
  | 0 => fun k => { q₀ k with valid := false }
  | t + 1 => iqTick (iqRun t) (i t)

/-- A dispatch is accepted on an edge of the gated clock that is not a flush,
while an entry is free. -/
def accepted (t : Nat) : Prop :=
  (i t).oooEn = true ∧ (i t).flush = false ∧ (i t).dispatchEn = true ∧ iqFull (iqRun q₀ i t) = false

/-- The cycle whose dispatch wrote the entry `k` as it stands at cycle `t`. -/
def owner : Nat → Fin depth → Option Nat
  | 0 => fun _ => none
  | t + 1 => fun k =>
    if !(i t).oooEn then owner t k
    else if (i t).flush then none
    else if (i t).dispatchEn ∧ allocIdx (iqRun q₀ i t) = some k then some t
    else if (i t).issueAck ∧ selIdx (iqRun q₀ i t) (i t) = some k then none
    else owner t k

/-- The entry `k` is valid and holds the dispatch of cycle `n`. -/
def holds (n t : Nat) (k : Fin depth) : Prop := (iqRun q₀ i t k).valid = true ∧ owner q₀ i t k = some n

/-- The dispatch of cycle `n` is on the issue port, from entry `k`. -/
def offered (n t : Nat) (k : Fin depth) : Prop :=
  (i t).oooEn = true ∧ selIdx (iqRun q₀ i t) (i t) = some k ∧ owner q₀ i t k = some n

def issuedAt (n t : Nat) : Prop := (i t).issueAck = true ∧ ∃ k, offered q₀ i n t k

def droppedAt (n t : Nat) : Prop :=
  (i t).oooEn = true ∧ (i t).flush = true ∧ (∃ k, holds q₀ i n t k) ∧ ¬ issuedAt q₀ i n t

/-- A CDB broadcast of `tag` on an edge of the gated clock. -/
def broadcast (t : Nat) (tag : BitVec 4) : Prop :=
  (i t).oooEn = true ∧ (i t).cdbEn = true ∧ (i t).cdbRobIdx = tag

def firstBroadcast (n b : Nat) (tag : BitVec 4) : Prop :=
  n ≤ b ∧ broadcast i b tag ∧ ∀ c, n ≤ c → c < b → ¬ broadcast i c tag

end Run

/-- The three places an accepted dispatch can be in. -/
inductive Fate where
  | held
  | issued
  | dropped

def inFate (q₀ : State depth) (i : Nat → IqIn) (n t : Nat) : Fate → Prop
  | .held => ∃ k, holds q₀ i n t k
  | .issued => ∃ u, u < t ∧ issuedAt q₀ i n u
  | .dropped => ∃ u, u < t ∧ droppedAt q₀ i n u

section Edge

variable {q : State depth} {i : IqIn} {k : Fin depth}

theorem iqTick_gated (h : i.oooEn = false) : iqTick q i = q := by
  simp [iqTick, h]

theorem iqTick_flush (h : i.oooEn = true) (hf : i.flush = true) :
    iqTick q i k = { q k with valid := false } := by
  simp [iqTick, h, hf]

theorem iqTick_alloc (h : i.oooEn = true) (hf : i.flush = false)
    (hd : i.dispatchEn = true ∧ allocIdx q = some k) :
    iqTick q i k = { woken i i.entry with valid := true } := by
  simp [iqTick, h, hf, hd]

theorem iqTick_taken (h : i.oooEn = true) (hf : i.flush = false)
    (ha : i.issueAck = true ∧ selIdx q i = some k) : (iqTick q i k).valid = false := by
  have hv : (q k).valid = true := valid_of_ready (selIdx_ready ha.2)
  have hd : ¬ allocIdx q = some k := fun hd => by simp [allocIdx_free hd] at hv
  simp [iqTick, h, hf, ha, hd, hv, woken]

theorem iqTick_keep (h : i.oooEn = true) (hf : i.flush = false)
    (hd : ¬ (i.dispatchEn = true ∧ allocIdx q = some k)) (ha : ¬ (i.issueAck = true ∧ selIdx q i = some k)) :
    iqTick q i k = if (q k).valid then woken i (q k) else q k := by
  simp only [iqTick, h, hf, hd, ha, Bool.not_true, Bool.false_eq_true, if_false]

end Edge

section Step

variable {q₀ : State depth} {i : Nat → IqIn} {n t : Nat} {k : Fin depth}

/-- What a cycle does to the entry `k` and its owner. -/
theorem iqRun_step (q₀ : State depth) (i : Nat → IqIn) (t : Nat) (k : Fin depth) :
    ((i t).oooEn = false ∧ owner q₀ i (t + 1) k = owner q₀ i t k ∧ iqRun q₀ i (t + 1) k = iqRun q₀ i t k) ∨
    ((i t).oooEn = true ∧ (i t).flush = true ∧ owner q₀ i (t + 1) k = none ∧
      (iqRun q₀ i (t + 1) k).valid = false) ∨
    (accepted q₀ i t ∧ allocIdx (iqRun q₀ i t) = some k ∧ owner q₀ i (t + 1) k = some t ∧
      iqRun q₀ i (t + 1) k = { woken (i t) (i t).entry with valid := true }) ∨
    ((i t).oooEn = true ∧ (i t).flush = false ∧ (i t).issueAck = true ∧
      selIdx (iqRun q₀ i t) (i t) = some k ∧ owner q₀ i (t + 1) k = none ∧
      (iqRun q₀ i (t + 1) k).valid = false) ∨
    ((i t).oooEn = true ∧ (i t).flush = false ∧
      ¬ ((i t).issueAck = true ∧ selIdx (iqRun q₀ i t) (i t) = some k) ∧
      owner q₀ i (t + 1) k = owner q₀ i t k ∧
      iqRun q₀ i (t + 1) k =
        if (iqRun q₀ i t k).valid then woken (i t) (iqRun q₀ i t k) else iqRun q₀ i t k) := by
  cases he : (i t).oooEn with
  | false => exact .inl ⟨rfl, by simp [owner, he], by rw [iqRun, iqTick_gated he]⟩
  | true =>
      refine .inr ?_
      cases hf : (i t).flush with
      | true => exact .inl ⟨rfl, rfl, by simp [owner, he, hf], by rw [iqRun, iqTick_flush he hf]⟩
      | false =>
          refine .inr ?_
          by_cases hd : (i t).dispatchEn = true ∧ allocIdx (iqRun q₀ i t) = some k
          · have hfree : iqFull (iqRun q₀ i t) = false := by simp [iqFull, hd.2]
            exact .inl ⟨⟨he, hf, hd.1, hfree⟩, hd.2, by simp [owner, he, hf, hd], by rw [iqRun, iqTick_alloc he hf hd]⟩
          · refine .inr ?_
            by_cases ha : (i t).issueAck = true ∧ selIdx (iqRun q₀ i t) (i t) = some k
            · exact .inl ⟨rfl, rfl, ha.1, ha.2, by simp [owner, he, hf, hd, ha], by rw [iqRun, iqTick_taken he hf ha]⟩
            · exact .inr ⟨rfl, rfl, ha, by simp only [owner, he, hf, hd, ha, Bool.not_true, Bool.false_eq_true,
                if_false], by rw [iqRun, iqTick_keep he hf hd ha]⟩

/-- An entry belongs to somebody exactly while it is valid. -/
theorem valid_iff_owner (t : Nat) (k : Fin depth) :
    (iqRun q₀ i t k).valid = true ↔ (owner q₀ i t k).isSome = true := by
  induction t with
  | zero => simp [iqRun, owner]
  | succ t ih =>
      rcases iqRun_step q₀ i t k with ⟨-, ho, hq⟩ | ⟨-, -, ho, hq⟩ | ⟨-, -, ho, hq⟩ | ⟨-, -, -, -, ho, hq⟩ |
        ⟨-, -, -, ho, hq⟩
      · rw [ho, hq, ih]
      · simp [ho, hq]
      · simp [ho, hq]
      · simp [ho, hq]
      · rw [ho, hq, ← ih]
        split_ifs with hv
        · rfl
        · rfl

theorem holds_iff_owner : holds q₀ i n t k ↔ owner q₀ i t k = some n := by
  constructor
  · exact fun h => h.2
  · intro h
    refine ⟨?_, h⟩
    rw [valid_iff_owner, h]
    rfl

/-- The ways an entry comes to be held: written in this cycle, held before
and woken, or held before and not clocked. -/
theorem owner_step (h : owner q₀ i (t + 1) k = some n) :
    (n = t ∧ accepted q₀ i t ∧ allocIdx (iqRun q₀ i t) = some k ∧
      iqRun q₀ i (t + 1) k = { woken (i t) (i t).entry with valid := true }) ∨
    ((i t).oooEn = true ∧ (i t).flush = false ∧
      ¬ ((i t).issueAck = true ∧ selIdx (iqRun q₀ i t) (i t) = some k) ∧ owner q₀ i t k = some n ∧
      iqRun q₀ i (t + 1) k = woken (i t) (iqRun q₀ i t k)) ∨
    ((i t).oooEn = false ∧ owner q₀ i t k = some n ∧ iqRun q₀ i (t + 1) k = iqRun q₀ i t k) := by
  rcases iqRun_step q₀ i t k with ⟨he, ho, hq⟩ | ⟨-, -, ho, -⟩ | ⟨hacc, hal, ho, hq⟩ | ⟨-, -, -, -, ho, -⟩ |
    ⟨he, hf, ha, ho, hq⟩
  · exact .inr (.inr ⟨he, ho ▸ h, hq⟩)
  · simp [ho] at h
  · rw [ho, Option.some.injEq] at h
    exact .inl ⟨h.symm, hacc, hal, hq⟩
  · simp [ho] at h
  · rw [ho] at h
    have hv : (iqRun q₀ i t k).valid = true := (holds_iff_owner.mpr h).1
    rw [if_pos hv] at hq
    exact .inr (.inl ⟨he, hf, ha, h, hq⟩)

theorem owner_lt (h : owner q₀ i t k = some n) : n < t := by
  induction t with
  | zero => simp [owner] at h
  | succ t ih =>
      rcases owner_step h with ⟨rfl, -⟩ | ⟨-, -, -, ho, -⟩ | ⟨-, ho, -⟩
      · exact Nat.lt_succ_self _
      · exact Nat.lt_succ_of_lt (ih ho)
      · exact Nat.lt_succ_of_lt (ih ho)

/-- No dispatch is held twice. -/
theorem owner_inj {k' : Fin depth} (h : owner q₀ i t k = some n) (h' : owner q₀ i t k' = some n) : k = k' := by
  induction t with
  | zero => simp [owner] at h
  | succ t ih =>
      rcases owner_step h with ⟨rfl, -, hal, -⟩ | ⟨-, -, -, ho, -⟩ | ⟨-, ho, -⟩ <;>
        rcases owner_step h' with ⟨hn, -, hal', -⟩ | ⟨-, -, -, ho', -⟩ | ⟨-, ho', -⟩
      · exact Option.some_injective _ (hal ▸ hal')
      · exact absurd (owner_lt ho') (lt_irrefl _)
      · exact absurd (owner_lt ho') (lt_irrefl _)
      · exact absurd (hn ▸ owner_lt ho) (lt_irrefl _)
      · exact ih ho ho'
      · exact ih ho ho'
      · exact absurd (hn ▸ owner_lt ho) (lt_irrefl _)
      · exact ih ho ho'
      · exact ih ho ho'

/-- A dispatch that no entry holds is never held again. -/
theorem gone_mono {u : Nat} (hn : n < u) (h : ∀ k, owner q₀ i u k ≠ some n) (hut : u ≤ t) :
    ∀ k, owner q₀ i t k ≠ some n := by
  induction t, hut using Nat.le_induction with
  | base => exact h
  | succ t hut ih =>
      intro k hk
      rcases owner_step hk with ⟨rfl, -⟩ | ⟨-, -, -, ho, -⟩ | ⟨-, ho, -⟩
      · omega
      · exact ih k ho
      · exact ih k ho

theorem gone_of_issued (h : issuedAt q₀ i n t) : ∀ k, owner q₀ i (t + 1) k ≠ some n := by
  obtain ⟨hack, k, he, hsel, ho⟩ := h
  intro k' hk'
  rcases owner_step hk' with ⟨rfl, -⟩ | ⟨-, -, ha, ho', -⟩ | ⟨he', -⟩
  · exact absurd (owner_lt ho) (lt_irrefl _)
  · obtain rfl := owner_inj ho ho'
    exact ha ⟨hack, hsel⟩
  · simp [he] at he'

theorem gone_of_flush (he : (i t).oooEn = true) (hf : (i t).flush = true) (hn : n < t) :
    ∀ k, owner q₀ i (t + 1) k ≠ some n := by
  intro k hk
  rcases owner_step hk with ⟨rfl, -⟩ | ⟨-, hf', -⟩ | ⟨he', -⟩
  · exact absurd hn (lt_irrefl _)
  · simp [hf] at hf'
  · simp [he] at he'

theorem lt_of_issued (h : issuedAt q₀ i n t) : n < t := by
  obtain ⟨-, k, -, -, ho⟩ := h
  exact owner_lt ho

theorem lt_of_dropped (h : droppedAt q₀ i n t) : n < t := by
  obtain ⟨-, -, ⟨k, hk⟩, -⟩ := h
  exact owner_lt hk.2

theorem gone_of_dropped (h : droppedAt q₀ i n t) : ∀ k, owner q₀ i (t + 1) k ≠ some n :=
  gone_of_flush h.1 h.2.1 (lt_of_dropped h)

/-- A dispatch leaves the queue once: whatever took it out at `u`, it is in
no entry afterwards. -/
theorem not_held_after {u : Nat} (h : issuedAt q₀ i n u ∨ droppedAt q₀ i n u) (hut : u < t) :
    ∀ k, owner q₀ i t k ≠ some n := by
  rcases h with h | h
  · exact gone_mono (Nat.lt_succ_of_lt (lt_of_issued h)) (gone_of_issued h) hut
  · exact gone_mono (Nat.lt_succ_of_lt (lt_of_dropped h)) (gone_of_dropped h) hut

theorem leaves_once {u v : Nat} (hu : issuedAt q₀ i n u ∨ droppedAt q₀ i n u)
    (hv : issuedAt q₀ i n v ∨ droppedAt q₀ i n v) : u = v := by
  have hown : ∀ {x : Nat}, issuedAt q₀ i n x ∨ droppedAt q₀ i n x → ∃ k, owner q₀ i x k = some n := by
    rintro x (⟨-, k, -, -, ho⟩ | ⟨-, -, ⟨k, hk⟩, -⟩)
    · exact ⟨k, ho⟩
    · exact ⟨k, hk.2⟩
  obtain ⟨k, hk⟩ := hown hu
  obtain ⟨l, hl⟩ := hown hv
  rcases lt_trichotomy u v with h | h | h
  · exact absurd hl (not_held_after hu h l)
  · exact h
  · exact absurd hk (not_held_after hv h k)

/-- One cycle takes a held dispatch out of the queue or keeps it. -/
theorem held_step (h : ∃ k, owner q₀ i t k = some n) :
    (∃ k, owner q₀ i (t + 1) k = some n) ∨ issuedAt q₀ i n t ∨ droppedAt q₀ i n t := by
  obtain ⟨k, hk⟩ := h
  rcases iqRun_step q₀ i t k with ⟨-, ho, -⟩ | ⟨he, hf, -⟩ | ⟨-, hal, -⟩ | ⟨he, -, hack, hsel, -⟩ |
    ⟨-, -, -, ho, -⟩
  · exact .inl ⟨k, ho.trans hk⟩
  · by_cases hi : issuedAt q₀ i n t
    · exact .inr (.inl hi)
    · exact .inr (.inr ⟨he, hf, ⟨k, holds_iff_owner.mpr hk⟩, hi⟩)
  · have hv := (holds_iff_owner.mpr hk).1
    simp [allocIdx_free hal] at hv
  · exact .inr (.inl ⟨hack, k, he, hsel, hk⟩)
  · exact .inl ⟨k, ho.trans hk⟩

theorem held_of_accepted (h : accepted q₀ i n) : ∃ k, owner q₀ i (n + 1) k = some n := by
  obtain ⟨he, hf, hd, hfull⟩ := h
  obtain ⟨k, hk⟩ : ∃ k, allocIdx (iqRun q₀ i n) = some k := by
    rw [iqFull, Option.isNone_eq_false_iff, Option.isSome_iff_exists] at hfull
    exact hfull
  exact ⟨k, by simp [owner, he, hf, hd, hk]⟩

theorem fate_exists (h : accepted q₀ i n) (hnt : n < t) : ∃ f, inFate q₀ i n t f := by
  induction t, hnt using Nat.le_induction with
  | base =>
      obtain ⟨k, hk⟩ := held_of_accepted h
      exact ⟨.held, k, holds_iff_owner.mpr hk⟩
  | succ t hnt ih =>
      obtain ⟨f, hf⟩ := ih
      cases f with
      | held =>
          obtain ⟨k, hk⟩ := hf
          rcases held_step ⟨k, hk.2⟩ with ⟨l, hl⟩ | hi | hd
          · exact ⟨.held, l, holds_iff_owner.mpr hl⟩
          · exact ⟨.issued, t, Nat.lt_succ_self t, hi⟩
          · exact ⟨.dropped, t, Nat.lt_succ_self t, hd⟩
      | issued =>
          obtain ⟨u, hu, hi⟩ := hf
          exact ⟨.issued, u, Nat.lt_succ_of_lt hu, hi⟩
      | dropped =>
          obtain ⟨u, hu, hd⟩ := hf
          exact ⟨.dropped, u, Nat.lt_succ_of_lt hu, hd⟩

theorem not_held_of_left (h : inFate q₀ i n t .issued ∨ inFate q₀ i n t .dropped) :
    ¬ inFate q₀ i n t .held := by
  rintro ⟨k, hk⟩
  rcases h with ⟨u, hu, hi⟩ | ⟨u, hu, hd⟩
  · exact not_held_after (.inl hi) hu k hk.2
  · exact not_held_after (.inr hd) hu k hk.2

theorem not_dropped_of_issued (h : inFate q₀ i n t .issued) : ¬ inFate q₀ i n t .dropped := by
  rintro ⟨v, -, hd⟩
  obtain ⟨u, -, hi⟩ := h
  obtain rfl := leaves_once (.inl hi) (.inr hd)
  exact hd.2.2.2 hi

theorem fate_unique {f g : Fate} (hf : inFate q₀ i n t f) (hg : inFate q₀ i n t g) : f = g := by
  cases f with
  | held =>
      cases g with
      | held => rfl
      | issued => exact absurd hf (not_held_of_left (.inl hg))
      | dropped => exact absurd hf (not_held_of_left (.inr hg))
  | issued =>
      cases g with
      | held => exact absurd hg (not_held_of_left (.inl hf))
      | issued => rfl
      | dropped => exact absurd hg (not_dropped_of_issued hf)
  | dropped =>
      cases g with
      | held => exact absurd hg (not_held_of_left (.inr hf))
      | issued => exact absurd hf (not_dropped_of_issued hg)
      | dropped => rfl

end Step

section Operands

variable {q₀ : State depth} {i : Nat → IqIn} {n t : Nat} {k : Fin depth} {d s : Operand}

/-- The value `v` is what the operand `d` dispatched at `n` has to read in a
cycle before `t`. -/
def delivered (i : Nat → IqIn) (n t : Nat) (d : Operand) (v : BitVec 64) : Prop :=
  if d.wait then ∃ b, b < t ∧ firstBroadcast i n b d.robIdx ∧ v = (i b).cdbData else v = d.data

/-- The stored operand `s` at cycle `t` of the operand `d` dispatched at `n`. -/
def tracks (i : Nat → IqIn) (n t : Nat) (d s : Operand) : Prop :=
  s.robIdx = d.robIdx ∧
    if s.wait then d.wait = true ∧ ∀ c, n ≤ c → c < t → ¬ broadcast i c d.robIdx
    else delivered i n t d s.data

theorem delivered_mono {u : Nat} {v : BitVec 64} (h : delivered i n t d v) (htu : t ≤ u) :
    delivered i n u d v := by
  cases hw : d.wait with
  | false => simpa [delivered, hw] using h
  | true =>
      simp only [delivered, hw, if_true] at h ⊢
      obtain ⟨b, hb, hrest⟩ := h
      exact ⟨b, lt_of_lt_of_le hb htu, hrest⟩

theorem tracks_dispatch (i : Nat → IqIn) (n : Nat) (d : Operand) : tracks i n n d d := by
  refine ⟨rfl, ?_⟩
  cases hw : d.wait with
  | false => simp [delivered, hw]
  | true =>
      refine ⟨rfl, fun c hc hlt => ?_⟩
      omega

theorem tracks_gated (he : (i t).oooEn = false) (h : tracks i n t d s) : tracks i n (t + 1) d s := by
  refine ⟨h.1, ?_⟩
  have h2 := h.2
  cases hw : s.wait with
  | false =>
      simp only [hw, Bool.false_eq_true, if_false] at h2 ⊢
      exact delivered_mono h2 (Nat.le_succ t)
  | true =>
      simp only [hw, if_true] at h2 ⊢
      refine ⟨h2.1, fun c hc hlt => ?_⟩
      rcases Nat.lt_succ_iff_lt_or_eq.mp hlt with hlt | rfl
      · exact h2.2 c hc hlt
      · exact fun hb => by simp [hb.1] at he

/-- On a clock edge the stored operand takes the broadcast of its tag, and it
is the first one. -/
theorem tracks_captured (he : (i t).oooEn = true) (hnt : n ≤ t) (h : tracks i n t d s) :
    tracks i n (t + 1) d (captured (i t) s) := by
  obtain ⟨hr, h2⟩ := h
  cases hw : s.wait with
  | false =>
      simp only [hw, Bool.false_eq_true, if_false] at h2
      have hc : captured (i t) s = s := by simp [captured, hit, hw]
      rw [hc]
      refine ⟨hr, ?_⟩
      simp only [hw, Bool.false_eq_true, if_false]
      exact delivered_mono h2 (Nat.le_succ t)
  | true =>
      simp only [hw, if_true] at h2
      obtain ⟨hd, hnone⟩ := h2
      have hiff : hit (i t) s = true ↔ broadcast i t d.robIdx := by
        simp only [hit, hw, hr, broadcast, he, Bool.true_and, Bool.and_eq_true, beq_iff_eq, true_and]
        exact and_congr_right fun _ => eq_comm
      by_cases hb : broadcast i t d.robIdx
      · rw [captured, if_pos (hiff.mpr hb)]
        refine ⟨hr, ?_⟩
        simp only [Bool.false_eq_true, if_false, delivered, hd, if_true]
        exact ⟨t, Nat.lt_succ_self t, ⟨hnt, hb, hnone⟩, rfl⟩
      · rw [captured, if_neg (fun h => hb (hiff.mp h))]
        refine ⟨hr, ?_⟩
        simp only [hw, if_true]
        refine ⟨hd, fun c hc hlt => ?_⟩
        rcases Nat.lt_succ_iff_lt_or_eq.mp hlt with hlt | rfl
        · exact hnone c hc hlt
        · exact hb

/-- The fields that never change between dispatch and issue. -/
def carriesOwn (d e : IqEntry) : Prop :=
  e.robIdx = d.robIdx ∧ e.opType = d.opType ∧ e.aluOp = d.aluOp ∧ e.pc = d.pc ∧ e.imm = d.imm

/-- The entry `e` at cycle `t` is the dispatch of cycle `n`. -/
structure TracksEntry (i : Nat → IqIn) (n t : Nat) (e : IqEntry) : Prop where
  own : carriesOwn (i n).entry e
  rs1 : tracks i n t (i n).entry.rs1 e.rs1
  rs2 : tracks i n t (i n).entry.rs2 e.rs2
  rs3 : tracks i n t (i n).entry.rs3 e.rs3

theorem tracksEntry_dispatch (i : Nat → IqIn) (n : Nat) : TracksEntry i n n (i n).entry where
  own := ⟨rfl, rfl, rfl, rfl, rfl⟩
  rs1 := tracks_dispatch i n _
  rs2 := tracks_dispatch i n _
  rs3 := tracks_dispatch i n _

theorem tracksEntry_gated {e : IqEntry} (he : (i t).oooEn = false) (h : TracksEntry i n t e) :
    TracksEntry i n (t + 1) e where
  own := h.own
  rs1 := tracks_gated he h.rs1
  rs2 := tracks_gated he h.rs2
  rs3 := tracks_gated he h.rs3

theorem tracksEntry_woken {e : IqEntry} (he : (i t).oooEn = true) (hnt : n ≤ t) (h : TracksEntry i n t e) :
    TracksEntry i n (t + 1) (woken (i t) e) where
  own := h.own
  rs1 := tracks_captured he hnt h.rs1
  rs2 := tracks_captured he hnt h.rs2
  rs3 := tracks_captured he hnt h.rs3

theorem tracksEntry_valid {e : IqEntry} {b : Bool} (h : TracksEntry i n t e) :
    TracksEntry i n t { e with valid := b } where
  own := h.own
  rs1 := h.rs1
  rs2 := h.rs2
  rs3 := h.rs3

theorem tracksEntry_run (h : owner q₀ i t k = some n) : TracksEntry i n t (iqRun q₀ i t k) := by
  induction t with
  | zero => simp [owner] at h
  | succ t ih =>
      rcases owner_step h with ⟨rfl, hacc, -, hq⟩ | ⟨he, -, -, ho, hq⟩ | ⟨he, ho, hq⟩
      · rw [hq]
        exact tracksEntry_valid (tracksEntry_woken hacc.1 le_rfl (tracksEntry_dispatch i n))
      · rw [hq]
        exact tracksEntry_woken he (owner_lt ho).le (ih ho)
      · rw [hq]
        exact tracksEntry_gated he (ih ho)

theorem delivered_of_tracks (h : tracks i n t d s) (hw : s.wait = false) : delivered i n t d s.data := by
  have h2 := h.2
  rwa [hw] at h2

theorem captured_wait (j : IqIn) (s : Operand) : (captured j s).wait = (s.wait && !hit j s) := by
  cases h : hit j s with
  | false => simp [captured, h]
  | true => simp [captured, h]

/-- The entry on the issue port: its own fields, and each operand delivered. -/
theorem offered_entry (h : offered q₀ i n t k) :
    ∃ e, issued (iqRun q₀ i t) (i t) = some e ∧ carriesOwn (i n).entry e ∧
      delivered i n (t + 1) (i n).entry.rs1 e.rs1.data ∧ delivered i n (t + 1) (i n).entry.rs2 e.rs2.data ∧
      delivered i n (t + 1) (i n).entry.rs3 e.rs3.data := by
  obtain ⟨he, hsel, ho⟩ := h
  have hr := selIdx_ready hsel
  simp only [ready, Bool.and_eq_true] at hr
  obtain ⟨⟨⟨⟨-, h1⟩, h2⟩, h3⟩, -⟩ := hr
  have ht := tracksEntry_woken he (owner_lt ho).le (tracksEntry_run ho)
  have hwait : ∀ s : Operand, (!s.wait || hit (i t) s) = true → (captured (i t) s).wait = false := by
    intro s hs
    rw [captured_wait]
    cases hw : s.wait <;> cases hh : hit (i t) s <;> simp_all
  refine ⟨_, by rw [issued, hsel, Option.map_some], ht.own, ?_, ?_, ?_⟩
  · exact delivered_of_tracks ht.rs1 (hwait _ h1)
  · exact delivered_of_tracks ht.rs2 (hwait _ h2)
  · exact delivered_of_tracks ht.rs3 (hwait _ h3)

/-- The operand `d` dispatched at `n` needs no broadcast, or had one by cycle `t`. -/
def heard (i : Nat → IqIn) (n t : Nat) (d : Operand) : Prop :=
  d.wait = false ∨ ∃ b, n ≤ b ∧ b ≤ t ∧ broadcast i b d.robIdx

theorem heard_iff (he : (i t).oooEn = true) (hnt : n ≤ t) (h : tracks i n t d s) :
    (!s.wait || hit (i t) s) = true ↔ heard i n t d := by
  have hc := tracks_captured he hnt h
  have hw : (!s.wait || hit (i t) s) = !(captured (i t) s).wait := by
    rw [captured_wait]
    cases s.wait <;> cases hit (i t) s <;> rfl
  rw [hw, Bool.not_eq_true']
  constructor
  · intro hw'
    have hd := delivered_of_tracks hc hw'
    cases hdw : d.wait with
    | false => exact .inl hdw
    | true =>
        simp only [delivered, hdw, if_true] at hd
        obtain ⟨b, hb, hfirst, -⟩ := hd
        exact .inr ⟨b, hfirst.1, Nat.lt_succ_iff.mp hb, hfirst.2.1⟩
  · intro hh
    rw [Bool.eq_false_iff]
    intro hw'
    have h2 := hc.2
    rw [hw', if_pos rfl] at h2
    rcases hh with hh | ⟨b, hnb, hbt, hb⟩
    · simp [hh] at h2
    · exact h2.2 b hnb (Nat.lt_succ_of_le hbt) hb

/-- A held dispatch is ready as soon as every operand it waits for has been
broadcast, a memory operation only at the head of the reorder buffer. -/
theorem ready_iff (he : (i t).oooEn = true) (h : holds q₀ i n t k) :
    ready (i t) (iqRun q₀ i t k) = true ↔
      heard i n t (i n).entry.rs1 ∧ heard i n t (i n).entry.rs2 ∧ heard i n t (i n).entry.rs3 ∧
        (isMemOp (i n).entry.opType = true → (i n).entry.robIdx = (i t).robHead) := by
  have ht := tracksEntry_run h.2
  have hnt := (owner_lt h.2).le
  simp only [ready, h.1, Bool.true_and, Bool.and_eq_true, heard_iff he hnt ht.rs1, heard_iff he hnt ht.rs2,
    heard_iff he hnt ht.rs3, ht.own.1, ht.own.2.1, and_assoc]
  cases isMemOp (i n).entry.opType <;> simp

end Operands

/-- Every accepted dispatch is at every later cycle held, issued or dropped
and only one of these. No two entries hold it, it is issued at most once, the
issue port shows it with its own fields and the operands it waited for, and it
becomes ready by the broadcasts alone. -/
theorem dispatch_fate (q₀ : State depth) (i : Nat → IqIn) (n t : Nat) (h : accepted q₀ i n) (hnt : n < t) :
    (∃! f, inFate q₀ i n t f) ∧
      (∀ k l, holds q₀ i n t k → holds q₀ i n t l → k = l) ∧
      (∀ u v, issuedAt q₀ i n u → issuedAt q₀ i n v → u = v) ∧
      (∀ k, offered q₀ i n t k → ∃ e, issued (iqRun q₀ i t) (i t) = some e ∧ carriesOwn (i n).entry e ∧
        delivered i n (t + 1) (i n).entry.rs1 e.rs1.data ∧
        delivered i n (t + 1) (i n).entry.rs2 e.rs2.data ∧
        delivered i n (t + 1) (i n).entry.rs3 e.rs3.data) ∧
      (∀ k, holds q₀ i n t k → (i t).oooEn = true →
        (ready (i t) (iqRun q₀ i t k) = true ↔
          heard i n t (i n).entry.rs1 ∧ heard i n t (i n).entry.rs2 ∧ heard i n t (i n).entry.rs3 ∧
            (isMemOp (i n).entry.opType = true → (i n).entry.robIdx = (i t).robHead))) := by
  refine ⟨?_, ?_, ?_, ?_, ?_⟩
  · obtain ⟨f, hf⟩ := fate_exists h hnt
    exact ⟨f, hf, fun g hg => fate_unique hg hf⟩
  · intro k l hk hl
    exact owner_inj hk.2 hl.2
  · intro u v hu hv
    exact leaves_once (.inl hu) (.inl hv)
  · intro k hk
    exact offered_entry hk
  · intro k hk he
    exact ready_iff he hk

/-- A dispatch at cycle 0 that waits for tag 3, broadcast at cycle 2. -/
def wakeInputs (t : Nat) : IqIn :=
  { oooEn := true, flush := false, dispatchEn := t == 0
    entry := { robIdx := 5#4, rs1 := { wait := true, robIdx := 3#4 } }
    robHead := 0#4, cdbEn := t == 2, cdbRobIdx := 3#4, cdbData := 7#64, issueAck := true }

theorem dispatch_fate_wake :
    accepted (fun _ : Fin 2 => {}) wakeInputs 0 ∧ ∃! f, inFate (fun _ : Fin 2 => {}) wakeInputs 0 2 f := by
  have h : accepted (fun _ : Fin 2 => {}) wakeInputs 0 := ⟨rfl, rfl, rfl, rfl⟩
  exact ⟨h, (dispatch_fate _ wakeInputs 0 2 h (by decide)).1⟩

end VMate.IqFate
