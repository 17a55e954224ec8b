import Mathlib.Data.List.Basic
import Mathlib.Logic.Function.Basic
import Mathlib.Data.Nat.Init

namespace VMate.Speculate

variable {α β σ : Type}

/-- The steps of a reference run as a machine sees them that follows one path
until told otherwise: which steps turn away from that path, and which pass
without a trace. -/
structure Path where
  turn : Nat → Bool
  skip : Nat → Bool
  turn_of_skip : ∀ i, skip i = true → turn i = false

/-- A step of the reference run that something in flight stands for. What is
not live was taken up behind a turn; it stands for the step at which the run
will be resumed. -/
structure Slot where
  live : Bool
  idx : Nat
  deriving DecidableEq, Repr

/-- All steps from `a` on and before `b` are skipped. -/
def Skips (P : Path) (a b : Nat) : Prop := a ≤ b ∧ ∀ i, a ≤ i → i < b → P.skip i = true

def after (P : Path) (x : Slot) : Slot := if x.live then ⟨!P.turn x.idx, x.idx + 1⟩ else x

/-- What is taken up right behind `x`. -/
structure Linked (P : Path) (x y : Slot) : Prop where
  live : y.live = (after P x).live
  skips : Skips P (after P x).idx y.idx
  wrong : y.live = false → y = after P x

/-- The slots `0` to `n - 1` are in flight, oldest first, and `n` is next. -/
structure Window (P : Path) (n : Nat) (pos : Nat → Slot) : Prop where
  head : (pos 0).live = true
  linked : ∀ k < n, Linked P (pos k) (pos (k + 1))

section Links

variable {P : Path} {x y : Slot} {a b c : Nat}

theorem Skips.refl (a : Nat) : Skips P a a := ⟨Nat.le_refl _, fun i h h' => by omega⟩

theorem Skips.succ (h : Skips P a b) (hb : P.skip b = true) : Skips P a (b + 1) := by
  refine ⟨Nat.le_succ_of_le h.1, fun i hi hib => ?_⟩
  rcases Nat.lt_succ_iff_lt_or_eq.mp hib with hlt | rfl
  · exact h.2 i hi hlt
  · exact hb

/-- What a skipped step does not change is not changed by any number of them. -/
theorem Skips.value {f : Nat → α} (hf : ∀ i, P.skip i = true → f (i + 1) = f i) (h : Skips P a b) : f b = f a := by
  obtain ⟨hab, hs⟩ := h
  induction b, hab using Nat.le_induction with
  | base => rfl
  | succ b hab ih =>
      rw [hf b (hs b hab (Nat.lt_succ_self b))]
      exact ih fun i hi hib => hs i hi (by omega)

theorem after_of_live (h : x.live = true) : after P x = ⟨!P.turn x.idx, x.idx + 1⟩ := by simp [after, h]

theorem after_of_wrong (h : x.live = false) : after P x = x := by simp [after, h]

theorem linked_after (x : Slot) : Linked P x (after P x) := ⟨rfl, .refl _, fun _ => rfl⟩

theorem Linked.turn (h : Linked P x y) (hx : x.live = true) : y.live = !P.turn x.idx := by
  rw [h.live, after_of_live hx]

theorem Linked.live_left (h : Linked P x y) (hy : y.live = true) : x.live = true ∧ P.turn x.idx = false := by
  cases hx : x.live with
  | false =>
      rw [h.live, after_of_wrong hx, hx] at hy
      cases hy
  | true =>
      rw [h.turn hx] at hy
      exact ⟨rfl, by simpa using hy⟩

theorem Linked.value {f : Nat → α} (hf : ∀ i, P.skip i = true → f (i + 1) = f i) (h : Linked P x y)
    (hx : x.live = true) : f y.idx = f (x.idx + 1) := by
  rw [h.skips.value hf, after_of_live hx]

theorem Linked.eq_of_wrong (h : Linked P x y) (hx : x.live = false) : y = x := by
  have hy : y.live = false := by rw [h.live, after_of_wrong hx, hx]
  rw [h.wrong hy, after_of_wrong hx]

theorem Linked.eq_of_turn (h : Linked P x y) (hx : x.live = true) (ht : P.turn x.idx = true) :
    y = ⟨false, x.idx + 1⟩ := by
  have hy : y.live = false := by rw [h.turn hx, ht]; rfl
  rw [h.wrong hy, after_of_live hx, ht]
  rfl

theorem Linked.idx_le (h : Linked P x y) : x.idx ≤ y.idx := by
  refine Nat.le_trans ?_ h.skips.1
  rw [after]
  split_ifs
  · exact Nat.le_succ _
  · exact Nat.le_refl _

/-- A skipped step on the right path moves the younger end of a link. -/
theorem Linked.skip (h : Linked P x y) (hy : y.live = true) (hs : P.skip y.idx = true) :
    Linked P x ⟨true, y.idx + 1⟩ :=
  ⟨hy.symm.trans h.live, h.skips.succ hs, fun hf => by cases hf⟩

end Links

section Windows

variable {P : Path} {n k : Nat} {pos : Nat → Slot}

theorem window_start (i : Nat) : Window P 0 (fun _ => ⟨true, i⟩) := ⟨rfl, fun k hk => by omega⟩

theorem Window.retire (h : Window P (n + 1) pos) (ht : P.turn (pos 0).idx = false) :
    Window P n (fun k => pos (k + 1)) := by
  refine ⟨?_, fun k hk => h.linked (k + 1) (by omega)⟩
  rw [(h.linked 0 (by omega)).turn h.head, ht]
  rfl

theorem Window.push (h : Window P n pos) : Window P (n + 1) (Function.update pos (n + 1) (after P (pos n))) := by
  refine ⟨?_, fun k hk => ?_⟩
  · rw [Function.update_of_ne (by omega)]
    exact h.head
  · rw [Function.update_of_ne (by omega)]
    rcases Nat.lt_succ_iff_lt_or_eq.mp hk with hlt | rfl
    · rw [Function.update_of_ne (by omega)]
      exact h.linked k hlt
    · rw [Function.update_self]
      exact linked_after _

theorem Window.skip (h : Window P n pos) (hl : (pos n).live = true) (hs : P.skip (pos n).idx = true) :
    Window P n (Function.update pos n ⟨true, (pos n).idx + 1⟩) := by
  refine ⟨?_, fun k hk => ?_⟩
  · by_cases hn : 0 = n
    · rw [← hn, Function.update_self]
    · rw [Function.update_of_ne hn]
      exact h.head
  · rw [Function.update_of_ne (by omega)]
    by_cases hkn : k + 1 = n
    · subst hkn
      rw [Function.update_self]
      exact (h.linked k hk).skip hl hs
    · rw [Function.update_of_ne hkn]
      exact h.linked k hk

theorem Window.live_of_le (h : Window P n pos) {j : Nat} (hjk : j ≤ k) (hk : k ≤ n) (hl : (pos k).live = true) :
    (pos j).live = true ∧ (j < k → P.turn (pos j).idx = false) := by
  induction k, hjk using Nat.le_induction with
  | base => exact ⟨hl, fun hlt => absurd hlt (Nat.lt_irrefl _)⟩
  | succ k hjk ih =>
      have hprev := (h.linked k (by omega)).live_left hl
      refine ⟨(ih (by omega) hprev.1).1, fun hlt => ?_⟩
      rcases Nat.lt_succ_iff_lt_or_eq.mp hlt with hlt | rfl
      · exact (ih (by omega) hprev.1).2 hlt
      · exact hprev.2

/-- Behind a turn at the head there is nothing live. -/
theorem Window.eq_of_turn (h : Window P n pos) (ht : P.turn (pos 0).idx = true) (h0 : 0 < k) (hk : k ≤ n) :
    pos k = ⟨false, (pos 0).idx + 1⟩ := by
  induction k, h0 using Nat.le_induction with
  | base => exact (h.linked 0 (by omega)).eq_of_turn h.head ht
  | succ k h0 ih =>
      have hprev := ih (by omega)
      rw [(h.linked k (by omega)).eq_of_wrong (by rw [hprev]), hprev]

/-- What is not live was taken up behind a turn. -/
theorem Window.exists_turn (h : Window P n pos) (hk : k ≤ n) (hl : (pos k).live = false) :
    ∃ j < k, (pos j).live = true ∧ P.turn (pos j).idx = true := by
  induction k with
  | zero =>
      rw [h.head] at hl
      cases hl
  | succ k ih =>
      cases hx : (pos k).live with
      | false =>
          obtain ⟨j, hj, hjl, hjt⟩ := ih (by omega) hx
          exact ⟨j, by omega, hjl, hjt⟩
      | true =>
          refine ⟨k, Nat.lt_succ_self k, hx, ?_⟩
          rw [(h.linked k (by omega)).turn hx] at hl
          simpa using hl

theorem Window.idx_le (h : Window P n pos) {j : Nat} (hjk : j ≤ k) (hk : k ≤ n) : (pos j).idx ≤ (pos k).idx := by
  induction k, hjk using Nat.le_induction with
  | base => exact Nat.le_refl _
  | succ k hjk ih => exact Nat.le_trans (ih (by omega)) (h.linked k (by omega)).idx_le

end Windows

section Advance

variable {P : Path} {n k : Nat} {pos : Nat → Slot} {commit take blank : Bool}

/-- The window after a cycle that may retire the oldest slot and take up or
pass the next one. -/
def advance (P : Path) (n : Nat) (commit take blank : Bool) (pos : Nat → Slot) : Nat → Slot :=
  let kept := fun k => pos (k + commit.toNat)
  let m := n - commit.toNat
  if take then Function.update kept (m + 1) (after P (kept m))
  else if blank then Function.update kept m ⟨true, (kept m).idx + 1⟩
  else kept

theorem Window.advance (h : Window P n pos) (hc : commit = true → 0 < n ∧ P.turn (pos 0).idx = false)
    (hb : blank = true → (pos n).live = true ∧ P.skip (pos n).idx = true) :
    Window P (n - commit.toNat + take.toNat) (advance P n commit take blank pos) := by
  have hkept : Window P (n - commit.toNat) (fun k => pos (k + commit.toNat)) ∧ n - commit.toNat + commit.toNat = n := by
    cases commit with
    | false => exact ⟨h, rfl⟩
    | true =>
        obtain ⟨hpos, ht⟩ := hc rfl
        obtain ⟨n, rfl⟩ : ∃ m, n = m + 1 := ⟨n - 1, by omega⟩
        exact ⟨h.retire ht, rfl⟩
  obtain ⟨hkept, hn⟩ := hkept
  cases take with
  | true => exact hkept.push
  | false =>
      cases blank with
      | false => exact hkept
      | true =>
          obtain ⟨hl, hs⟩ := hb rfl
          exact hkept.skip (by rw [hn]; exact hl) (by rw [hn]; exact hs)

theorem advance_kept (hk : k < n - commit.toNat) : advance P n commit take blank pos k = pos (k + commit.toNat) := by
  have hne : k ≠ n - commit.toNat := by omega
  have hne' : k ≠ n - commit.toNat + 1 := by omega
  simp only [advance]
  split_ifs
  · rw [Function.update_of_ne hne']
  · rw [Function.update_of_ne hne]
  · rfl

theorem advance_taken (hn : commit.toNat ≤ n) :
    advance P n commit true blank pos (n - commit.toNat) = pos n ∧
      advance P n commit true blank pos (n - commit.toNat + 1) = after P (pos n) := by
  have hne : n - commit.toNat ≠ n - commit.toNat + 1 := by omega
  simp only [advance, if_true, Function.update_self, Function.update_of_ne hne, Nat.sub_add_cancel hn, and_self]

theorem advance_blank (hn : commit.toNat ≤ n) :
    advance P n commit false true pos (n - commit.toNat) = ⟨true, (pos n).idx + 1⟩ := by
  simp only [advance, if_true, Bool.false_eq_true, if_false, Function.update_self, Nat.sub_add_cancel hn]

theorem advance_idle (hn : commit.toNat ≤ n) : advance P n commit false false pos (n - commit.toNat) = pos n := by
  change pos (n - commit.toNat + commit.toNat) = _
  rw [Nat.sub_add_cancel hn]

/-- A retired slot moves the oldest position on. -/
theorem advance_idx (h : Window P n pos) (hn : commit.toNat ≤ n) :
    (pos 0).idx + commit.toNat ≤ (advance P n commit take blank pos 0).idx := by
  have hkept : (pos 0).idx + commit.toNat ≤ (pos commit.toNat).idx := by
    cases commit with
    | false => exact Nat.le_refl _
    | true =>
        have hle := (h.linked 0 hn).skips.1
        rwa [after_of_live h.head] at hle
  rcases Nat.lt_or_ge commit.toNat n with hlt | hge
  · have h0 : 0 < n - commit.toNat := by omega
    rwa [advance_kept h0, Nat.zero_add]
  · have h0 : n - commit.toNat = 0 := by omega
    have hcn : pos commit.toNat = pos n := by rw [Nat.le_antisymm hn hge]
    rw [hcn] at hkept
    cases take with
    | true =>
        have htaken : advance P n commit true blank pos (n - commit.toNat) = pos n := (advance_taken hn).1
        rw [h0] at htaken
        rwa [htaken]
    | false =>
        cases blank with
        | true =>
            have hblank : advance P n commit false true pos (n - commit.toNat) = ⟨true, (pos n).idx + 1⟩ := advance_blank hn
            rw [h0] at hblank
            rw [hblank]
            exact Nat.le_succ_of_le hkept
        | false =>
            have hidle : advance P n commit false false pos (n - commit.toNat) = pos n := advance_idle hn
            rw [h0] at hidle
            rwa [hidle]

/-- What skipped steps do not change is found where it was. -/
theorem advance_value {f : Nat → α} (hf : ∀ i, P.skip i = true → f (i + 1) = f i) (hn : commit.toNat ≤ n)
    (hb : blank = true → P.skip (pos n).idx = true) (hk : k ≤ n - commit.toNat) :
    f (advance P n commit take blank pos k).idx = f (pos (k + commit.toNat)).idx := by
  rcases Nat.lt_or_eq_of_le hk with hlt | rfl
  · rw [advance_kept hlt]
  · rw [Nat.sub_add_cancel hn]
    cases take with
    | true => rw [(advance_taken hn).1]
    | false =>
        cases blank with
        | true =>
            rw [advance_blank hn]
            exact hf _ (hb rfl)
        | false => rw [advance_idle hn]

end Advance

section Traces

variable {P : Path} {out : Nat → β} {a b k : Nat}

/-- What the first `k` steps of the reference run leave behind. -/
def trace (P : Path) (out : Nat → β) (k : Nat) : List β := ((List.range k).filter fun i => !P.skip i).map out

theorem trace_succ (hs : P.skip k = false) : trace P out (k + 1) = trace P out k ++ [out k] := by
  simp [trace, List.range_succ, List.filter_append, hs]

theorem trace_skip (hs : P.skip k = true) : trace P out (k + 1) = trace P out k := by
  simp [trace, List.range_succ, List.filter_append, hs]

/-- What a run emits from time `b` on, in `n` steps. -/
def emitted (emit : σ → List β) (r : Nat → σ) (b : Nat) : Nat → List β
  | 0 => []
  | n + 1 => emitted emit r b n ++ emit (r (b + n))

/-- A machine that emits in every step what its oldest position moves over
has emitted the trace of the reference between its two ends. -/
theorem emitted_eq {done : Nat → Nat} {emit : σ → List β} {r : Nat → σ} {b N : Nat}
    (hstep : ∀ n < N, trace P out (done (n + 1)) = trace P out (done n) ++ emit (r (b + n))) {n : Nat} (hn : n ≤ N) :
    trace P out (done n) = trace P out (done 0) ++ emitted emit r b n := by
  induction n with
  | zero => rw [emitted, List.append_nil]
  | succ n ih => rw [hstep n (by omega), ih (by omega), emitted, List.append_assoc]

end Traces

section Rates

variable {f : Nat → Nat} {K N n : Nat}

theorem le_of_steps (hmono : ∀ n < N, f n ≤ f (n + 1)) {m : Nat} (hmn : m ≤ n) (hn : n ≤ N) : f m ≤ f n := by
  induction n, hmn using Nat.le_induction with
  | base => exact Nat.le_refl _
  | succ n hmn ih => exact Nat.le_trans (ih (by omega)) (hmono n (by omega))

/-- What grows at least once in `K` steps grows `m` times in `K * m`. -/
theorem add_le_of_grows (hgrow : ∀ n, n + K ≤ N → f n < f (n + K)) (m : Nat) (hn : n + K * m ≤ N) :
    f n + m ≤ f (n + K * m) := by
  induction m with
  | zero => exact Nat.le_refl _
  | succ m ih =>
      have hcount : n + K * (m + 1) = n + K * m + K := by rw [Nat.mul_succ, Nat.add_assoc]
      rw [hcount] at hn ⊢
      have hprev := ih (by omega)
      have hnext := hgrow (n + K * m) hn
      omega

theorem div_le_of_grows (hmono : ∀ n < N, f n ≤ f (n + 1)) (hgrow : ∀ n, n + K ≤ N → f n < f (n + K)) (hn : n ≤ N) :
    f 0 + n / K ≤ f n := by
  have hle : K * (n / K) ≤ n := Nat.mul_div_le n K
  have hrate := add_le_of_grows (n := 0) hgrow (n / K) (by omega)
  rw [Nat.zero_add] at hrate
  exact Nat.le_trans hrate (le_of_steps hmono hle hn)

end Rates

end VMate.Speculate
