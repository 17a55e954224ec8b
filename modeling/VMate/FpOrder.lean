import VMate.FpAlu
import VMate.FpDatum
import VMate.IeeeOrder

namespace VMate.FpOrder

open Decode FpUnpack FpRoundPack FpCmp FpAlu Rounding Ieee BitNat FpDatum

section Fields

variable (fmt : BitVec 2) (x : BitVec 64)

def expField : ℕ := (expRaw x fmt).toNat

def fracField : ℕ := (fracRaw x fmt).toNat / 2 ^ fracPad fmt

def operandKey : ℤ := (formatOf fmt).key (signRaw x fmt) (expField fmt x) (fracField fmt x)

theorem expField_lt : expField fmt x < 2 ^ (formatOf fmt).expBits := toNat_expRaw_lt x fmt

theorem fracField_lt : fracField fmt x < 2 ^ (formatOf fmt).fracBits := by
  rw [fracField, Nat.div_lt_iff_lt_mul (Nat.two_pow_pos _), ← pow_add, fracBits_add_fracPad]
  exact (fracRaw x fmt).isLt

theorem fracRaw_eq_zero_iff : fracRaw x fmt = 0#52 ↔ fracField fmt x = 0 := by
  obtain ⟨c, hc⟩ := fracPad_dvd x fmt
  have hzero := fracRaw_beq_zero fmt x hc
  rw [fracField, hc, Nat.mul_div_cancel_left _ (Nat.two_pow_pos _), ← beq_iff_eq, hzero, decide_eq_true_iff]

theorem isNan_iff : (fpUnpack x fmt).isNan = true ↔
    expField fmt x = 2 ^ (formatOf fmt).expBits - 1 ∧ fracField fmt x ≠ 0 := by
  rw [expField, ← expMax_iff, ne_eq, ← fracRaw_eq_zero_iff]
  simp [fpUnpack]

theorem isZero_iff : (fpUnpack x fmt).isZero = true ↔
    (formatOf fmt).magnitude (expField fmt x) (fracField fmt x) = 0 := by
  have hpos := Nat.two_pow_pos (formatOf fmt).fracBits
  have hunpack : (fpUnpack x fmt).isZero = true ↔ expField fmt x = 0 ∧ fracField fmt x = 0 := by
    rw [expField, ← expZero_iff, ← fracRaw_eq_zero_iff]
    simp [fpUnpack]
  rw [hunpack, Format.magnitude, Nat.add_eq_zero_iff, Nat.mul_eq_zero, or_iff_left hpos.ne']

end Fields

section Number

variable {fmt : BitVec 2} {x : BitVec 64} (h : (fpUnpack x fmt).isNan = false)

include h

theorem frac_eq_zero : expField fmt x = 2 ^ (formatOf fmt).expBits - 1 → fracField fmt x = 0 := by
  intro he
  by_contra hf
  rw [(isNan_iff fmt x).mpr ⟨he, hf⟩] at h
  exact Bool.false_ne_true h.symm

/-- A single that is not a NaN was boxed. -/
theorem extractLsb_of_number (hf : fmt = 0b00#2) : x.extractLsb 63 32 = 0xFFFFFFFF#32 := by
  by_contra hb
  have heff : effIn x 0b00#2 = canonicalNan32 := by simp [effIn, isBoxed, hb]
  have hnan : (fpUnpack x 0b00#2).isNan = true := by
    simp only [fpUnpack, expRaw, fracRaw, heff]
    decide
  rw [hf, hnan] at h
  exact Bool.false_ne_true h.symm

theorem effIn_of_number : effIn x fmt = x := by
  by_cases hf : fmt = 0b00#2
  · simp [effIn, isBoxed, extractLsb_of_number h hf]
  · simp [effIn, hf]

theorem reboxed_of_number : reboxed x fmt = x := by
  by_cases hf : fmt = 0b00#2
  · rw [reboxed, if_pos hf, box, ← extractLsb_of_number h hf]
    apply BitVec.eq_of_toNat_eq
    have hx := x.isLt
    have happ := toNat_append (x.extractLsb 63 32) (x.extractLsb 31 0)
    refine happ.trans ?_
    rw [toNat_extractLsb, toNat_extractLsb]
    omega
  · rw [reboxed, if_neg hf]

/-- The raw magnitude bits are the two fields read as one number. -/
theorem toNat_mag : (mag x fmt).toNat = (formatOf fmt).magnitude (expField fmt x) (fracField fmt x) := by
  have heff := effIn_of_number h
  by_cases hf : fmt = 0b00#2
  · subst hf
    have hexp : (0#3 ++ x.extractLsb 30 23 : BitVec 11).toNat = (x.extractLsb 30 23).toNat := toNat_zero_append _
    have hfrac : (x.extractLsb 22 0 ++ 0#29 : BitVec 52).toNat = (x.extractLsb 22 0).toNat * 2 ^ 29 :=
      toNat_append_zero _
    simp only [mag, Format.magnitude, expField, fracField, expRaw, fracRaw, fracPad, formatOf, heff, if_true, binary32]
    rw [hexp, hfrac, BitVec.toNat_setWidth, toNat_extractLsb, toNat_extractLsb, toNat_extractLsb]
    omega
  · simp only [mag, Format.magnitude, expField, fracField, expRaw, fracRaw, fracPad, formatOf, heff, hf, if_false,
      binary64, pow_zero, Nat.div_one]
    rw [toNat_extractLsb, toNat_extractLsb, toNat_extractLsb]
    omega

theorem toNat_of_number : x.toNat =
    (if fmt = 0b00#2 then 0xFFFFFFFF * 2 ^ 32 + (signRaw x fmt).toNat * 2 ^ 31 else (signRaw x fmt).toNat * 2 ^ 63) +
      (mag x fmt).toNat := by
  have heff := effIn_of_number h
  have hx := x.isLt
  by_cases hf : fmt = 0b00#2
  · have hhigh := congrArg BitVec.toNat (extractLsb_of_number h hf)
    rw [toNat_extractLsb] at hhigh
    have hconst : (0xFFFFFFFF#32).toNat = 0xFFFFFFFF := rfl
    rw [hconst] at hhigh
    subst hf
    simp only [mag, signRaw, heff, if_true]
    rw [toNat_getLsbD, BitVec.toNat_setWidth, toNat_extractLsb]
    omega
  · simp only [mag, signRaw, heff, hf, if_false]
    rw [toNat_getLsbD, toNat_extractLsb]
    omega

end Number

section Order

variable {K : Type*} [Field K] [LinearOrder K] [IsStrictOrderedRing K]

theorem isNan_eq (fmt : BitVec 2) (x : BitVec 64) : (fpUnpack x fmt).isNan = (read fmt x : Datum K).isNan := by
  have h := fpUnpack_spec (K := K) fmt x
  cases hd : (read fmt x : Datum K) with
  | finite s v => rw [hd] at h; exact h.notNan
  | inf s => rw [hd] at h; exact h.2.2.1
  | nan s => rw [hd] at h; exact h.1

theorem isSnan_eq (fmt : BitVec 2) (x : BitVec 64) :
    (fpUnpack x fmt).isSnan = (read fmt x : Datum K).isSignaling := by
  have h := fpUnpack_spec (K := K) fmt x
  cases hd : (read fmt x : Datum K) with
  | finite s v => rw [hd] at h; exact h.notSnan
  | inf s => rw [hd] at h; exact h.2.2.2.1
  | nan s => rw [hd] at h; exact h.2.1

omit [Field K] [LinearOrder K] [IsStrictOrderedRing K] in
theorem value_eq_none_iff {d : Datum K} : d.value = none ↔ d.isNan = true := by
  cases d with
  | finite s v => exact iff_of_false (Option.some_ne_none _) Bool.false_ne_true
  | inf s => cases s <;> exact iff_of_false (Option.some_ne_none _) Bool.false_ne_true
  | nan s => exact iff_of_true rfl rfl

/-- Signed magnitudes compared as `fp_cmp` does it: the two zeros, then the
signs, then the magnitudes. -/
theorem signed_order (s s' : Bool) (a b : ℕ) :
    (if a = 0 ∧ b = 0 then (true, false) else if ¬ s = s' then (false, s)
      else (decide (a = b), if s = true then !decide (a < b) && !decide (a = b) else decide (a < b))) =
      (decide (signed s (a : ℤ) = signed s' (b : ℤ)), decide (signed s (a : ℤ) < signed s' (b : ℤ))) := by
  by_cases hz : a = 0 ∧ b = 0
  · obtain ⟨rfl, rfl⟩ := hz
    cases s <;> cases s' <;> rfl
  · rw [if_neg hz]
    cases s <;> cases s' <;> apply Prod.ext <;> rw [Bool.eq_iff_iff] <;> simp [signed] <;> omega

variable {fmt : BitVec 2} {x y : BitVec 64}

theorem read_sign (h : (fpUnpack x fmt).isNan = false) : (read fmt x : Datum K).sign = signRaw x fmt := by
  rw [read_eq]
  exact ofFields_sign (frac_eq_zero h)

theorem read_compare (hx : (fpUnpack x fmt).isNan = false) (hy : (fpUnpack y fmt).isNan = false) :
    ∃ a b, (read fmt x : Datum K).value = some a ∧ (read fmt y : Datum K).value = some b ∧
      (a < b ↔ operandKey fmt x < operandKey fmt y) ∧ (a = b ↔ operandKey fmt x = operandKey fmt y) := by
  rw [read_eq, read_eq]
  exact value_compare (signRaw x fmt) (signRaw y fmt) (expField_lt fmt x) (expField_lt fmt y) (fracField_lt fmt x)
    (fracField_lt fmt y) (frac_eq_zero hx) (frac_eq_zero hy)

/-- `fp_cmp` orders the operands as their keys are ordered. -/
theorem order_eq (hx : (fpUnpack x fmt).isNan = false) (hy : (fpUnpack y fmt).isNan = false) :
    order x y fmt (fpUnpack x fmt) (fpUnpack y fmt) =
      (decide (operandKey fmt x = operandKey fmt y), decide (operandKey fmt x < operandKey fmt y)) := by
  have hult : (mag x fmt).ult (mag y fmt) = decide ((mag x fmt).toNat < (mag y fmt).toNat) := rfl
  have hbeq : (mag x fmt == mag y fmt) = decide ((mag x fmt).toNat = (mag y fmt).toNat) := by
    rw [Bool.eq_iff_iff, beq_iff_eq, decide_eq_true_iff, BitVec.toNat_inj]
  have hsign (z : BitVec 64) : (fpUnpack z fmt).sign = signRaw z fmt := rfl
  simp only [order, hx, hy, hult, hbeq, hsign, Bool.or_self, Bool.false_eq_true, if_false, Bool.and_eq_true, isZero_iff,
    toNat_mag hx, toNat_mag hy, ne_eq]
  exact signed_order _ _ _ _

/-- The key and the sign of a number determine its bits. -/
theorem eq_of_key (hx : (fpUnpack x fmt).isNan = false) (hy : (fpUnpack y fmt).isNan = false)
    (hsign : signRaw x fmt = signRaw y fmt) (hkey : operandKey fmt x = operandKey fmt y) : x = y := by
  have hmag : (mag x fmt).toNat = (mag y fmt).toNat := by
    rw [operandKey, operandKey, Format.key, Format.key, ← toNat_mag hx, ← toNat_mag hy, hsign] at hkey
    cases hs : signRaw y fmt <;> rw [hs] at hkey <;> simpa [signed] using hkey
  apply BitVec.eq_of_toNat_eq
  rw [toNat_of_number hx, toNat_of_number hy, hsign, hmag]

/-- A datum that is not a NaN is read from one word only. -/
theorem read_inj (hx : (read fmt x : Datum K).isNan = false) (h : (read fmt x : Datum K) = read fmt y) : x = y := by
  have hx' : (fpUnpack x fmt).isNan = false := (isNan_eq fmt x).trans hx
  have hy' : (fpUnpack y fmt).isNan = false := by rw [isNan_eq (K := K), ← h, hx]
  obtain ⟨a, b, ha, hb, -, hkey⟩ := read_compare (K := K) hx' hy'
  refine eq_of_key hx' hy' ?_ (hkey.mp ?_)
  · rw [← read_sign (K := K) hx', ← read_sign (K := K) hy', h]
  · rw [h, hb] at ha
    exact (Option.some.inj ha).symm

theorem operandKey_sign (fmt : BitVec 2) (z : BitVec 64) :
    (signRaw z fmt = true → operandKey fmt z ≤ 0) ∧ (signRaw z fmt = false → 0 ≤ operandKey fmt z) ∧
      ((fpUnpack z fmt).isZero = true ↔ operandKey fmt z = 0) := by
  rw [isZero_iff, operandKey, Format.key]
  cases signRaw z fmt <;> simp [signed]

theorem below_iff (hx : (fpUnpack x fmt).isNan = false) (hy : (fpUnpack y fmt).isNan = false) :
    (read fmt x : Datum K).Below (read fmt y) ↔ operandKey fmt x < operandKey fmt y ∨
      operandKey fmt x = operandKey fmt y ∧ signRaw x fmt = true ∧ signRaw y fmt = false := by
  obtain ⟨a, b, ha, hb, hlt, heq⟩ := read_compare (K := K) hx hy
  rw [Datum.Below, ha, hb, read_sign hx, read_sign hy, ← hlt, ← heq]
  constructor
  · rintro ⟨a', b', ha', hb', hab⟩
    cases ha'
    cases hb'
    exact hab
  · intro hab
    exact ⟨a, b, rfl, rfl, hab⟩

/-- Which operand FMIN (`001` for FMAX) takes when neither is a NaN. -/
theorem takeRs1_iff (hx : (fpUnpack x fmt).isNan = false) (hy : (fpUnpack y fmt).isNan = false) (rm : BitVec 3) :
    takeRs1 rm (fpUnpack x fmt) (fpUnpack y fmt) (order x y fmt (fpUnpack x fmt) (fpUnpack y fmt)) = true ↔
      if rm = 0b000#3 then (read fmt x : Datum K).Below (read fmt y)
      else (read fmt y : Datum K).Below (read fmt x) := by
  obtain ⟨hneg, hpos, hzero⟩ := operandKey_sign fmt x
  obtain ⟨hneg', hpos', hzero'⟩ := operandKey_sign fmt y
  have hsign (z : BitVec 64) : (fpUnpack z fmt).sign = signRaw z fmt := rfl
  rw [below_iff hx hy, below_iff hy hx, order_eq hx hy]
  simp only [takeRs1, hsign, Bool.and_eq_true, bne_iff_ne, hzero, hzero']
  cases hs : signRaw x fmt <;> cases hs' : signRaw y fmt <;> split_ifs <;> simp_all <;> omega

end Order

section MinMax

variable {K : Type*} [Field K] [LinearOrder K] [IsStrictOrderedRing K]

/-- What an operation that selects one of two operands returns: the better
one, by an order in which no operand is better than the result. -/
def Selects (better : Datum K → Datum K → Prop) (fmt : BitVec 2) (x y r : BitVec 64) : Prop :=
  match (read fmt x : Datum K).isNan, (read fmt y : Datum K).isNan with
  | true, true => r = canonicalNan fmt
  | true, false => r = y
  | false, true => r = x
  | false, false => (r = x ∧ ¬ better (read fmt y) (read fmt x)) ∨ (r = y ∧ ¬ better (read fmt x) (read fmt y))

variable {fmt : BitVec 2} {x y : BitVec 64}

theorem minMax_selects (rm : BitVec 3) :
    Selects (K := K) (fun d d' => if rm = 0b000#3 then d.Below d' else d'.Below d) fmt x y
      (minMax x y fmt rm (fpUnpack x fmt) (fpUnpack y fmt)) := by
  rw [Selects, minMax, isNan_eq (K := K) fmt x, isNan_eq (K := K) fmt y]
  cases hx : (read fmt x : Datum K).isNan <;> cases hy : (read fmt y : Datum K).isNan <;>
    rw [← isNan_eq] at hx hy
  · simp only [Bool.and_self, Bool.false_eq_true, if_false]
    have htake := takeRs1_iff (K := K) hx hy rm
    rw [reboxed_of_number hx, reboxed_of_number hy]
    by_cases ht : takeRs1 rm (fpUnpack x fmt) (fpUnpack y fmt)
        (order x y fmt (fpUnpack x fmt) (fpUnpack y fmt)) = true
    · rw [if_pos ht]
      refine .inl ⟨rfl, ?_⟩
      rw [htake] at ht
      rw [below_iff hx hy, below_iff hy hx] at *
      split_ifs at ht ⊢ <;> grind
    · rw [if_neg ht]
      exact .inr ⟨rfl, mt htake.mpr ht⟩
  · simp [reboxed_of_number hx]
  · simp [reboxed_of_number hy]
  · simp

theorem eq_of_not_below (hx : (fpUnpack x fmt).isNan = false) (hy : (fpUnpack y fmt).isNan = false)
    (hxy : ¬ (read fmt x : Datum K).Below (read fmt y)) (hyx : ¬ (read fmt y : Datum K).Below (read fmt x)) :
    x = y := by
  rw [below_iff hx hy] at hxy
  rw [below_iff hy hx] at hyx
  have hkey : operandKey fmt x = operandKey fmt y := by omega
  refine eq_of_key hx hy ?_ hkey
  cases hs : signRaw x fmt <;> cases hs' : signRaw y fmt <;> simp_all

/-- The selection leaves no choice, whichever operand comes first. -/
theorem selects_swap (rm : BitVec 3) {r r' : BitVec 64}
    (h : Selects (K := K) (fun d d' => if rm = 0b000#3 then d.Below d' else d'.Below d) fmt x y r)
    (h' : Selects (K := K) (fun d d' => if rm = 0b000#3 then d.Below d' else d'.Below d) fmt y x r') : r' = r := by
  rw [Selects] at h h'
  cases hx : (read fmt x : Datum K).isNan <;> cases hy : (read fmt y : Datum K).isNan <;>
    simp only [hx, hy] at h h'
  · rw [← isNan_eq] at hx hy
    have heq := eq_of_not_below (K := K) hx hy
    rcases h with ⟨rfl, h⟩ | ⟨rfl, h⟩ <;> rcases h' with ⟨rfl, h'⟩ | ⟨rfl, h'⟩
    · split_ifs at h h'
      · exact (heq h' h).symm
      · exact (heq h h').symm
    · rfl
    · rfl
    · split_ifs at h h'
      · exact heq h h'
      · exact heq h' h
  all_goals rw [h, h']

end MinMax

section Alu

/-- Neither datum is a NaN and their values are related. -/
def Compares (rel : WithBot (WithTop ℚ) → WithBot (WithTop ℚ) → Prop) (d d' : Datum ℚ) : Prop :=
  ∃ a b, d.value = some a ∧ d'.value = some b ∧ rel a b

/-- The register holds the truth value of a proposition. -/
def Truth (p : Prop) (r : BitVec 64) : Prop := p ∧ r = 1#64 ∨ ¬ p ∧ r = 0#64

/-- The comparison that `rm` selects, with the operands that raise NV. -/
structure ComparesAs (i : FpAluIn) (rel : WithBot (WithTop ℚ) → WithBot (WithTop ℚ) → Prop)
    (invalid : Datum ℚ → Bool) : Prop where
  result : Truth (Compares rel (read i.fmt i.rs1Data) (read i.fmt i.rs2Data)) (fpAlu i).1
  flags : (fpAlu i).2 =
    flags (invalid (read i.fmt i.rs1Data) || invalid (read i.fmt i.rs2Data)) false false false false

/-- The minimum or maximum, by the order that counts as better. -/
structure SelectsAs (i : FpAluIn) (better : Datum ℚ → Datum ℚ → Prop) : Prop where
  result : Selects better i.fmt i.rs1Data i.rs2Data (fpAlu i).1
  flags : (fpAlu i).2 = flags ((read i.fmt i.rs1Data : Datum ℚ).isSignaling ||
    (read i.fmt i.rs2Data : Datum ℚ).isSignaling) false false false false
  swap : fpAlu { i with rs1Data := i.rs2Data, rs2Data := i.rs1Data } = fpAlu i

theorem truth_of (c : Bool) {p : Prop} (h : c = true ↔ p) : Truth p ((BitVec.ofBool c).setWidth 64) := by
  cases c with
  | false => exact .inr ⟨fun hp => Bool.false_ne_true (h.mpr hp), rfl⟩
  | true => exact .inl ⟨h.mp rfl, rfl⟩

theorem fpAlu_fcmp {i : FpAluIn} (hop : i.fpAluOp = fpAluFcmp) :
    fpAlu i = fpCmp false i.fmt (effRm i) i.rs1Data i.rs2Data (fpUnpack i.rs1Data i.fmt)
      (fpUnpack i.rs2Data i.fmt) := by
  have hfmt : rs1Fmt i = i.fmt := by simp [rs1Fmt, hop, fpAluFcmp, fpAluFcvt]
  rw [fpAlu, hop, hfmt]
  rfl

theorem fpAlu_fmin {i : FpAluIn} (hop : i.fpAluOp = fpAluFmin) :
    fpAlu i = fpCmp true i.fmt (effRm i) i.rs1Data i.rs2Data (fpUnpack i.rs1Data i.fmt)
      (fpUnpack i.rs2Data i.fmt) := by
  have hfmt : rs1Fmt i = i.fmt := by simp [rs1Fmt, hop, fpAluFmin, fpAluFcvt]
  rw [fpAlu, hop, hfmt]
  rfl

theorem effRm_eq {i : FpAluIn} {rm : BitVec 3} (hrm : i.rm = rm) (hne : rm ≠ 0b111#3) : effRm i = rm := by
  rw [effRm, hrm, if_neg hne]

/-- The pair of outcomes of `fp_cmp` by the values of the operands. -/
theorem order_value (fmt : BitVec 2) (x y : BitVec 64) :
    ((order x y fmt (fpUnpack x fmt) (fpUnpack y fmt)).1 = true ↔ Compares (· = ·) (read fmt x) (read fmt y)) ∧
      ((order x y fmt (fpUnpack x fmt) (fpUnpack y fmt)).2 = true ↔ Compares (· < ·) (read fmt x) (read fmt y)) := by
  by_cases hnan : (fpUnpack x fmt).isNan = true ∨ (fpUnpack y fmt).isNan = true
  · have hvalue (rel : WithBot (WithTop ℚ) → WithBot (WithTop ℚ) → Prop) :
        ¬ Compares rel (read fmt x) (read fmt y) := by
      rintro ⟨a, b, ha, hb, -⟩
      rcases hnan with h | h
      · rw [isNan_eq (K := ℚ), ← value_eq_none_iff, ha] at h
        exact Option.some_ne_none _ h
      · rw [isNan_eq (K := ℚ), ← value_eq_none_iff, hb] at h
        exact Option.some_ne_none _ h
    have horder : order x y fmt (fpUnpack x fmt) (fpUnpack y fmt) = (false, false) := by
      rw [order, if_pos (by simpa using hnan)]
    rw [horder]
    exact ⟨iff_of_false Bool.false_ne_true (hvalue _), iff_of_false Bool.false_ne_true (hvalue _)⟩
  · rw [not_or, Bool.not_eq_true, Bool.not_eq_true] at hnan
    obtain ⟨a, b, ha, hb, hlt, heq⟩ := read_compare (K := ℚ) hnan.1 hnan.2
    have hvalue (rel : WithBot (WithTop ℚ) → WithBot (WithTop ℚ) → Prop) :
        Compares rel (read fmt x) (read fmt y) ↔ rel a b := by
      rw [Compares, ha, hb]
      constructor
      · rintro ⟨a', b', ha', hb', hab⟩
        cases ha'
        cases hb'
        exact hab
      · intro hab
        exact ⟨a, b, rfl, rfl, hab⟩
    rw [order_eq hnan.1 hnan.2, hvalue, hvalue, hlt, heq, decide_eq_true_iff, decide_eq_true_iff]
    exact ⟨Iff.rfl, Iff.rfl⟩

theorem compares_le {d d' : Datum ℚ} : Compares (· ≤ ·) d d' ↔ Compares (· < ·) d d' ∨ Compares (· = ·) d d' := by
  simp only [Compares, le_iff_lt_or_eq]
  grind

theorem comparesAs_of {i : FpAluIn} (hop : i.fpAluOp = fpAluFcmp)
    {rel : WithBot (WithTop ℚ) → WithBot (WithTop ℚ) → Prop}
    {invalid : Datum ℚ → Bool} {c : Bool × Bool}
    (hc : compare i.rs1Data i.rs2Data i.fmt (effRm i) (fpUnpack i.rs1Data i.fmt) (fpUnpack i.rs2Data i.fmt) = c)
    (hrel : c.1 = true ↔ Compares rel (read i.fmt i.rs1Data) (read i.fmt i.rs2Data))
    (hinvalid : c.2 = (invalid (read i.fmt i.rs1Data) || invalid (read i.fmt i.rs2Data))) :
    ComparesAs i rel invalid := by
  have halu : fpAlu i = ((BitVec.ofBool c.1).setWidth 64, flags c.2 false false false false) := by
    rw [fpAlu_fcmp hop, fpCmp, if_neg Bool.false_ne_true, hc]
  constructor
  · rw [halu]
    exact truth_of c.1 hrel
  · rw [halu, hinvalid]

theorem selectsAs_of {i : FpAluIn} (hop : i.fpAluOp = fpAluFmin) :
    SelectsAs i (fun d d' => if effRm i = 0b000#3 then d.Below d' else d'.Below d) := by
  have halu (j : FpAluIn) (hj : j.fpAluOp = fpAluFmin) := fpAlu_fmin hj
  simp only [fpCmp, if_true] at halu
  refine ⟨?_, ?_, ?_⟩
  · rw [halu i hop]
    exact minMax_selects (effRm i)
  · rw [halu i hop, isSnan_eq (K := ℚ), isSnan_eq (K := ℚ)]
  · rw [halu i hop, halu { i with rs1Data := i.rs2Data, rs2Data := i.rs1Data } hop]
    apply Prod.ext
    · exact selects_swap (K := ℚ) (effRm i) (minMax_selects (effRm i)) (minMax_selects (effRm i))
    · show flags _ _ _ _ _ = flags _ _ _ _ _
      rw [Bool.or_comm]

/-- FEQ, FLT, FLE, FMIN and FMAX agree with the extended rational values of
their operands. -/
theorem compare_minmax_numeric (i : FpAluIn) :
    (i.fpAluOp = fpAluFcmp → i.rm = 0b010#3 → ComparesAs i (· = ·) Datum.isSignaling) ∧
    (i.fpAluOp = fpAluFcmp → i.rm = 0b001#3 → ComparesAs i (· < ·) Datum.isNan) ∧
    (i.fpAluOp = fpAluFcmp → i.rm = 0b000#3 → ComparesAs i (· ≤ ·) Datum.isNan) ∧
    (i.fpAluOp = fpAluFmin → i.rm = 0b000#3 → SelectsAs i Datum.Below) ∧
    (i.fpAluOp = fpAluFmin → i.rm = 0b001#3 → SelectsAs i (fun d d' => d'.Below d)) := by
  obtain ⟨heq, hlt⟩ := order_value i.fmt i.rs1Data i.rs2Data
  refine ⟨?_, ?_, ?_, ?_, ?_⟩
  · intro hop hrm
    refine comparesAs_of hop rfl ?_ ?_ <;> rw [effRm_eq hrm (by decide), FpCmp.compare]
    · exact heq
    · simp [isSnan_eq (K := ℚ)]
  · intro hop hrm
    refine comparesAs_of hop rfl ?_ ?_ <;> rw [effRm_eq hrm (by decide), FpCmp.compare]
    · exact hlt
    · simp [isNan_eq (K := ℚ)]
  · intro hop hrm
    refine comparesAs_of hop rfl ?_ ?_ <;> rw [effRm_eq hrm (by decide), FpCmp.compare]
    · rw [compares_le, ← heq, ← hlt]
      simp
    · simp [isNan_eq (K := ℚ)]
  · intro hop hrm
    have h := selectsAs_of hop
    rwa [effRm_eq hrm (by decide)] at h
  · intro hop hrm
    have h := selectsAs_of hop
    rwa [effRm_eq hrm (by decide)] at h

end Alu

end VMate.FpOrder
