import VMate.BitNat
import VMate.FpRoundPack
import VMate.Ieee

namespace VMate.FpDatum

open FpUnpack FpRoundPack Rounding Ieee BitNat

/-- Every format code but that of single precision selects double. -/
def formatOf (fmt : BitVec 2) : Format := if fmt = 0b00#2 then binary32 else binary64

def modeOf (rm : BitVec 3) : Option Mode :=
  if rm = rne then some .nearestEven
  else if rm = rtz then some .towardZero
  else if rm = rdn then some .down
  else if rm = rup then some .up
  else if rm = rmm then some .nearestAway
  else none

theorem modeOf_cases {rm : BitVec 3} {m : Mode} (h : modeOf rm = some m) :
    (rm = rne ∧ m = .nearestEven) ∨ (rm = rtz ∧ m = .towardZero) ∨ (rm = rdn ∧ m = .down) ∨ (rm = rup ∧ m = .up) ∨
      (rm = rmm ∧ m = .nearestAway) := by
  unfold modeOf at h
  split_ifs at h with h1 h2 h3 h4 h5 <;> cases h
  · exact .inl ⟨h1, rfl⟩
  · exact .inr (.inl ⟨h2, rfl⟩)
  · exact .inr (.inr (.inl ⟨h3, rfl⟩))
  · exact .inr (.inr (.inr (.inl ⟨h4, rfl⟩)))
  · exact .inr (.inr (.inr (.inr ⟨h5, rfl⟩)))

section

variable {K : Type*} [Field K]

/-- What a register holds when it is read in a format. A single must be
NaN-boxed; anything else reads as a quiet NaN. -/
def read (fmt : BitVec 2) (x : BitVec 64) : Datum K :=
  if fmt = 0b00#2 then
    if x.extractLsb 63 32 = 0xFFFFFFFF#32 then
      binary32.ofFields (x.getLsbD 31) (x.extractLsb 30 23).toNat (x.extractLsb 22 0).toNat
    else .nan false
  else binary64.ofFields (x.getLsbD 63) (x.extractLsb 62 52).toNat (x.extractLsb 51 0).toNat

/-- The result register and the flags deliver an IEEE outcome. -/
def Delivers (fmt : BitVec 2) (r : BitVec 64 × BitVec 5) (o : Outcome K) : Prop :=
  read fmt r.1 = o.datum ∧ r.2 = flags false false o.of o.uf o.nx

/-- The bits of the fraction field above the 52 bit fraction of the
unpacker. -/
def fracPad (fmt : BitVec 2) : ℕ := if fmt = 0b00#2 then 29 else 0

theorem fracBits_add_fracPad (fmt : BitVec 2) : (formatOf fmt).fracBits + fracPad fmt = 52 := by
  by_cases hf : fmt = 0b00#2 <;> simp [formatOf, fracPad, hf, binary32, binary64]

/-- The unpacker and the format look at the same three fields. -/
theorem read_eq (fmt : BitVec 2) (x : BitVec 64) :
    (read fmt x : Datum K) = (formatOf fmt).ofFields (signRaw x fmt) (expRaw x fmt).toNat
      ((fracRaw x fmt).toNat / 2 ^ fracPad fmt) := by
  by_cases hf : fmt = 0b00#2
  · have hexp (e : BitVec 8) : (0#3 ++ e).toNat = e.toNat := by
      rw [BitVec.toNat_append, BitVec.toNat_ofNat, Nat.zero_mod, Nat.zero_shiftLeft, Nat.zero_or]
    have hfrac (f : BitVec 23) : (f ++ 0#29).toNat / 2 ^ 29 = f.toNat := by
      rw [BitVec.toNat_append, BitVec.toNat_ofNat, Nat.zero_mod, Nat.or_zero, Nat.shiftLeft_eq,
        Nat.mul_div_cancel _ (Nat.two_pow_pos 29)]
    simp only [read, formatOf, signRaw, expRaw, fracRaw, fracPad, hf, if_true]
    rw [hexp, hfrac]
    by_cases hb : x.extractLsb 63 32 = 0xFFFFFFFF#32
    · have heff : effIn x 0b00#2 = x := by simp [effIn, isBoxed, hb]
      rw [if_pos hb, heff]
    · have heff : effIn x 0b00#2 = canonicalNan32 := by simp [effIn, isBoxed, hb]
      rw [if_neg hb, heff]
      rfl
  · have heff : effIn x fmt = x := by simp [effIn, hf]
    simp only [read, formatOf, signRaw, expRaw, fracRaw, fracPad, hf, if_false, heff, pow_zero, Nat.div_one]

end

section Words

variable {K : Type*} [Field K]

theorem toNat_word {v w : ℕ} (sign : Bool) (e : BitVec v) (f : BitVec w) :
    (BitVec.ofBool sign ++ e ++ f).toNat = sign.toNat * 2 ^ (v + w) + e.toNat * 2 ^ w + f.toNat := by
  rw [toNat_append, toNat_append, BitVec.toNat_ofBool, pow_add]
  ring

theorem read_single (sign : Bool) (e : BitVec 8) (f : BitVec 23) :
    (read 0b00#2 (box (BitVec.ofBool sign ++ e ++ f)) : Datum K) = binary32.ofFields sign e.toNat f.toNat := by
  have hs : sign.toNat ≤ 1 := Bool.toNat_le sign
  have he := e.isLt
  have hf := f.isLt
  have hword := toNat_word sign e f
  have hbox : (box (BitVec.ofBool sign ++ e ++ f)).toNat =
      0xFFFFFFFF * 2 ^ 32 + (sign.toNat * 2 ^ 31 + e.toNat * 2 ^ 23 + f.toNat) := by
    rw [box, toNat_append]
    exact congrArg (0xFFFFFFFF * 2 ^ 32 + ·) hword
  generalize box (BitVec.ofBool sign ++ e ++ f) = x at hbox
  have hhigh : x.extractLsb 63 32 = 0xFFFFFFFF#32 := by
    apply BitVec.eq_of_toNat_eq
    rw [toNat_extractLsb, hbox]
    show _ = 0xFFFFFFFF
    omega
  have hsign : x.getLsbD 31 = sign := by
    rw [Bool.eq_iff_iff, getLsbD_iff, hbox]
    cases sign <;> simp at hs ⊢ <;> omega
  have hexp : (x.extractLsb 30 23).toNat = e.toNat := by
    rw [toNat_extractLsb, hbox]
    omega
  have hfrac : (x.extractLsb 22 0).toNat = f.toNat := by
    rw [toNat_extractLsb, hbox]
    omega
  rw [read, if_pos rfl, if_pos hhigh, hsign, hexp, hfrac]

theorem read_double {fmt : BitVec 2} (hfmt : fmt ≠ 0b00#2) (sign : Bool) (e : BitVec 11) (f : BitVec 52) :
    (read fmt (BitVec.ofBool sign ++ e ++ f) : Datum K) = binary64.ofFields sign e.toNat f.toNat := by
  have hs : sign.toNat ≤ 1 := Bool.toNat_le sign
  have he := e.isLt
  have hf := f.isLt
  have hword : (BitVec.ofBool sign ++ e ++ f : BitVec 64).toNat = sign.toNat * 2 ^ 63 + e.toNat * 2 ^ 52 + f.toNat :=
    toNat_word sign e f
  generalize (BitVec.ofBool sign ++ e ++ f : BitVec 64) = x at hword
  have hsign : x.getLsbD 63 = sign := by
    rw [Bool.eq_iff_iff, getLsbD_iff, hword]
    cases sign <;> simp at hs ⊢ <;> omega
  have hexp : (x.extractLsb 62 52).toNat = e.toNat := by
    rw [toNat_extractLsb, hword]
    omega
  have hfrac : (x.extractLsb 51 0).toNat = f.toNat := by
    rw [toNat_extractLsb, hword]
    omega
  rw [read, if_neg hfmt, hsign, hexp, hfrac]

end Words

section Fields

variable (x : BitVec 64) (fmt : BitVec 2)

theorem toNat_expRaw_lt : (expRaw x fmt).toNat < 2 ^ (formatOf fmt).expBits := by
  by_cases hf : fmt = 0b00#2
  · simp only [expRaw, formatOf, hf, if_true, binary32]
    rw [BitVec.toNat_append, BitVec.toNat_ofNat, Nat.zero_mod, Nat.zero_shiftLeft, Nat.zero_or]
    exact BitVec.isLt _
  · simp only [formatOf, hf, if_false, binary64]
    exact BitVec.isLt _

theorem expZero_iff : expZero (expRaw x fmt) fmt = true ↔ (expRaw x fmt).toNat = 0 := by
  have hlt := toNat_expRaw_lt x fmt
  by_cases hf : fmt = 0b00#2
  · simp only [formatOf, hf, if_true, binary32] at hlt
    simp only [expZero, hf, if_true, beq_iff_eq, ← BitVec.toNat_inj, BitVec.extractLsb_toNat]
    simp
    omega
  · simp only [expZero, hf, if_false, beq_iff_eq, ← BitVec.toNat_inj]
    rfl

theorem expMax_iff : expMax (expRaw x fmt) fmt = true ↔ (expRaw x fmt).toNat = 2 ^ (formatOf fmt).expBits - 1 := by
  have hlt := toNat_expRaw_lt x fmt
  by_cases hf : fmt = 0b00#2
  · simp only [formatOf, hf, if_true, binary32] at hlt ⊢
    simp only [expMax, if_true, beq_iff_eq, ← BitVec.toNat_inj, BitVec.extractLsb_toNat]
    simp
    omega
  · simp only [expMax, formatOf, hf, if_false, beq_iff_eq, ← BitVec.toNat_inj, binary64]
    rfl

theorem fracPad_dvd : 2 ^ fracPad fmt ∣ (fracRaw x fmt).toNat := by
  by_cases hf : fmt = 0b00#2
  · simp only [fracRaw, fracPad, hf, if_true]
    rw [BitVec.toNat_append, BitVec.toNat_ofNat, Nat.zero_mod, Nat.or_zero, Nat.shiftLeft_eq]
    exact Nat.dvd_mul_left _ _
  · simp [fracPad, hf]

/-- In both formats the fraction ends three bits above the significand's
last bit. -/
theorem toNat_sigOf (hidden : BitVec 1) :
    (sigOf hidden (fracRaw x fmt) fmt).toNat = hidden.toNat * 2 ^ 55 + (fracRaw x fmt).toNat * 2 ^ 3 := by
  obtain ⟨c, hc⟩ := fracPad_dvd x fmt
  have hlt := (fracRaw x fmt).isLt
  by_cases hf : fmt = 0b00#2
  · rw [fracPad, if_pos hf] at hc
    rw [sigOf, if_pos hf]
    refine (toNat_append_zero (hidden ++ (fracRaw x fmt).extractLsb 51 29)).trans ?_
    rw [toNat_append, toNat_extractLsb_top _ 29 (by omega)]
    omega
  · rw [sigOf, if_neg hf]
    refine (toNat_append_zero (hidden ++ fracRaw x fmt)).trans ?_
    rw [toNat_append]
    omega

theorem getLsbD_fracRaw : (fracRaw x fmt).getLsbD 51 = false ↔
    (fracRaw x fmt).toNat / 2 ^ fracPad fmt < 2 ^ ((formatOf fmt).fracBits - 1) := by
  have hpad := fracBits_add_fracPad fmt
  have hfb : 1 ≤ (formatOf fmt).fracBits := by
    by_cases hf : fmt = 0b00#2 <;> simp [formatOf, hf, binary32, binary64]
  have hlt := (fracRaw x fmt).isLt
  have hbits : (formatOf fmt).fracBits - 1 + fracPad fmt = 51 := by omega
  rw [Nat.div_lt_iff_lt_mul (Nat.two_pow_pos _), ← pow_add, hbits, ← Bool.not_eq_true, getLsbD_iff]
  omega

end Fields

section Unpack

variable {K : Type*} [Field K]

/-- A finite operand after the unpacker: its value as an integer significand
times a power of two, and what the alignment and normalisation rely on. -/
structure FiniteUnpack (f : Format) (u : FpUnpacked) (neg : Bool) (v : K) : Prop where
  sign : u.sign = neg
  notInf : u.isInf = false
  notNan : u.isNan = false
  notSnan : u.isSnan = false
  notQnan : u.isQnan = false
  value : v = signed neg ((u.sig.toNat : K) * 2 ^ (u.exp.toInt - 55))
  isZero : u.isZero = true ↔ u.sig.toNat = 0
  emin_le : f.emin ≤ u.exp.toInt
  le_emax : u.exp.toInt ≤ f.emax
  normal : u.sig.toNat ≠ 0 → u.exp.toInt = f.emin ∨ 2 ^ 55 ≤ u.sig.toNat
  grid : 2 ^ (55 - f.fracBits) ∣ u.sig.toNat

def Unpacks (f : Format) (u : FpUnpacked) : Datum K → Prop
  | .nan s => u.isNan = true ∧ u.isSnan = s ∧ u.isQnan = !s ∧ u.isInf = false ∧ u.isZero = false
  | .inf s => u.sign = s ∧ u.isInf = true ∧ u.isNan = false ∧ u.isSnan = false ∧ u.isQnan = false ∧ u.isZero = false
  | .finite s v => FiniteUnpack f u s v

theorem emax_binary32 : binary32.emax = 127 := rfl

theorem emax_binary64 : binary64.emax = 1023 := rfl

theorem toInt_subnormalExp (fmt : BitVec 2) :
    (if fmt = 0b00#2 then 1#13 - 127#13 else 1#13 - 1023#13).toInt = (formatOf fmt).emin := by
  by_cases hf : fmt = 0b00#2
  · rw [if_pos hf, formatOf, if_pos hf]
    decide
  · rw [if_neg hf, formatOf, if_neg hf]
    decide

theorem toInt_normalExp (fmt : BitVec 2) (e : BitVec 11) :
    (if fmt = 0b00#2 then (0#2 ++ e) - 127#13 else (0#2 ++ e) - 1023#13).toInt = e.toNat - (formatOf fmt).emax := by
  have hlt := e.isLt
  have hnat : (0#2 ++ e : BitVec 13).toNat = e.toNat := toNat_zero_append e
  by_cases hf : fmt = 0b00#2
  · rw [if_pos hf, formatOf, if_pos hf, emax_binary32, BitVec.toInt_eq_toNat_cond, BitVec.toNat_sub, hnat]
    simp only [BitVec.toNat_ofNat]
    split_ifs <;> omega
  · rw [if_neg hf, formatOf, if_neg hf, emax_binary64, BitVec.toInt_eq_toNat_cond, BitVec.toNat_sub, hnat]
    simp only [BitVec.toNat_ofNat]
    split_ifs <;> omega

theorem fracBits_le (fmt : BitVec 2) : (formatOf fmt).fracBits ≤ 52 := by
  have := fracBits_add_fracPad fmt
  omega

variable [LinearOrder K] [IsStrictOrderedRing K]

/-- A significand of the format, shifted to the 56 bits of the unpacker. -/
theorem value_shifted (fmt : BitVec 2) (n : ℕ) (E : ℤ) :
    (n : K) * 2 ^ (E - (formatOf fmt).fracBits) =
      ((n * 2 ^ (55 - (formatOf fmt).fracBits) : ℕ) : K) * 2 ^ (E - 55) := by
  have hfb := fracBits_le fmt
  have hsplit : E - (formatOf fmt).fracBits = (55 - (formatOf fmt).fracBits : ℕ) + (E - 55) := by omega
  rw [hsplit, zpow_add₀ two_ne_zero, zpow_natCast]
  push_cast
  ring

/-- The unpacked form of a nonzero finite number. -/
theorem finiteUnpack_of (fmt : BitVec 2) {neg sub : Bool} {exp : BitVec 13} {sig : BitVec 56} {n : ℕ}
    {E : ℤ} (hsig : sig.toNat = n * 2 ^ (55 - (formatOf fmt).fracBits)) (hexp : exp.toInt = E) (hn : n ≠ 0)
    (hlow : (formatOf fmt).emin ≤ E) (hhigh : E ≤ (formatOf fmt).emax)
    (hnormal : E = (formatOf fmt).emin ∨ 2 ^ (formatOf fmt).fracBits ≤ n) :
    FiniteUnpack (formatOf fmt) { sign := neg, exp, sig, isSubnormal := sub } neg
      (signed neg ((n : K) * 2 ^ (E - (formatOf fmt).fracBits))) := by
  have hfb := fracBits_le fmt
  have hne : sig.toNat ≠ 0 := by
    rw [hsig]
    exact Nat.mul_ne_zero hn (Nat.two_pow_pos _).ne'
  refine ⟨rfl, rfl, rfl, rfl, rfl, ?_, ?_, by rwa [hexp], by rwa [hexp], ?_, ?_⟩
  · rw [value_shifted, hsig, hexp]
  · simp [hne]
  · intro _
    refine hnormal.imp (fun h => hexp.trans h) (fun h => ?_)
    have h55 : 2 ^ (formatOf fmt).fracBits * 2 ^ (55 - (formatOf fmt).fracBits) = 2 ^ 55 := by
      rw [← pow_add]
      congr 1
      omega
    rw [← h55, hsig]
    exact Nat.mul_le_mul_right _ h
  · rw [hsig]
    exact Nat.dvd_mul_left _ _

section Cases

variable (fmt : BitVec 2) (x : BitVec 64) {c : ℕ} (hc : (fracRaw x fmt).toNat = 2 ^ fracPad fmt * c)

include hc

theorem fracRaw_beq_zero : (fracRaw x fmt == 0#52) = decide (c = 0) := by
  have hpos := Nat.two_pow_pos (fracPad fmt)
  rw [Bool.eq_iff_iff, beq_iff_eq, decide_eq_true_iff, ← BitVec.toNat_inj, hc]
  simp

/-- The stored fraction in the units of the unpacked significand. -/
theorem toNat_sigOf_frac (hidden : BitVec 1) :
    (sigOf hidden (fracRaw x fmt) fmt).toNat =
      (hidden.toNat * 2 ^ (formatOf fmt).fracBits + c) * 2 ^ (55 - (formatOf fmt).fracBits) := by
  have hpad := fracBits_add_fracPad fmt
  have h55 : (2 : ℕ) ^ 55 = 2 ^ (formatOf fmt).fracBits * 2 ^ (55 - (formatOf fmt).fracBits) := by
    rw [← pow_add]
    congr 1
    omega
  have hshift : (2 : ℕ) ^ (55 - (formatOf fmt).fracBits) = 2 ^ fracPad fmt * 2 ^ 3 := by
    rw [← pow_add]
    congr 1
    omega
  rw [toNat_sigOf, hc, h55, hshift]
  ring

theorem unpack_subnormal (he : (expRaw x fmt).toNat = 0) :
    FiniteUnpack (formatOf fmt) (fpUnpack x fmt) (signRaw x fmt)
      (signed (signRaw x fmt) ((c : K) * 2 ^ ((formatOf fmt).emin - (formatOf fmt).fracBits))) := by
  have hemax := (formatOf fmt).one_le_emax
  have hexpBits := (formatOf fmt).two_pow_expBits
  have hmin : (formatOf fmt).emin = 1 - (formatOf fmt).emax := rfl
  have hz : expZero (expRaw x fmt) fmt = true := (expZero_iff x fmt).mpr he
  have hm : expMax (expRaw x fmt) fmt = false := by
    rw [← Bool.not_eq_true, expMax_iff]
    omega
  have hfrac := fracRaw_beq_zero fmt x hc
  by_cases hc0 : c = 0
  · have hu : fpUnpack x fmt = { sign := signRaw x fmt, isZero := true } := by
      simp [fpUnpack, hz, hm, hfrac, hc0]
    have hexp : (0 : BitVec 13).toInt = 0 := rfl
    rw [hu, hc0]
    refine ⟨rfl, rfl, rfl, rfl, rfl, by simp, by simp, ?_, ?_, by simp, by simp⟩
    · rw [hexp]
      omega
    · rw [hexp]
      omega
  · have hu : fpUnpack x fmt =
        { sign := signRaw x fmt, isSubnormal := true, sig := sigOf 0#1 (fracRaw x fmt) fmt
          exp := if fmt = 0b00#2 then 1#13 - 127#13 else 1#13 - 1023#13 } := by
      simp [fpUnpack, hz, hm, hfrac, hc0]
    rw [hu]
    refine finiteUnpack_of fmt ?_ (toInt_subnormalExp fmt) hc0 le_rfl (by omega) (.inl rfl)
    rw [toNat_sigOf_frac fmt x hc]
    simp

theorem unpack_normal (hne : (expRaw x fmt).toNat ≠ 0)
    (hmax : (expRaw x fmt).toNat ≠ 2 ^ (formatOf fmt).expBits - 1) :
    FiniteUnpack (formatOf fmt) (fpUnpack x fmt) (signRaw x fmt) (signed (signRaw x fmt)
      (((2 ^ (formatOf fmt).fracBits + c : ℕ) : K) *
        2 ^ (((expRaw x fmt).toNat : ℤ) - (formatOf fmt).emax - (formatOf fmt).fracBits))) := by
  have hlt := toNat_expRaw_lt x fmt
  have hexpBits := (formatOf fmt).two_pow_expBits
  have hmin : (formatOf fmt).emin = 1 - (formatOf fmt).emax := rfl
  have hz : expZero (expRaw x fmt) fmt = false := by rwa [← Bool.not_eq_true, expZero_iff]
  have hm : expMax (expRaw x fmt) fmt = false := by rwa [← Bool.not_eq_true, expMax_iff]
  have hpos := Nat.two_pow_pos (formatOf fmt).fracBits
  have hu : fpUnpack x fmt =
      { sign := signRaw x fmt, sig := sigOf 1#1 (fracRaw x fmt) fmt
        exp := if fmt = 0b00#2 then (0#2 ++ expRaw x fmt) - 127#13 else (0#2 ++ expRaw x fmt) - 1023#13 } := by
    simp [fpUnpack, hz, hm]
  rw [hu]
  refine finiteUnpack_of fmt ?_ (toInt_normalExp fmt _) (by omega) (by omega) (by omega) (.inr (by omega))
  rw [toNat_sigOf_frac fmt x hc]
  simp

end Cases

theorem fpUnpack_spec (fmt : BitVec 2) (x : BitVec 64) :
    Unpacks (formatOf fmt) (fpUnpack x fmt) (read fmt x : Datum K) := by
  have hexpBits := (formatOf fmt).two_pow_expBits
  have hemax := (formatOf fmt).one_le_emax
  have hquiet := getLsbD_fracRaw x fmt
  obtain ⟨c, hc⟩ := fracPad_dvd x fmt
  have hdiv : (fracRaw x fmt).toNat / 2 ^ fracPad fmt = c := by
    rw [hc, Nat.mul_div_cancel_left _ (Nat.two_pow_pos _)]
  have hfrac := fracRaw_beq_zero fmt x hc
  rw [read_eq, Format.ofFields, hdiv]
  rw [hdiv] at hquiet
  by_cases h1 : (expRaw x fmt).toNat = 2 ^ (formatOf fmt).expBits - 1
  · have hm : expMax (expRaw x fmt) fmt = true := (expMax_iff x fmt).mpr h1
    have hz : expZero (expRaw x fmt) fmt = false := by
      rw [← Bool.not_eq_true, expZero_iff]
      omega
    rw [if_pos h1]
    by_cases h2 : c = 0
    · rw [if_pos h2]
      simp [Unpacks, fpUnpack, hz, hm, hfrac, h2]
    · rw [if_neg h2]
      simp [Unpacks, fpUnpack, hz, hm, hfrac, h2, ← hquiet]
  · rw [if_neg h1]
    by_cases h2 : (expRaw x fmt).toNat = 0
    · rw [if_pos h2]
      exact unpack_subnormal fmt x hc h2
    · rw [if_neg h2]
      exact unpack_normal fmt x hc h2 h1

end Unpack

end VMate.FpDatum
