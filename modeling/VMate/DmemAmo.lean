import VMate.DmemBytes
import VMate.LrSc
import VMate.RiscvSb

namespace VMate.DmemAmo

open Dmem Bytes DmemBytes RiscvSb

/-- The operations that `funct5` names besides LR and SC. -/
def namesOp (funct5 : BitVec 5) : Bool :=
  [0b00000#5, 0b00001#5, 0b00100#5, 0b01000#5, 0b01100#5, 0b10000#5, 0b10100#5, 0b11000#5, 0b11100#5].contains funct5

def operand (i : DmemIn) : BitVec 32 := i.writeData.extractLsb 31 0

def oldWord (d : State) (addr : BitVec 32) : BitVec 32 := ofBytes (fun k => d.mem (wrap addr k)) 4

/-- A word AMO as the reference computes it. -/
structure AmoMatches (d : State) (i : DmemIn) : Prop where
  returned : readData d i = (oldWord d i.addr).setWidth 64
  stored : Stored d.mem (dmemTick d i).mem i.addr 4 ((amoRes i.amoOp (oldWord d i.addr) (operand i)).setWidth 64)
  reservationValid : (dmemTick d i).reservationValid = d.reservationValid
  reservationAddr : (dmemTick d i).reservationAddr = d.reservationAddr

theorem amoRes_of_not_namesOp {op : BitVec 5} (h : namesOp op = false) (r w : BitVec 32) : amoRes op r w = r := by
  simp only [namesOp, List.contains_eq_mem, List.mem_cons, decide_eq_false_iff_not, not_or] at h
  simp [amoRes, h]

theorem setWidth_amoWriteData (op : BitVec 5) (r w : BitVec 32) :
    (amoWriteData op r w).setWidth 32 = if namesOp op then amoRes op r w else w := by
  have hback (x : BitVec 32) : (x.setWidth 64).setWidth 32 = x := by
    rw [BitVec.setWidth_setWidth_of_le x (by decide), BitVec.setWidth_eq]
  cases h : namesOp op with
  | false =>
      simp only [namesOp, List.contains_eq_mem, List.mem_cons, decide_eq_false_iff_not, not_or] at h
      simp [amoWriteData, h]
  | true =>
      simp only [namesOp, List.contains_eq_mem, List.mem_cons, List.not_mem_nil, or_false, decide_eq_true_eq] at h
      obtain rfl | rfl | rfl | rfl | rfl | rfl | rfl | rfl | rfl := h
      · exact (BitVec.setWidth_add _ _ (by decide)).trans (congrArg₂ (· + ·) (hback r) (hback w))
      all_goals exact hback _

section Cycle

variable {d : State} {i : DmemIn} (ha : i.amoEn = true) (hs : i.memSize = 0b010#3) (hlr : i.amoOp ≠ 0b00010#5)
  (hsc : i.amoOp ≠ 0b00011#5)

include ha hs in
theorem readDataReg_word :
    readDataReg d i = (ofBytes (fun k => d.mem (maskedAddr i.addr + k)) 4).setWidth 64 := by
  rw [← append_four]
  simp [readDataReg, ha, hs]

include hsc in
theorem readData_word : readData d i = readDataReg d i := by
  simp [readData, hsc]

include ha hs hlr hsc in
theorem mem_amo : (dmemTick d i).mem =
    writeBytes d.mem (maskedAddr i.addr)
      (amoWriteData i.amoOp ((readDataReg d i).extractLsb 31 0) (operand i)) 4 := by
  have hn : storeBytes i.memSize = 4 := by rw [hs]; rfl
  simp [dmemTick, executeWrite, actualWriteData, operand, ha, hlr, hsc, hn]

theorem oldWord_eq {addr : BitVec 32} (hf : Fits addr 4) :
    ofBytes (fun k => d.mem (maskedAddr addr + k)) 4 = oldWord d addr :=
  ofBytes_inj.mpr fun _ hk => beyond_of_fits hf hk

theorem oldWord_withBeyond (d : State) (u : Nat → BitVec 8) (addr : BitVec 32) :
    oldWord (withBeyond d u) addr = oldWord d addr :=
  ofBytes_inj.mpr fun _ _ => withBeyond_inside d u (wrap_lt _ _)

include ha hs hlr hsc in
/-- Inside the array the word stored is the reference's, or the operand where
`funct5` names no operation. -/
theorem stored_amo (hf : Fits i.addr 4) :
    Stored d.mem (dmemTick d i).mem i.addr 4
      ((if namesOp i.amoOp then amoRes i.amoOp (oldWord d i.addr) (operand i) else operand i).setWidth 64) := by
  have hold : (readDataReg d i).extractLsb 31 0 = oldWord d i.addr := by
    rw [readDataReg_word ha hs, low_setWidth, ← oldWord_eq hf]
    exact BitVec.setWidth_eq _
  rw [mem_amo ha hs hlr hsc, hold, ← setWidth_amoWriteData]
  refine (stored_of_fits (by decide) hf).congr fun k hk => ?_
  rw [byte_setWidth _ (by omega), byte_setWidth _ (by omega)]

include ha hs hsc in
/-- What is read past the array is unknown, so a known word lies inside it. -/
theorem fits_of_returned (h : ∀ u, readData (withBeyond d u) i = (oldWord (withBeyond d u) i.addr).setWidth 64) :
    Fits i.addr 4 := by
  apply fits_of_beyond
  intro u
  have hr := h u
  rw [readData_word hsc, readDataReg_word ha hs] at hr
  have hlow := congrArg (BitVec.setWidth 32) hr
  rw [BitVec.setWidth_setWidth_of_le _ (by decide), BitVec.setWidth_setWidth_of_le _ (by decide)] at hlow
  exact ofBytes_inj.mp hlow

theorem stored_inj {m m' : Nat → BitVec 8} {addr : BitVec 32} {w w' : BitVec 32}
    (h : Stored m m' addr 4 (w.setWidth 64)) (h' : Stored m m' addr 4 (w'.setWidth 64)) : w = w' := by
  apply eq_of_byte_eq (n := 4)
  intro k hk
  have hb := (h.bytes k hk).symm.trans (h'.bytes k hk)
  rwa [byte_setWidth _ (by omega), byte_setWidth _ (by omega)] at hb

include ha hs hlr hsc in
/-- A word AMO is the reference's exactly when its word lies inside the array
and its code names an operation: for the other codes the reference keeps the
old word and the memory takes the operand. -/
theorem amo_iff :
    (∀ u, AmoMatches (withBeyond d u) i) ↔
      Fits i.addr 4 ∧ (namesOp i.amoOp = true ∨ operand i = oldWord d i.addr) := by
  constructor
  · intro h
    have hf : Fits i.addr 4 := fits_of_returned ha hs hsc fun u => (h u).returned
    refine ⟨hf, ?_⟩
    cases hop : namesOp i.amoOp with
    | true => exact .inl rfl
    | false =>
        right
        have hst := stored_amo (d := withBeyond d d.mem) ha hs hlr hsc hf
        have href := (h d.mem).stored
        rw [hop] at hst
        rw [amoRes_of_not_namesOp hop, oldWord_withBeyond] at href
        exact stored_inj hst href
  · rintro ⟨hf, hop⟩ u
    have hres := LrSc.reservation_other (d := withBeyond d u) (i := i) (by simp [LrSc.isLr, hlr])
      (by simp [LrSc.isSc, hsc])
    refine ⟨?_, ?_, hres.1, hres.2⟩
    · rw [readData_word hsc, readDataReg_word ha hs, oldWord_eq hf]
    · have hst := stored_amo (d := withBeyond d u) ha hs hlr hsc hf
      cases hn : namesOp i.amoOp with
      | true => rwa [hn] at hst
      | false =>
          have he : operand i = oldWord d i.addr := hop.resolve_left (by simp [hn])
          rw [hn, he] at hst
          rwa [amoRes_of_not_namesOp hn, oldWord_withBeyond]

end Cycle

/-- A word AMO on the address 16 with the operand 5. -/
def amoWord (funct5 : BitVec 5) : DmemIn :=
  { memWrite := true, memRead := true, amoEn := true, amoOp := funct5, addr := 0x10#32, writeData := 5#64
    memSize := 0b010#3 }

theorem amo_iff_max : AmoMatches (withBeyond zeros fun _ => 0xAA#8) (amoWord 0b10100#5) :=
  (amo_iff rfl rfl (by decide) (by decide)).mpr ⟨by decide, .inl rfl⟩ _

/-- The code 00101 names no operation, and the operand is stored. -/
theorem amo_unnamed : ¬ AmoMatches zeros (amoWord 0b00101#5) := by
  intro h
  have hb := h.stored.bytes 0 (by decide)
  revert hb
  decide

end VMate.DmemAmo
