import VMate.OooForward

namespace VMate.OooResult

open Decode Pipe NanBox FpUnpack RiscvTop DecodeFacts StageCtrl RobFifo OooTrap OooWindow OooTimeline OooComplete
  OooSerial OooForward

section Values

/-- What write-back writes with `ooo_en = 0`. -/
def wbValue (w : MemWb) : BitVec 64 :=
  if w.ctrl.fpWe then fpWbDataOf w w.instruction w.ctrl.fmt else 0#32 ++ wbDataOf w

/-- The instruction dispatched at `n` as EX hands it on to MEM. -/
def exMemOf (r : Nat → State) (n : Nat) : ExMem :=
  exMemIn (r (n + 1)).idEx (operandsEx (r (n + 1))) (fcsrRmMem (r (n + 1)))

/-- The value in-order write-back would write for the instruction dispatched
at `n`, with its operands and with memory and CSRs as they are when it is in MEM. -/
def inOrderResult (r : Nat → State) (n : Nat) : BitVec 64 :=
  wbValue (memWbIn (exMemOf r n) (Dmem.readData (r (n + 2)).dmem (dmemInOf (exMemOf r n)))
    (CsrFile.csrRdata (r (n + 2)).csr (csrAddrOf (exMemOf r n))))

/-- The values the design delivers for the instruction dispatched at `n`. -/
inductive Delivers (r : Nat → State) (o : Nat → OpenNets) (n : Nat) : BitVec 64 → Prop where
  | cdbEx : grantEx (r (n + 1)) = true → Delivers r o n (exCdbData (r (n + 1)))
  | cdbMem : grantMem (r (n + 2)) = true → Delivers r o n (memCdbData (o (n + 2)) (r (n + 2)))
  | cdbWb : grantWb (r (n + 3)) = true → Delivers r o n (wbCdbData (r (n + 3)))
  | forwardMem (fp : Bool) (q : Source) : (r (n + 2)).track.validEx = true → q ∈ sources fp (r (n + 2)) →
      Named fp q.reg → legOf fp (r (n + 2)) q.reg = .mem → Delivers r o n q.operand
  | forwardWb (fp : Bool) (q : Source) : (r (n + 3)).track.validEx = true → q ∈ sources fp (r (n + 3)) →
      Named fp q.reg → legOf fp (r (n + 3)) q.reg = .wb → Delivers r o n q.operand
  | commit (v : Nat) : CommitsAt r n v →
      Delivers r o n (regData (ctrlId (r n)).fpWe (commitEntry (r v)).result)

def OneResult (r : Nat → State) (o : Nat → OpenNets) (n : Nat) : Prop :=
  ∀ x, Delivers r o n x → x = inOrderResult r n

/-- When the separately written multiplexers agree. The CDB leg of EX has no
input for an integer result of the FP unit, that of MEM takes the precision
from the undriven `complete_instruction`, and WB forwarding takes it from
whichever instruction has the bus. -/
structure MuxesAgree (r : Nat → State) (o : Nat → OpenNets) (n : Nat) : Prop where
  ex : grantEx (r (n + 1)) = true → (r (n + 1)).idEx.ctrl.fpToInt = true →
    aluResultEx (r (n + 1)) = (fpAluResultEx (r (n + 1))).extractLsb 31 0
  mem : grantMem (r (n + 2)) = true → (r (n + 2)).exMem.ctrl.fpWe = true →
    isSinglePrecisionMem (o (n + 2)) (r (n + 2)) = true → isBoxed (r (n + 2)).exMem.fpAluResult = true
  wb : ∀ q ∈ sources true (r (n + 3)), (r (n + 3)).track.validEx = true → legOf true (r (n + 3)) q.reg = .wb →
    (r (n + 3)).memWb.ctrl.fpMemRead = false →
    isSinglePrecision (finalInstructionWb (r (n + 3))) (finalFmtWb (r (n + 3))) = true →
    isBoxed (r (n + 3)).memWb.fpAluResult = true

end Values

section Muxes

variable {s : State} {o : OpenNets} {x : IdEx} {ops : Operands} {fs : BitVec 2} {rm frm : BitVec 3}
  {d : BitVec 64} {k : BitVec 32}

theorem low_append (a : BitVec 32) : (0#32 ++ a : BitVec 64).extractLsb 31 0 = a := by
  apply BitVec.eq_of_getLsbD_eq
  intro i hi
  rw [BitVec.getLsbD_extractLsb, BitVec.getLsbD_append, Nat.zero_add, if_pos hi]
  simpa using fun _ => hi

theorem append_inj {a b : BitVec 32} : (0#32 ++ a : BitVec 64) = 0#32 ++ b ↔ a = b := by
  constructor
  · intro h
    have hlow := congrArg (BitVec.extractLsb 31 0) h
    rwa [low_append, low_append] at hlow
  · rintro rfl
    rfl

theorem wbValue_fp (hctrl : x.ctrl = (decode x.instruction fs rm).toExCtrl) (hwe : x.ctrl.fpWe = true)
    (hread : x.ctrl.fpMemRead = false) :
    wbValue (memWbIn (exMemIn x ops frm) d k) = (fpAluOf x ops frm).1 := by
  have hwe' : (memWbIn (exMemIn x ops frm) d k).ctrl.fpWe = true := hwe
  have hread' : (memWbIn (exMemIn x ops frm) d k).ctrl.fpMemRead = false := hread
  rw [wbValue, hwe', if_pos rfl, fpWbDataOf, fpResult, hread', if_neg Bool.false_ne_true]
  exact nanBoxed_fpAluOf hctrl hwe

theorem wbValue_int (hwe : x.ctrl.fpWe = false) :
    wbValue (memWbIn (exMemIn x ops frm) d k) = 0#32 ++ wbDataOf (memWbIn (exMemIn x ops frm) d k) :=
  if_neg (by rw [show (memWbIn (exMemIn x ops frm) d k).ctrl.fpWe = false from hwe]; exact Bool.false_ne_true)

/-- An instruction that may have the bus in EX needs neither memory nor a CSR. -/
theorem exReady_spec (h : exReady s = true) : s.idEx.ctrl.memRead = false ∧ s.idEx.ctrl.fpMemRead = false ∧
    s.idEx.ctrl.amoEn = false ∧ s.idEx.ctrl.resultSel ≠ 0b11#2 := by
  simp only [exReady, Bool.not_eq_true', Bool.or_eq_false_iff, beq_eq_false_iff_ne] at h
  obtain ⟨⟨⟨⟨⟨⟨hr, -⟩, hfr⟩, -⟩, -⟩, hsel⟩, hamo⟩ := h
  exact ⟨hr, hfr, hamo, hsel⟩

theorem memReady_spec (h : memReady s = true) : s.exMem.ctrl.fpMemRead = false := by
  simp only [memReady, Bool.not_eq_true', Bool.or_eq_false_iff] at h
  exact h.1.1.1.2

theorem exCdbData_iff (hctrl : s.idEx.ctrl = (decode s.idEx.instruction fs rm).toExCtrl)
    (hwe : (s.idEx.ctrl.regWrite || s.idEx.ctrl.fpWe) = true) (hready : exReady s = true) :
    exCdbData s = wbValue (memWbIn (exMemIn s.idEx (operandsEx s) (fcsrRmMem s)) d k) ↔
      (s.idEx.ctrl.fpToInt = true → aluResultEx s = (fpAluResultEx s).extractLsb 31 0) := by
  obtain ⟨hmem, hfpmem, hamo, hcsr⟩ := exReady_spec hready
  have hint : s.idEx.ctrl.fpToInt = true → s.idEx.ctrl.fpWe = false ∧ s.idEx.ctrl.resultSel = 0b01#2 := by
    rw [hctrl]
    exact decode_fpToInt
  cases hfp : s.idEx.ctrl.fpWe with
  | true =>
      have hval : exCdbData s = wbValue (memWbIn (exMemIn s.idEx (operandsEx s) (fcsrRmMem s)) d k) := by
        rw [wbValue_fp hctrl hfp hfpmem, exCdbData, hfp]
        rfl
      refine iff_of_true hval fun h => ?_
      rw [(hint h).1] at hfp
      cases hfp
  | false =>
      rw [wbValue_int hfp, exCdbData, hfp, if_neg Bool.false_ne_true, append_inj]
      change _ = intResult s.idEx.ctrl.toWbCtrl (fpAluResultEx s) (aluResultEx s) d s.idEx.pcPlus4 k ↔ _
      rw [intResult]
      cases hti : s.idEx.ctrl.fpToInt with
      | true =>
          rw [(hint hti).2, if_neg (by decide)]
          simp
      | false =>
          refine iff_of_true ?_ fun h => (Bool.false_ne_true h).elim
          rw [hfp, Bool.or_false] at hwe
          have hload : s.idEx.ctrl.resultSel ≠ 0b01#2 := by
            intro hsel
            have h : s.idEx.ctrl.memRead = true ∨ s.idEx.ctrl.amoEn = true := by
              rw [hctrl] at hwe hti hsel ⊢
              exact decode_loads hwe hti hsel
            rw [hmem, hamo] at h
            simp at h
          have hsel : ∀ sel : BitVec 2, sel ≠ 0b01#2 → sel ≠ 0b11#2 → sel = 0b00#2 ∨ sel = 0b10#2 := by decide
          rcases hsel _ hload hcsr with h | h <;> simp [h]

theorem memCdbData_iff (hctrl : x.ctrl = (decode x.instruction fs rm).toExCtrl)
    (hexMem : s.exMem = exMemIn x ops frm) (hready : memReady s = true) :
    memCdbData o s = wbValue (memWbIn s.exMem (dmemRdataMem s) (csrRdataMem s)) ↔
      (s.exMem.ctrl.fpWe = true → isSinglePrecisionMem o s = true → isBoxed s.exMem.fpAluResult = true) := by
  have hread := memReady_spec hready
  cases hfp : s.exMem.ctrl.fpWe with
  | true =>
      rw [memCdbData, hfp, if_pos rfl, memFpData, fpResult, hread, if_neg Bool.false_ne_true]
      rw [hexMem] at hfp hread ⊢
      rw [wbValue_fp hctrl hfp hread]
      exact nanBoxed_eq_iff.trans ⟨fun h _ => h, fun h => h rfl⟩
  | false =>
      refine iff_of_true ?_ fun h => (Bool.false_ne_true h).elim
      rw [memCdbData, hfp, if_neg Bool.false_ne_true]
      rw [hexMem] at hfp
      rw [hexMem, wbValue_int hfp, ← hexMem]
      rfl

/-- What WB has at its output, for whichever instruction it takes the precision from. -/
theorem fpWbDataWb_iff {e : ExMem} (hctrl : x.ctrl = (decode x.instruction fs rm).toExCtrl)
    (he : e = exMemIn x ops frm) (hmemWb : s.memWb = memWbIn e d k) (hwe : x.ctrl.fpWe = true) :
    fpWbDataWb s = wbValue (memWbIn e d k) ↔
      (s.memWb.ctrl.fpMemRead = false → isSinglePrecision (finalInstructionWb s) (finalFmtWb s) = true →
        isBoxed s.memWb.fpAluResult = true) := by
  have hread : s.memWb.ctrl.fpMemRead = x.ctrl.fpMemRead := by
    rw [hmemWb, he]
    rfl
  have hfp : s.memWb.ctrl.fpWe = true := by
    rw [hmemWb, he]
    exact hwe
  cases hr : x.ctrl.fpMemRead with
  | true =>
      rw [hr] at hread
      refine iff_of_true ?_ fun h => by rw [hread] at h; cases h
      rw [← hmemWb, wbValue, hfp, if_pos rfl, fpWbDataWb, fpWbDataOf, fpWbDataOf, fpResult, fpResult, hread]
      rfl
  | false =>
      rw [hr] at hread
      have hval : s.memWb.fpAluResult = (fpAluOf x ops frm).1 := by
        rw [hmemWb, he]
        rfl
      rw [he, wbValue_fp hctrl hwe hr, fpWbDataWb, fpWbDataOf, fpResult, hread, if_neg Bool.false_ne_true, ← hval]
      exact nanBoxed_eq_iff.trans ⟨fun h _ => h, fun h => h rfl⟩

/-- For its own instruction the precision is right. -/
theorem isBoxed_of_own {e : ExMem} (hctrl : x.ctrl = (decode x.instruction fs rm).toExCtrl)
    (he : e = exMemIn x ops frm) (hwe : x.ctrl.fpWe = true) (hread : x.ctrl.fpMemRead = false)
    (h : isSinglePrecision x.instruction (x.instruction.extractLsb 26 25) = true) : isBoxed e.fpAluResult = true := by
  have hfmt : x.ctrl.fmt = x.instruction.extractLsb 26 25 := by
    rw [hctrl] at hwe hread ⊢
    exact decode_fmt hwe hread
  rw [← hfmt] at h
  rw [he]
  exact nanBoxed_eq_iff.mp (nanBoxed_fpAluOf hctrl hwe) h

end Muxes

section Stages

variable {imem : Imem} {p : PowerUp} {o : Nat → OpenNets} {N n : Nat} (hstay : StaysOn imem p o N)
  (hd : dispatchEn (run imem p o n) = true) (hexc : (ctrlId (run imem p o n)).exception = false)

include hd

theorem ctrl_of_dispatch : (run imem p o (n + 1)).idEx.ctrl = (decode (run imem p o (n + 1)).idEx.instruction
    (run imem p o n).csr.mstatusFs (fcsrRmMem (run imem p o n))).toExCtrl := by
  rw [run, idEx_dispatched hd]
  rfl

include hstay

theorem inOrderResult_mem (hf1 : finalFlush (run imem p o (n + 1)) = false) :
    inOrderResult (run imem p o) n = wbValue (memWbIn (run imem p o (n + 2)).exMem
      (dmemRdataMem (run imem p o (n + 2))) (csrRdataMem (run imem p o (n + 2)))) := by
  have hexMem := (mem_of_dispatch (oooTrace_run hstay) hd hf1).2.2.2
  rw [inOrderResult, exMemOf, ← hexMem]
  rfl

theorem inOrderResult_wb (hf1 : finalFlush (run imem p o (n + 1)) = false)
    (hf2 : finalFlush (run imem p o (n + 2)) = false) :
    inOrderResult (run imem p o) n = wbValue (run imem p o (n + 3)).memWb := by
  rw [inOrderResult_mem hstay hd hf1, (wb_of_dispatch (oooTrace_run hstay) hd hf1 hf2).2.2.2]

include hexc

theorem cdbEx_iff (hwe : ((ctrlId (run imem p o n)).regWrite || (ctrlId (run imem p o n)).fpWe) = true)
    (h : grantEx (run imem p o (n + 1)) = true) :
    exCdbData (run imem p o (n + 1)) = inOrderResult (run imem p o) n ↔
      ((run imem p o (n + 1)).idEx.ctrl.fpToInt = true →
        aluResultEx (run imem p o (n + 1)) = (fpAluResultEx (run imem p o (n + 1))).extractLsb 31 0) := by
  have hidEx := (ex_of_dispatch (oooTrace_run hstay) hd).2.2
  have hready : exReady (run imem p o (n + 1)) = true := by
    simp only [grantEx, exWantsCdb, Bool.and_eq_true, Bool.or_eq_true] at h
    refine h.1.1.2.resolve_right fun he => ?_
    rw [hidEx] at he
    exact Bool.false_ne_true (hexc.symm.trans he)
  refine exCdbData_iff (ctrl_of_dispatch hd) ?_ hready
  rw [hidEx]
  exact hwe

omit hexc in
theorem cdbMem_iff (hN : n + 2 ≤ N) (h : grantMem (run imem p o (n + 2)) = true) :
    memCdbData (o (n + 2)) (run imem p o (n + 2)) = inOrderResult (run imem p o) n ↔
      ((run imem p o (n + 2)).exMem.ctrl.fpWe = true →
        isSinglePrecisionMem (o (n + 2)) (run imem p o (n + 2)) = true →
        isBoxed (run imem p o (n + 2)).exMem.fpAluResult = true) := by
  have hr := oooTrace_run hstay
  have hf1 := finalFlush_of_mem (grantMem_valid h)
  have hready : memReady (run imem p o (n + 2)) = true := by
    simp only [grantMem, memWantsCdb, (hr.trap (n + 2)).mem (ooo_after hr hd (by omega) hN), Bool.or_false,
      Bool.and_eq_true] at h
    exact h.1.2.2
  rw [inOrderResult_mem hstay hd hf1]
  exact memCdbData_iff (ctrl_of_dispatch hd) (mem_of_dispatch hr hd hf1).2.2.2 hready

/-- A grant in WB always carries the right value. -/
theorem cdbWb_eq (hN : n + 3 ≤ N) (h : grantWb (run imem p o (n + 3)) = true) :
    wbCdbData (run imem p o (n + 3)) = inOrderResult (run imem p o) n := by
  have hr := oooTrace_run hstay
  have hooo := ooo_after hr hd (t := n + 3) (by omega) hN
  have hal := (grantWb_alive hr hd hexc (by omega) h).1
  have hf1 := (hal (n + 1) (by omega) (by omega)).1
  have hf2 := (hal (n + 2) (by omega) (by omega)).1
  have hexMem := (mem_of_dispatch hr hd hf1).2.2.2
  obtain ⟨-, hidx, -, hmemWb⟩ := wb_of_dispatch hr hd hf1 hf2
  have hown : cdbInstruction (run imem p o (n + 3)) = (run imem p o (n + 1)).idEx.instruction := by
    rw [cdbInstruction, (cdb_of_grantWb hooo h).2, hidx, instruction_alive hr hd (by omega) hN hal,
      (ex_of_dispatch hr hd).2.2]
    rfl
  rw [inOrderResult_wb hstay hd hf1 hf2, wbCdbData]
  cases hfp : (run imem p o (n + 3)).memWb.ctrl.fpWe with
  | false => rw [wbValue, hfp]; rfl
  | true =>
      have hwe : (run imem p o (n + 1)).idEx.ctrl.fpWe = true := by
        rw [hmemWb, hexMem] at hfp
        exact hfp
      rw [if_pos rfl, hmemWb]
      refine (fpWbDataWb_iff (ctrl_of_dispatch hd) hexMem hmemWb hwe).mpr fun hread hs => ?_
      rw [finalInstructionWb, finalFmtWb, hooo, if_pos rfl, if_pos rfl, hown] at hs
      rw [hmemWb] at hread ⊢
      rw [hexMem] at hread
      exact isBoxed_of_own (ctrl_of_dispatch hd) hexMem hwe hread hs

omit hexc in
/-- What MEM forwards is always right. -/
theorem forwardMem_eq (hN : n + 2 ≤ N) {fp : Bool} {q : Source}
    (hex : (run imem p o (n + 2)).track.validEx = true) (hq : q ∈ sources fp (run imem p o (n + 2)))
    (hrs : Named fp q.reg) (hleg : legOf fp (run imem p o (n + 2)) q.reg = .mem) :
    q.operand = inOrderResult (run imem p o) n := by
  have hr := oooTrace_run hstay
  have hw := writesReg_of_leg_mem hrs hleg
  obtain ⟨m, hm, -, hf1, -⟩ := mem_writer hstay hN (ooo_after hr hd (by omega) hN) hw
  obtain rfl : n = m := by omega
  have hexMem := (mem_of_dispatch hr hd hf1).2.2.2
  rw [operand_leg hq, hleg, legData, inOrderResult_mem hstay hd hf1]
  rw [hexMem, writesReg, Bool.and_eq_true, beq_iff_eq] at hw
  cases fp with
  | true =>
      have hdc : dispatchEn (run imem p o (n + 1)) = true := by
        rw [run, validEx_tick, Bool.and_eq_true] at hex
        exact hex.1
      rw [if_pos rfl, hexMem, wbValue_fp (ctrl_of_dispatch hd) hw.1 (fpMemRead_of_source hdc hq hw.2)]
      rfl
  | false =>
      have hfp : (run imem p o (n + 1)).idEx.ctrl.fpWe = false := by
        have hwe : (run imem p o (n + 1)).idEx.ctrl.regWrite = true := hw.1
        rw [ctrl_of_dispatch hd] at hwe ⊢
        exact decode_oneFile hwe
      rw [if_neg Bool.false_ne_true, hexMem, wbValue_int hfp, ← hexMem]
      rfl

omit hexc in
/-- What WB forwards is right for an integer register, and for an FP register
if it takes the right precision. -/
theorem forwardWb_iff (hN : n + 3 ≤ N) {fp : Bool} {q : Source}
    (hex : (run imem p o (n + 3)).track.validEx = true) (hq : q ∈ sources fp (run imem p o (n + 3)))
    (hrs : Named fp q.reg) (hleg : legOf fp (run imem p o (n + 3)) q.reg = .wb) :
    q.operand = inOrderResult (run imem p o) n ↔
      (fp = true → (run imem p o (n + 3)).memWb.ctrl.fpMemRead = false →
        isSinglePrecision (finalInstructionWb (run imem p o (n + 3))) (finalFmtWb (run imem p o (n + 3))) = true →
        isBoxed (run imem p o (n + 3)).memWb.fpAluResult = true) := by
  have hr := oooTrace_run hstay
  have hw := writesReg_of_leg_wb hrs hleg
  obtain ⟨m, hm, -, hf1, hf2, -⟩ := wb_writer hstay hN (ooo_after hr hd (by omega) hN) hex hw
  obtain rfl : n = m := by omega
  have hexMem := (mem_of_dispatch hr hd hf1).2.2.2
  have hmemWb := (wb_of_dispatch hr hd hf1 hf2).2.2.2
  rw [operand_leg hq, hleg, legData, inOrderResult_wb hstay hd hf1 hf2]
  rw [writesReg, Bool.and_eq_true] at hw
  cases fp with
  | true =>
      have hwe : (run imem p o (n + 1)).idEx.ctrl.fpWe = true := by
        rw [hmemWb, hexMem] at hw
        exact hw.1
      rw [if_pos rfl, hmemWb, fpWbDataWb_iff (ctrl_of_dispatch hd) hexMem hmemWb hwe, hmemWb]
      exact ⟨fun h _ => h, fun h => h rfl⟩
  | false =>
      have hfp : (run imem p o (n + 3)).memWb.ctrl.fpWe = false := by
        have hwe : (run imem p o (n + 1)).idEx.ctrl.regWrite = true := by
          rw [hmemWb, hexMem] at hw
          exact hw.1
        rw [ctrl_of_dispatch hd] at hwe
        rw [hmemWb, hexMem]
        change (run imem p o (n + 1)).idEx.ctrl.fpWe = false
        rw [ctrl_of_dispatch hd]
        exact decode_oneFile hwe
      refine iff_of_true ?_ fun h => (Bool.false_ne_true h).elim
      rw [wbValue, hfp]
      rfl

/-- What is committed is what the instruction had on the bus. -/
theorem commit_result (hN : n + 4 ≤ N) {v : Nat} (hc : CommitsAt (run imem p o) n v) :
    (grantEx (run imem p o (n + 1)) = true ∧
        (commitEntry (run imem p o v)).result = exCdbData (run imem p o (n + 1))) ∨
      (grantMem (run imem p o (n + 2)) = true ∧
        (commitEntry (run imem p o v)).result = memCdbData (o (n + 2)) (run imem p o (n + 2))) ∨
      (grantWb (run imem p o (n + 3)) = true ∧
        (commitEntry (run imem p o v)).result = wbCdbData (run imem p o (n + 3))) := by
  have hr := oooTrace_run hstay
  have hv := commits_le hr hd hN hc
  obtain ⟨hnv, hal, hce, hhead⟩ := hc
  have hcomp := ((commitEn_eq (hr.trap v).wf).mp hce).2
  rw [commitEntry_of_head hhead] at hcomp ⊢
  obtain ⟨g, hng, hgv, hen, hidx, hout⟩ := outcome_alive hr hd hexc hnv (by omega) hal hcomp
  have hres := congrArg Prod.fst hout
  change ((run imem p o v).rob.robData (robIdxDisp (run imem p o n))).result = cdbData (o g) (run imem p o g) at hres
  rw [hres, cdbData]
  rcases own_broadcast hr hd hN (by omega) hng (alive_mono (by omega) hal) hen hidx with ⟨rfl, h⟩ | ⟨rfl, h⟩ | ⟨rfl, h⟩
  · refine .inl ⟨h, ?_⟩
    rw [(grantEx_alone h).1, (grantEx_alone h).2]
    rfl
  · refine .inr (.inl ⟨h, ?_⟩)
    rw [h, grantMem_alone h]
    rfl
  · exact .inr (.inr ⟨h, by rw [h]; rfl⟩)

end Stages

theorem regData_wbValue (w : MemWb) : regData w.ctrl.fpWe (wbValue w) = wbValue w := by
  rw [wbValue, regData]
  cases w.ctrl.fpWe with
  | true => rfl
  | false => exact congrArg (0#32 ++ ·) (low_append _)

/-- In OoO mode an instruction that writes a register has one result, the one
in-order write-back would write, exactly when the multiplexers agree. -/
theorem oneResult_iff (imem : Imem) (p : PowerUp) (o : Nat → OpenNets) (n : Nat)
    (hstay : StaysOn imem p o (n + 4)) (hd : dispatchEn (run imem p o n) = true)
    (hexc : (ctrlId (run imem p o n)).exception = false)
    (hwe : ((ctrlId (run imem p o n)).regWrite || (ctrlId (run imem p o n)).fpWe) = true) :
    OneResult (run imem p o) o n ↔ MuxesAgree (run imem p o) o n := by
  constructor
  · intro h
    refine ⟨fun hg => ?_, fun hg => ?_, fun q hq hex hleg => ?_⟩
    · exact (cdbEx_iff hstay hd hexc hwe hg).mp (h _ (.cdbEx hg))
    · exact (cdbMem_iff hstay hd (by omega) hg).mp (h _ (.cdbMem hg))
    · exact (forwardWb_iff hstay hd (by omega) hex hq (.inl rfl) hleg).mp (h _ (.forwardWb true q hex hq (.inl rfl) hleg))
        rfl
  · intro h x hx
    cases hx with
    | cdbEx hg => exact (cdbEx_iff hstay hd hexc hwe hg).mpr (h.ex hg)
    | cdbMem hg => exact (cdbMem_iff hstay hd (by omega) hg).mpr (h.mem hg)
    | cdbWb hg => exact cdbWb_eq hstay hd hexc (by omega) hg
    | forwardMem fp q hex hq hrs hleg => exact forwardMem_eq hstay hd (by omega) hex hq hrs hleg
    | forwardWb fp q hex hq hrs hleg =>
        refine (forwardWb_iff hstay hd (by omega) hex hq hrs hleg).mpr fun hfp => ?_
        subst hfp
        exact h.wb q hq hex hleg
    | commit v hc =>
        have hres : (commitEntry (run imem p o v)).result = inOrderResult (run imem p o) n := by
          rcases commit_result hstay hd hexc (Nat.le_refl _) hc with ⟨hg, he⟩ | ⟨hg, he⟩ | ⟨hg, he⟩
          · exact he.trans ((cdbEx_iff hstay hd hexc hwe hg).mpr (h.ex hg))
          · exact he.trans ((cdbMem_iff hstay hd (by omega) hg).mpr (h.mem hg))
          · exact he.trans (cdbWb_eq hstay hd hexc (by omega) hg)
        have hfp : (exMemOf (run imem p o) n).ctrl.fpWe = (ctrlId (run imem p o n)).fpWe := by
          rw [exMemOf, (ex_of_dispatch (oooTrace_run hstay) hd).2.2]
          rfl
        rw [hres, ← hfp]
        exact regData_wbValue (memWbIn (exMemOf (run imem p o) n) _ _)

theorem oneResult_addi :
    OneResult (run forwardImage zeroPowerUp (fun _ => zeroNets)) (fun _ => zeroNets) 4 :=
  (oneResult_iff forwardImage zeroPowerUp (fun _ => zeroNets) 4 (by decide +kernel)
    (by decide +kernel) (by decide +kernel) (by decide +kernel)).mpr
      ⟨by decide +kernel, by decide +kernel, by decide +kernel⟩

/-- `lui x1, 6; csrw mstatus, x1`, the mode switch, and `fmv.x.w x2, f1`. -/
def fmvImage : Imem := imageOf [0x000060B7#32, 0x30009073#32, csrOooOn, 0xE0008153#32]

/-- The bus carries the sum of the integer registers that the fields name, and
this is what `x2` gets. -/
theorem not_oneResult_fmv :
    StaysOn fmvImage zeroPowerUp (fun _ => zeroNets) 12 ∧
      dispatchEn (run fmvImage zeroPowerUp (fun _ => zeroNets) 8) = true ∧
      (ctrlId (run fmvImage zeroPowerUp (fun _ => zeroNets) 8)).exception = false ∧
      (ctrlId (run fmvImage zeroPowerUp (fun _ => zeroNets) 8)).regWrite = true ∧
      inOrderResult (run fmvImage zeroPowerUp (fun _ => zeroNets)) 8 = 0#64 ∧
      (run fmvImage zeroPowerUp (fun _ => zeroNets) 11).regs 2#5 = 0x6000#32 ∧
      ¬ OneResult (run fmvImage zeroPowerUp (fun _ => zeroNets)) (fun _ => zeroNets) 8 := by
  refine ⟨by decide +kernel, by decide +kernel, by decide +kernel, by decide +kernel, by decide +kernel,
    by decide +kernel, fun h => ?_⟩
  have hbus := h _ (.cdbEx (by decide +kernel))
  revert hbus
  decide +kernel

end VMate.OooResult
