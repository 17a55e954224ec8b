import VMate.IsaFpUnit
import VMate.IsaStep

namespace VMate.IsaFpStep

open Decode Pipe RegFile RiscvTop SeqExec DecodeFacts FpAlu IsaExec IsaTrap IsaStep IsaFp IsaFpUnit
open Isa (Fields Reg ofWord_word order_hi order_lo)

instance : FpCsrs CsrFile.State where
  off c := c.mstatusFs == 0b00#2
  rounding := CsrFile.State.frmReg
  accrue c flags := { c with fflagsReg := c.fflagsReg ||| flags }

def fpHartOf (a : Arch) : FpMachine CsrFile.State 19 := ⟨hartOf a, a.fpr⟩

section Words

variable (i : FpInstr)

theorem opcodeOf_encodeFp : opcodeOf (encodeFp i) = i.fields.opcode := congrArg Fields.opcode (ofWord_word i.fields)

theorem rdOf_encodeFp : rdOf (encodeFp i) = i.fields.rd := congrArg Fields.rd (ofWord_word i.fields)

theorem rs1Of_encodeFp : rs1Of (encodeFp i) = i.fields.rs1 := congrArg Fields.rs1 (ofWord_word i.fields)

theorem rs2Of_encodeFp : rs2Of (encodeFp i) = i.fields.rs2 := congrArg Fields.rs2 (ofWord_word i.fields)

theorem funct3_encodeFp : (encodeFp i).extractLsb 14 12 = i.fields.funct3 :=
  congrArg Fields.funct3 (ofWord_word i.fields)

theorem funct7_encodeFp : (encodeFp i).extractLsb 31 25 = i.fields.funct7 :=
  congrArg Fields.funct7 (ofWord_word i.fields)

theorem rs3Of_eq (w : BitVec 32) : rs3Of w = (w.extractLsb 31 25).extractLsb 6 2 := by
  apply BitVec.eq_of_getLsbD_eq
  intro n hn
  simp only [rs3Of, BitVec.getLsbD_extractLsb]
  grind

theorem rs3Of_encodeFp : rs3Of (encodeFp i) = i.fields.funct7.extractLsb 6 2 := by rw [rs3Of_eq, funct7_encodeFp]

theorem row_encodeFp : row (encodeFp i) = fieldsRow i.fields := by
  rw [row, opcodeOf_encodeFp, funct3_encodeFp, funct7_encodeFp, rs1Of_encodeFp, rs2Of_encodeFp]
  rfl

theorem isFpOpcode_fields : isFpOpcode i.fields.opcode = true := by
  cases i with
  | op o =>
      cases o with
      | fused op => cases op <;> rfl
      | _ => rfl
  | _ => rfl

end Words

section Rows

variable {o : FpOp} {fs : BitVec 2} {frm : BitVec 3} {mode : Rounding.Mode}

/-- The row of the decoder table behind an operation. -/
def opRow (u : UnitOp) : Ctrl :=
  { regWrite := u.fpToInt, fpWe := !u.fpToInt, fpToInt := u.fpToInt, intToFp := u.intToFp, fpAluOp := u.fpAluOp
    fmt := u.fmt, rm := u.rm, fpFflagsWe := u.fpFflagsWe }

theorem fieldsRow_opFp (funct7 : BitVec 7) (rs2 rs1 : BitVec 5) (funct3 : BitVec 3) (rd : BitVec 5) :
    fieldsRow ⟨funct7, rs2, rs1, funct3, rd, IsaFp.opFp⟩ = decodeFp funct3 funct7 := rfl

theorem fieldsRow_op : fieldsRow o.fields = opRow (unitOp o) := by
  cases o with
  | fused op fmt rm rd rs1 rs2 rs3 =>
      have hfma : fieldsRow (FpOp.fused op fmt rm rd rs1 rs2 rs3).fields =
          decodeFma (fusedAluOp op) rm (rs3 ++ fmt.code) := by cases op <;> rfl
      rw [hfma, decodeFma, order_lo]
      rfl
  | moveToInt => exact fieldsRow_opFp _ _ _ _ _
  | moveOfInt => exact fieldsRow_opFp _ _ _ _ _
  | arith op =>
      refine (fieldsRow_opFp _ _ _ _ _).trans ?_
      rw [decodeFp, order_hi, order_lo]
      cases op <;> rfl
  | _ =>
      refine (fieldsRow_opFp _ _ _ _ _).trans ?_
      rw [decodeFp, order_hi, order_lo]
      rfl

theorem dest_op : o.dest = if (unitOp o).fpToInt then .int o.fields.rd else .float o.fields.rd := by cases o <;> rfl

/-- An operation traps with the unit off and with a reserved rounding mode. -/
theorem fpTrap_op : fpTrap (encodeFp (.op o)) fs frm = (fs == 0b00#2 || (o.mode frm).isNone) := by
  have hrm : ∀ rm : BitVec 3, (rm == 0b101#3 || rm == 0b110#3 || (rm == 0b111#3 && decide (0b101#3 ≤ frm))) =
      (modeTable.find (if rm = 0b111#3 then frm else rm)).isNone := by
    revert frm
    decide
  have hop : isFpOpcode o.fields.opcode = true := isFpOpcode_fields (.op o)
  have hmem : (o.fields.opcode != Decode.opLoadFp && o.fields.opcode != Decode.opStoreFp) = true := by
    cases o with
    | fused op => cases op <;> rfl
    | _ => rfl
  rw [fpTrap, opcodeOf_encodeFp, funct3_encodeFp, FpInstr.fields, hop, hmem, Bool.true_and, Bool.true_and, hrm]
  congr 1
  cases o with
  | sign op => cases op <;> rfl
  | pick op => cases op <;> rfl
  | compare op => cases op <;> rfl
  | classify => rfl
  | moveToInt => rfl
  | moveOfInt => rfl
  | _ => rfl

theorem decode_op (hfs : (fs == 0b00#2) = false) (hmode : o.mode frm = some mode) :
    decode (encodeFp (.op o)) fs frm =
      { opRow (unitOp o) with
        resultSel := 0b01#2
        aluOp := aluDecoder o.fields.opcode o.fields.funct3 o.fields.funct7 0b00#2 } := by
  have htrap : fpTrap (encodeFp (.op o)) fs frm = false := by rw [fpTrap_op, hfs, hmode]; rfl
  rw [decode_eq, htrap, row_encodeFp, opcodeOf_encodeFp, isFpOpcode_fields, funct3_encodeFp, funct7_encodeFp]
  have hrow : fieldsRow (FpInstr.op o).fields = opRow (unitOp o) := fieldsRow_op
  rw [hrow]
  rfl

end Rows

section Stages

variable {imem : Imem} {a : Arch} {i : FpInstr} {o : FpOp} {mode : Rounding.Mode} {c : Ctrl}

/-- The instruction goes on to the next one and writes no CSR but the flags. -/
structure Onward (c : Ctrl) : Prop where
  exception : c.exception = false
  mretExec : c.mretExec = false
  csrWrite : c.csrWrite = false
  amoEn : c.amoEn = false
  branch : c.branch = false
  jump : c.jump = false

theorem fpr_execOne (he : (exMemOf imem a).ctrl.exception = false) (hm : (exMemOf imem a).ctrl.mretExec = false) :
    (execOne imem a).fpr = fpWrite a.fpr (fpWb (memWbOf a (exMemOf imem a))) := by
  have hl : leavesMem (exMemOf imem a) = false := by rw [leavesMem, he, hm]; rfl
  simp only [execOne, retire, hl, Bool.false_eq_true, if_false]

/-- What is left to say of an instruction that goes on to the next one. -/
theorem fpHartOf_onward {w : BitVec 32} (hw : fetchWord imem a.pc = w)
    (hc : decode w a.csr.mstatusFs a.csr.frmReg = c) (hs : Onward c) :
    fpHartOf (execOne imem a) =
      ⟨{ pc := a.pc + 4#32, regs := intWrite a.regs (intWb (memWbOf a (exMemOf imem a)))
         mem := memOf (Dmem.dmemTick a.dmem (dmemInOf (exMemOf imem a))).mem, reserved := reservedOf a.dmem
         csr := if c.fpFflagsWe then FpCsrs.accrue a.csr (exMemOf imem a).fpFflags else a.csr },
        fpWrite a.fpr (fpWb (memWbOf a (exMemOf imem a)))⟩ := by
  have hctrl := ctrl_idExOf hw
  rw [hc] at hctrl
  have hmem : (exMemOf imem a).ctrl = c.toMemCtrl := congrArg ExCtrl.toMemCtrl hctrl
  have he : (exMemOf imem a).ctrl.exception = false := by rw [hmem, hs.exception]
  have hm : (exMemOf imem a).ctrl.mretExec = false := by rw [hmem, hs.mretExec]
  have hamo : (dmemInOf (exMemOf imem a)).amoEn = false := by
    change (exMemOf imem a).ctrl.amoEn = false
    rw [hmem, hs.amoEn]
  have hcsr : (execOne imem a).csr =
      if c.fpFflagsWe then FpCsrs.accrue a.csr (exMemOf imem a).fpFflags else a.csr := by
    change CsrFile.csrTick a.csr (csrInOf (exMemOf imem a)) = _
    simp only [CsrFile.csrTick, csrInOf, hmem, hs.exception, hs.mretExec, hs.csrWrite, Bool.false_eq_true, if_false]
    rfl
  have hreserved : reservedOf (execOne imem a).dmem = reservedOf a.dmem :=
    reservedOf_other (by rw [LrSc.isLr, hamo]; rfl) (by rw [LrSc.isSc, hamo]; rfl)
  have hsel : pcSelOf (idExOf imem a) (operandsOf (idExOf imem a)) = false := by
    rw [pcSelOf, hctrl, hs.branch, hs.jump]
    rfl
  have hpc : (execOne imem a).pc = a.pc + 4#32 :=
    nextPc_straight (by rw [hctrl, hs.exception]) (by rw [hctrl, hs.mretExec]) hsel
  rw [fpHartOf, hartOf, hcsr, hreserved, hpc, regs_execOne he hm, fpr_execOne he hm]
  rfl

/-- The unit gets the operands of the instruction. -/
theorem fpAluOf_op (hw : fetchWord imem a.pc = encodeFp (.op o)) (hoff : (a.csr.mstatusFs == 0b00#2) = false)
    (hmode : o.mode a.csr.frmReg = some mode) :
    fpAluOf (idExOf imem a) (operandsOf (idExOf imem a)) a.csr.frmReg =
      fpAlu (unitIn o (fpHartOf a) a.csr.frmReg) := by
  have h1 : rs1Of (fetchWord imem a.pc) = o.fields.rs1 := hw ▸ rs1Of_encodeFp (.op o)
  have h2 : rs2Of (fetchWord imem a.pc) = o.fields.rs2 := hw ▸ rs2Of_encodeFp (.op o)
  have h3 : rs3Of (fetchWord imem a.pc) = o.fields.funct7.extractLsb 6 2 := hw ▸ rs3Of_encodeFp (.op o)
  have hctrl := ctrl_idExOf hw
  rw [decode_op hoff hmode] at hctrl
  rw [fpAluOf, hctrl, unitIn, ← h1, ← h2, ← h3]
  rfl

theorem flags_of_quiet {σ : Type} {n : Nat} {m : FpMachine σ n} {frm : BitVec 3}
    (h : (unitOp o).fpFflagsWe = false) : (fpAlu (unitIn o m frm)).2 = 0#5 := by
  cases o with
  | sign op => cases op <;> rfl
  | classify => rfl
  | moveToInt => rfl
  | moveOfInt => rfl
  | _ => cases h

/-- How the stages are controlled for an operation. -/
structure OpCtrl (u : UnitOp) (c : Ctrl) : Prop where
  onward : Onward c
  regWrite : c.regWrite = u.fpToInt
  fpWe : c.fpWe = !u.fpToInt
  fpToInt : c.fpToInt = u.fpToInt
  fpFflagsWe : c.fpFflagsWe = u.fpFflagsWe
  fpMemRead : c.fpMemRead = false
  memWrite : c.memWrite = false
  fpMemWrite : c.fpMemWrite = false

theorem opCtrl_decode {fs : BitVec 2} {frm : BitVec 3} (hfs : (fs == 0b00#2) = false)
    (hmode : o.mode frm = some mode) : OpCtrl (unitOp o) (decode (encodeFp (.op o)) fs frm) := by
  rw [decode_op hfs hmode]
  exact ⟨⟨rfl, rfl, rfl, rfl, rfl, rfl⟩, rfl, rfl, rfl, rfl, rfl, rfl, rfl⟩

theorem fpWrite_of_we_false {fpr : FpRegs} {p : WritePort 64} (h : p.we = false) : fpWrite fpr p = fpr := by
  rw [fpWrite, h]
  rfl

theorem rdOf_memWbOf (hw : fetchWord imem a.pc = encodeFp i) :
    rdOf (memWbOf a (exMemOf imem a)).instruction = i.fields.rd := by
  have hfetch : rdOf (fetchWord imem a.pc) = i.fields.rd := hw ▸ rdOf_encodeFp i
  exact hfetch

/-- Operations that leave the flags alone raise none. -/
theorem accrue_op {σ : Type} {n : Nat} {m : FpMachine σ n} {frm : BitVec 3} {s : CsrFile.State} :
    (if (unitOp o).fpFflagsWe then FpCsrs.accrue s (fpAlu (unitIn o m frm)).2 else s) =
      FpCsrs.accrue s (fpAlu (unitIn o m frm)).2 := by
  cases hwe : (unitOp o).fpFflagsWe with
  | true => rfl
  | false =>
      rw [flags_of_quiet hwe]
      change s = { s with fflagsReg := s.fflagsReg ||| 0#5 }
      rw [BitVec.or_zero]

section Ports

variable {r : Result} (hw : fetchWord imem a.pc = encodeFp (.op o))
  (hc : decode (encodeFp (.op o)) a.csr.mstatusFs a.csr.frmReg = c) (hop : OpCtrl (unitOp o) c)
  (hr : fpAluOf (idExOf imem a) (operandsOf (idExOf imem a)) a.csr.frmReg = r)

include hw hc

theorem ctrl_memWbOf : (memWbOf a (exMemOf imem a)).ctrl = c.toWbCtrl := by
  have hctrl := ctrl_idExOf hw
  rw [hc] at hctrl
  have hmem : (exMemOf imem a).ctrl = c.toMemCtrl := congrArg ExCtrl.toMemCtrl hctrl
  exact congrArg MemCtrl.toWbCtrl hmem

include hop hr

theorem intWb_op (hto : (unitOp o).fpToInt = true) :
    intWb (memWbOf a (exMemOf imem a)) = ⟨true, o.fields.rd, r.1.extractLsb 31 0⟩ := by
  have hresult : (memWbOf a (exMemOf imem a)).fpAluResult = r.1 := congrArg Prod.fst hr
  have hwb := ctrl_memWbOf hw hc
  rw [intWb, rdOf_memWbOf hw, hwb, hop.regWrite, hto, wbDataOf, hwb, intResult, hop.fpToInt, hto, if_pos rfl, hresult]
  rfl

/-- The boxing on the way to the FP registers changes nothing. -/
theorem fpWb_op (hto : (unitOp o).fpToInt = false) :
    fpWb (memWbOf a (exMemOf imem a)) = ⟨true, o.fields.rd, r.1⟩ := by
  have hctrl : (idExOf imem a).ctrl = c.toExCtrl := by rw [ctrl_idExOf hw, hc]
  have hidex : (idExOf imem a).ctrl = (decode (idExOf imem a).instruction a.csr.mstatusFs a.csr.frmReg).toExCtrl := rfl
  have hwe : (idExOf imem a).ctrl.fpWe = true := by rw [hctrl, hop.fpWe, hto]; rfl
  have hbox : nanBoxed (isSinglePrecision (idExOf imem a).instruction (idExOf imem a).ctrl.fmt)
      (fpAluOf (idExOf imem a) (operandsOf (idExOf imem a)) a.csr.frmReg).1 = _ := nanBoxed_fpAluOf hidex hwe
  have hwb := ctrl_memWbOf hw hc
  have hdata : fpWbDataOf (memWbOf a (exMemOf imem a)) (memWbOf a (exMemOf imem a)).instruction
      (memWbOf a (exMemOf imem a)).ctrl.fmt = r.1 := by
    rw [fpWbDataOf, fpResult, hwb, hop.fpMemRead, if_neg Bool.false_ne_true, ← hwb, ← hr]
    exact hbox
  rw [fpWb, hdata, rdOf_memWbOf hw, hwb, hop.fpWe, hto]
  rfl

end Ports

/-- An operation writes the result of the unit to its destination. -/
theorem fpHartOf_op (hw : fetchWord imem a.pc = encodeFp (.op o)) (hoff : (a.csr.mstatusFs == 0b00#2) = false)
    (hmode : o.mode a.csr.frmReg = some mode) :
    fpHartOf (execOne imem a) = (fpHartOf a).finish o.dest (fpAlu (unitIn o (fpHartOf a) a.csr.frmReg)) := by
  obtain ⟨c, hc⟩ : ∃ c, decode (encodeFp (.op o)) a.csr.mstatusFs a.csr.frmReg = c := ⟨_, rfl⟩
  have hop : OpCtrl (unitOp o) c := hc ▸ opCtrl_decode hoff hmode
  have hmem : (exMemOf imem a).ctrl = c.toMemCtrl := by
    rw [← hc]
    exact congrArg ExCtrl.toMemCtrl (ctrl_idExOf hw)
  have halu := fpAluOf_op hw hoff hmode
  have hflags : (exMemOf imem a).fpFflags = (fpAlu (unitIn o (fpHartOf a) a.csr.frmReg)).2 := congrArg Prod.snd halu
  have hdmem : Dmem.dmemTick a.dmem (dmemInOf (exMemOf imem a)) = a.dmem :=
    dmemTick_quiet (by rw [hmem, hop.memWrite]) (by rw [hmem, hop.fpMemWrite]) (by rw [hmem, hop.onward.amoEn])
  have hwb := ctrl_memWbOf hw hc
  rw [fpHartOf_onward hw hc hop.onward, hdmem, hflags, hop.fpFflagsWe, accrue_op, dest_op]
  cases hto : (unitOp o).fpToInt with
  | true =>
      have hfp : (fpWb (memWbOf a (exMemOf imem a))).we = false := by rw [fpWb, hwb, hop.fpWe, hto]; rfl
      rw [intWb_op hw hc hop halu hto, fpWrite_of_we_false hfp, if_pos rfl]
      dsimp only [FpMachine.finish]
      rw [← setReg_intWrite]
      rfl
  | false =>
      have hint : (intWb (memWbOf a (exMemOf imem a))).we = false := by rw [intWb, hwb, hop.regWrite, hto]
      rw [intWrite_of_we_false hint, fpWb_op hw hc hop halu hto, if_neg Bool.false_ne_true]
      rfl

end Stages

section Memory

variable {imem : Imem} {a : Arch} {i : FpInstr} {fmt : Fmt} {rd rs1 rs2 : Reg} {offset : BitVec 12} {addr : BitVec 32}
  {n : Nat} {fs : BitVec 2} {frm : BitVec 3}

theorem fits_of_fpWithin (hin : FpWithin i (hartOf a)) (h : fpAccess i (hartOf a) = some (addr, n)) :
    DmemBytes.Fits addr n := by
  have hend := hin (addr, n) h
  rwa [← maskedAddr_setWidth] at hend

theorem storeBytes_width : Dmem.storeBytes fmt.width = fmt.bytes := by cases fmt <;> rfl

theorem loadFpData_width {r : BitVec 64} {f : Nat → BitVec 8} (h : DmemBytes.Loaded r fmt.width f) :
    loadFpData fmt.width r = loadFp fmt f := by
  cases fmt with
  | single =>
      have hlow : r.extractLsb 31 0 = Bytes.ofBytes f 4 := h.low.trans (BitVec.signExtend_eq _)
      exact congrArg (fun x => 0xFFFFFFFF#32 ++ x) hlow
  | double => exact h.double rfl

theorem decode_loadFp (hfs : (fs == 0b00#2) = false) : decode (encodeFp (.load fmt rd rs1 offset)) fs frm =
    { memRead := true, fpWe := true, fpMemRead := true, aluSrc := true, memSize := fmt.width, fmt := fmt.code
      resultSel := 0b01#2 } := by
  have htrap : fpTrap (encodeFp (.load fmt rd rs1 offset)) fs frm = false := by
    rw [fpTrap, opcodeOf_encodeFp, hfs]
    rfl
  rw [decode_eq, htrap, row_encodeFp, opcodeOf_encodeFp, funct3_encodeFp, funct7_encodeFp]
  cases fmt <;> rfl

/-- An FP store asks for its write also when it traps. -/
theorem decode_storeFp : decode (encodeFp (.store fmt rs1 rs2 offset)) fs frm =
    { memWrite := true, fpMemWrite := true, aluSrc := true, immSel := 0b001#3, memSize := fmt.width
      resultSel := 0b01#2, exception := fs == 0b00#2, exceptionCause := if fs == 0b00#2 then 2#4 else 0#4 } := by
  have htrap : fpTrap (encodeFp (.store fmt rs1 rs2 offset)) fs frm = (fs == 0b00#2) := by
    rw [fpTrap, opcodeOf_encodeFp]
    exact Bool.or_false _
  rw [decode_eq, htrap, row_encodeFp, opcodeOf_encodeFp, funct3_encodeFp, funct7_encodeFp]
  cases fmt <;> rfl

/-- Loads and stores add their offset to the base register. -/
theorem aluOf_access {c : Ctrl} {x : BitVec 32} (hw : fetchWord imem a.pc = encodeFp i)
    (hc : decode (encodeFp i) a.csr.mstatusFs a.csr.frmReg = c)
    (hs : c.aluSrc = true ∧ c.pcSrcAuipc = false ∧ c.aluOp = aluAdd) (himm : (idExOf imem a).immOut = x) :
    aluOf (idExOf imem a) (operandsOf (idExOf imem a)) = (hartOf a).reg i.fields.rs1 + x := by
  have hrs1 : rs1Of (fetchWord imem a.pc) = i.fields.rs1 := hw ▸ rs1Of_encodeFp i
  rw [aluOf, ctrl_idExOf hw, hc, hs.1, hs.2.1, hs.2.2, himm, ← hrs1]
  rfl

/-- The bytes that an FP load reads. -/
theorem loaded_loadFp (hw : fetchWord imem a.pc = encodeFp (.load fmt rd rs1 offset))
    (hoff : (a.csr.mstatusFs == 0b00#2) = false) (hin : FpWithin (.load fmt rd rs1 offset) (hartOf a)) :
    DmemBytes.Loaded (Dmem.readData a.dmem (dmemInOf (exMemOf imem a))) fmt.width
      ((hartOf a).bytesAt ((hartOf a).reg rs1 + offset.signExtend 32)) := by
  have hc : decode (encodeFp (.load fmt rd rs1 offset)) a.csr.mstatusFs a.csr.frmReg = _ := decode_loadFp hoff
  have hctrl := ctrl_idExOf hw
  rw [hc] at hctrl
  have hmem : (exMemOf imem a).ctrl = _ := congrArg ExCtrl.toMemCtrl hctrl
  have himm : (idExOf imem a).immOut = offset.signExtend 32 := by
    have hsel : (decode (encodeFp (.load fmt rd rs1 offset)) _ _).immSel = 0b000#3 := congrArg Ctrl.immSel hc
    rw [immOut_idExOf hw hsel, IsaRow.immGen_hiLo, encodeFp, ofWord_word, FpInstr.fields, Isa.join_split]
  have haddr : (dmemInOf (exMemOf imem a)).addr = (hartOf a).reg rs1 + offset.signExtend 32 :=
    aluOf_access hw hc ⟨rfl, rfl, rfl⟩ himm
  have hsize : (dmemInOf (exMemOf imem a)).memSize = fmt.width := congrArg (fun c => c.memSize) hmem
  have hread : (dmemInOf (exMemOf imem a)).memRead = true := by
    rw [dmemInOf, hmem]
    rfl
  have hamo : (dmemInOf (exMemOf imem a)).amoEn = false := congrArg (fun c => c.amoEn) hmem
  have hfits : DmemBytes.Fits (dmemInOf (exMemOf imem a)).addr
      (Dmem.storeBytes (dmemInOf (exMemOf imem a)).memSize) := by
    rw [haddr, hsize, storeBytes_width]
    exact fits_of_fpWithin hin rfl
  have hload : DmemBytes.isLoad (dmemInOf (exMemOf imem a)).memSize = true := by
    rw [hsize]
    cases fmt <;> rfl
  have hbytes : (hartOf a).bytesAt ((hartOf a).reg rs1 + offset.signExtend 32) =
      fun k => a.dmem.mem (DmemBytes.wrap ((hartOf a).reg rs1 + offset.signExtend 32) k) := funext bytesAt_hartOf
  have hloaded := DmemBytes.load_of_fits (d := a.dmem) hamo hread hload hfits
  rwa [haddr, ← hbytes, hsize] at hloaded

theorem fpHartOf_load (hw : fetchWord imem a.pc = encodeFp (.load fmt rd rs1 offset))
    (hoff : (a.csr.mstatusFs == 0b00#2) = false) (hin : FpWithin (.load fmt rd rs1 offset) (hartOf a)) :
    fpHartOf (execOne imem a) = ⟨(hartOf a).next, Function.update a.fpr rd
      (loadFp fmt ((hartOf a).bytesAt ((hartOf a).reg rs1 + offset.signExtend 32)))⟩ := by
  have hc : decode (encodeFp (.load fmt rd rs1 offset)) a.csr.mstatusFs a.csr.frmReg = _ := decode_loadFp hoff
  have hctrl := ctrl_idExOf hw
  rw [hc] at hctrl
  have hmem : (exMemOf imem a).ctrl = _ := congrArg ExCtrl.toMemCtrl hctrl
  have hwb : (memWbOf a (exMemOf imem a)).ctrl = _ := congrArg MemCtrl.toWbCtrl hmem
  have hdmem : Dmem.dmemTick a.dmem (dmemInOf (exMemOf imem a)) = a.dmem :=
    dmemTick_quiet (by rw [hmem]) (by rw [hmem]) (by rw [hmem])
  have hint : (intWb (memWbOf a (exMemOf imem a))).we = false := by rw [intWb, hwb]
  have hfp : fpWb (memWbOf a (exMemOf imem a)) =
      ⟨true, rd, loadFp fmt ((hartOf a).bytesAt ((hartOf a).reg rs1 + offset.signExtend 32))⟩ := by
    rw [← loadFpData_width (loaded_loadFp hw hoff hin), fpWb, rdOf_memWbOf hw, fpWbDataOf, fpResult, hwb]
    rfl
  rw [fpHartOf_onward hw hc ⟨rfl, rfl, rfl, rfl, rfl, rfl⟩, hdmem, intWrite_of_we_false hint, hfp]
  rfl

theorem dmem_storeFp (hw : fetchWord imem a.pc = encodeFp (.store fmt rs1 rs2 offset))
    (hin : FpWithin (.store fmt rs1 rs2 offset) (hartOf a)) :
    memOf (execOne imem a).dmem.mem =
        (storeFp (hartOf a) ((hartOf a).reg rs1 + offset.signExtend 32) fmt.bytes (a.fpr rs2)).mem ∧
      reservedOf (execOne imem a).dmem = reservedOf a.dmem := by
  have hc : decode (encodeFp (.store fmt rs1 rs2 offset)) a.csr.mstatusFs a.csr.frmReg = _ := decode_storeFp
  have hctrl := ctrl_idExOf hw
  rw [hc] at hctrl
  have hmem : (exMemOf imem a).ctrl = _ := congrArg ExCtrl.toMemCtrl hctrl
  have himm : (idExOf imem a).immOut = offset.signExtend 32 := by
    have hsel : (decode (encodeFp (.store fmt rs1 rs2 offset)) _ _).immSel = 0b001#3 := congrArg Ctrl.immSel hc
    rw [immOut_idExOf hw hsel, IsaRow.immGen_store, encodeFp, ofWord_word, FpInstr.fields, Isa.join_split]
  have haddr : (dmemInOf (exMemOf imem a)).addr = (hartOf a).reg rs1 + offset.signExtend 32 :=
    aluOf_access hw hc ⟨rfl, rfl, rfl⟩ himm
  have hsize : (dmemInOf (exMemOf imem a)).memSize = fmt.width := congrArg (fun c => c.memSize) hmem
  have hwrite : (dmemInOf (exMemOf imem a)).memWrite = true := by
    rw [dmemInOf, hmem]
    rfl
  have hamo : (dmemInOf (exMemOf imem a)).amoEn = false := congrArg (fun c => c.amoEn) hmem
  have hdata : (dmemInOf (exMemOf imem a)).writeData = a.fpr rs2 := by
    have hrs2 : rs2Of (fetchWord imem a.pc) = rs2 := hw ▸ rs2Of_encodeFp (.store fmt rs1 rs2 offset)
    rw [← hrs2, dmemInOf, hmem]
    rfl
  have hfits : DmemBytes.Fits ((hartOf a).reg rs1 + offset.signExtend 32) fmt.bytes := fits_of_fpWithin hin rfl
  have hbytes := memOf_writeBytes (m := a.dmem.mem) (v := a.fpr rs2) hfits fun _ _ => rfl
  have hdmem : (execOne imem a).dmem = Dmem.dmemTick a.dmem (dmemInOf (exMemOf imem a)) := rfl
  constructor
  · rw [hdmem, DmemBytes.mem_store hamo hwrite, haddr, hsize, hdata, storeBytes_width, hbytes]
    rfl
  · exact reservedOf_other (by rw [LrSc.isLr, hamo]; rfl) (by rw [LrSc.isSc, hamo]; rfl)

theorem fpHartOf_store (hw : fetchWord imem a.pc = encodeFp (.store fmt rs1 rs2 offset))
    (hoff : (a.csr.mstatusFs == 0b00#2) = false) (hin : FpWithin (.store fmt rs1 rs2 offset) (hartOf a)) :
    fpHartOf (execOne imem a) =
      ⟨(storeFp (hartOf a) ((hartOf a).reg rs1 + offset.signExtend 32) fmt.bytes (a.fpr rs2)).next, a.fpr⟩ := by
  have hc : decode (encodeFp (.store fmt rs1 rs2 offset)) a.csr.mstatusFs a.csr.frmReg = _ := decode_storeFp
  have hctrl := ctrl_idExOf hw
  rw [hc] at hctrl
  have hex : (exMemOf imem a).ctrl = _ := congrArg ExCtrl.toMemCtrl hctrl
  have hwb : (memWbOf a (exMemOf imem a)).ctrl = _ := congrArg MemCtrl.toWbCtrl hex
  have hmem : memOf (Dmem.dmemTick a.dmem (dmemInOf (exMemOf imem a))).mem = _ := (dmem_storeFp hw hin).1
  have hint : (intWb (memWbOf a (exMemOf imem a))).we = false := by rw [intWb, hwb]
  have hfp : (fpWb (memWbOf a (exMemOf imem a))).we = false := by rw [fpWb, hwb]
  rw [fpHartOf_onward hw hc ⟨hoff, rfl, rfl, rfl, rfl, rfl⟩, intWrite_of_we_false hint, fpWrite_of_we_false hfp, hmem]
  rfl

/-- A store that traps because the unit is off is carried out all the same. -/
theorem fpHartOf_storeOff (hw : fetchWord imem a.pc = encodeFp (.store fmt rs1 rs2 offset))
    (hoff : (a.csr.mstatusFs == 0b00#2) = true) (hin : FpWithin (.store fmt rs1 rs2 offset) (hartOf a)) :
    fpHartOf (execOne imem a) =
      { (fpHartOf a).trap 2#32 (encodeFp (.store fmt rs1 rs2 offset)) with
        mem := (storeFp (hartOf a) ((hartOf a).reg rs1 + offset.signExtend 32) fmt.bytes (a.fpr rs2)).mem } := by
  have hc : decode (encodeFp (.store fmt rs1 rs2 offset)) a.csr.mstatusFs a.csr.frmReg = _ := decode_storeFp
  have hcause : (decode (encodeFp (.store fmt rs1 rs2 offset)) a.csr.mstatusFs a.csr.frmReg).exceptionCause = 2#4 := by
    rw [hc, hoff]
    rfl
  obtain ⟨hmem, hreserved⟩ := dmem_storeFp hw hin
  rw [execOne_trap hw ((congrArg (fun c : Ctrl => c.exception) hc).trans hoff) hcause, fpHartOf, hartOf, hmem, hreserved]
  rfl

end Memory

section Steps

variable {imem : Imem} {a : Arch} {i : FpInstr} {fs : BitVec 2} {frm : BitVec 3}

theorem fpHartOf_trap {w : BitVec 32} {cause : BitVec 4} (hw : fetchWord imem a.pc = w)
    (ht : Traps cause (decode w a.csr.mstatusFs a.csr.frmReg)) :
    fpHartOf (execOne imem a) = (fpHartOf a).trap (0#28 ++ cause) w := by
  have hfpr : (execOne imem a).fpr = a.fpr := by rw [execOne_trap hw ht.exception ht.exceptionCause]
  rw [fpHartOf, hartOf_trap hw ht, hfpr]
  rfl

theorem traps_of_fpTrap (h : fpTrap (encodeFp i) fs frm = true) (hw : (fieldsRow i.fields).memWrite = false)
    (hf : (fieldsRow i.fields).fpMemWrite = false) (ha : (fieldsRow i.fields).amoEn = false) :
    Traps 2#4 (decode (encodeFp i) fs frm) := by
  rw [decode_eq, h, row_encodeFp]
  exact ⟨Bool.or_true _, rfl, hw, hf, ha⟩

theorem traps_op {o : FpOp} (h : fpTrap (encodeFp (.op o)) fs frm = true) :
    Traps 2#4 (decode (encodeFp (.op o)) fs frm) := by
  have hrow : fieldsRow (FpInstr.op o).fields = opRow (unitOp o) := fieldsRow_op
  exact traps_of_fpTrap h (by rw [hrow]; rfl) (by rw [hrow]; rfl) (by rw [hrow]; rfl)

theorem traps_loadFp {fmt : Fmt} {rd rs1 : Reg} {offset : BitVec 12} (hfs : (fs == 0b00#2) = true) :
    Traps 2#4 (decode (encodeFp (.load fmt rd rs1 offset)) fs frm) := by
  have htrap : fpTrap (encodeFp (.load fmt rd rs1 offset)) fs frm = true := by
    rw [fpTrap, opcodeOf_encodeFp, hfs]
    rfl
  cases fmt with
  | single => exact traps_of_fpTrap htrap rfl rfl rfl
  | double => exact traps_of_fpTrap htrap rfl rfl rfl

/-- Where the core breaks the instruction set: an FP store that traps changes
memory, or an invalid operation does not set the flag. -/
def Spared (i : FpInstr) (m : FpMachine CsrFile.State 19) : Prop :=
  match i with
  | .load .. => False
  | .store fmt rs1 rs2 offset =>
      FpCsrs.off m.csr = true ∧
        (storeFp m.toMachine (m.reg rs1 + offset.signExtend 32) fmt.bytes (m.fregs rs2)).mem ≠ m.mem
  | .op o =>
      FpCsrs.off m.csr = false ∧ (o.mode (FpCsrs.rounding m.csr)).isSome = true ∧ Unreported o m ∧
        m.csr.fflagsReg.getLsbD 4 = false

theorem accrue_invalid (flags : BitVec 5) :
    flags ||| raised true false false false false = flags ||| 0#5 ↔ flags.getLsbD 4 = true := by
  revert flags
  decide

/-- A flag that is set already is not missed. -/
theorem finish_invalid (m : FpMachine CsrFile.State 19) (d : Dest) (x : BitVec 64) :
    m.finish d (x, 0#5) = m.finish d (x, raised true false false false false) ↔ m.csr.fflagsReg.getLsbD 4 = true := by
  rw [← accrue_invalid]
  constructor
  · intro h
    cases d with
    | int rd => exact (congrArg (fun m' => m'.csr.fflagsReg) h).symm
    | float rd => exact (congrArg (fun m' => m'.csr.fflagsReg) h).symm
  · intro h
    have hcsr : FpCsrs.accrue m.csr 0#5 = FpCsrs.accrue m.csr (raised true false false false false) :=
      congrArg (fun flags => { m.csr with fflagsReg := flags }) h.symm
    cases d with
    | int rd => simp only [FpMachine.finish, hcsr]
    | float rd => simp only [FpMachine.finish, hcsr]

theorem allows_op {o : FpOp} (hw : fetchWord imem a.pc = encodeFp (.op o)) :
    (FpInstr.op o).Allows (fpHartOf a) (fpHartOf (execOne imem a)) ↔ ¬ Spared (.op o) (fpHartOf a) := by
  unfold FpInstr.Allows Spared
  have hunit : FpCsrs.off (fpHartOf a).csr = (a.csr.mstatusFs == 0b00#2) := rfl
  have hrounding : FpCsrs.rounding (fpHartOf a).csr = a.csr.frmReg := rfl
  dsimp only
  rw [hunit, hrounding]
  cases hoff : (a.csr.mstatusFs == 0b00#2) with
  | true =>
      have htrap : fpTrap (encodeFp (.op o)) a.csr.mstatusFs a.csr.frmReg = true := by rw [fpTrap_op, hoff]; rfl
      exact iff_of_true (fpHartOf_trap hw (traps_op htrap)) fun h => Bool.false_ne_true h.1.symm
  | false =>
      rw [if_neg Bool.false_ne_true]
      cases hmode : o.mode a.csr.frmReg with
      | none =>
          have htrap : fpTrap (encodeFp (.op o)) a.csr.mstatusFs a.csr.frmReg = true := by
            rw [fpTrap_op, hmode]
            exact Bool.or_true _
          exact iff_of_true (fpHartOf_trap hw (traps_op htrap)) fun h => Bool.false_ne_true h.2.1
      | some mode =>
          dsimp only
          rw [fpHartOf_op hw hoff hmode]
          by_cases hu : Unreported o (fpHartOf a)
          · obtain ⟨x, hx⟩ : ∃ x, fpAlu (unitIn o (fpHartOf a) a.csr.frmReg) = (x, 0#5) :=
              ⟨_, Prod.ext rfl (unit_unreported_flags (fpHartOf a) a.csr.frmReg hu)⟩
            have hcomputes (r : Result) := unit_unreported (fpHartOf a) a.csr.frmReg mode hu r
            rw [hx] at hcomputes ⊢
            constructor
            · rintro ⟨r, hr, heq⟩ ⟨-, -, -, hbit⟩
              rw [(hcomputes r).mp hr] at heq
              exact Bool.false_ne_true (hbit.symm.trans ((finish_invalid _ _ _).mp heq))
            · intro h
              refine ⟨_, (hcomputes _).mpr rfl, (finish_invalid _ _ _).mpr ?_⟩
              by_contra hbit
              exact h ⟨rfl, rfl, hu, Bool.eq_false_iff.mpr hbit⟩
          · exact iff_of_true ⟨_, unit_computes _ _ hmode hu, rfl⟩ fun h => hu h.2.2.1

theorem allows_store {fmt : Fmt} {rs1 rs2 : Reg} {offset : BitVec 12}
    (hw : fetchWord imem a.pc = encodeFp (.store fmt rs1 rs2 offset))
    (hin : FpWithin (.store fmt rs1 rs2 offset) (hartOf a)) :
    (FpInstr.store fmt rs1 rs2 offset).Allows (fpHartOf a) (fpHartOf (execOne imem a)) ↔
      ¬ Spared (.store fmt rs1 rs2 offset) (fpHartOf a) := by
  unfold FpInstr.Allows Spared
  have hunit : FpCsrs.off (fpHartOf a).csr = (a.csr.mstatusFs == 0b00#2) := rfl
  dsimp only
  rw [hunit]
  cases hoff : (a.csr.mstatusFs == 0b00#2) with
  | true =>
      rw [if_pos rfl, fpHartOf_storeOff hw hoff hin]
      constructor
      · rintro h ⟨-, hne⟩
        exact hne (congrArg (fun m' => m'.mem) h)
      · intro h
        have hsame := not_not.mp fun hne => h ⟨rfl, hne⟩
        exact congrArg (fun mem => { (fpHartOf a).trap 2#32 (encodeFp (.store fmt rs1 rs2 offset)) with mem }) hsame
  | false => exact iff_of_true (fpHartOf_store hw hoff hin) fun h => Bool.false_ne_true h.1

theorem allows_load {fmt : Fmt} {rd rs1 : Reg} {offset : BitVec 12}
    (hw : fetchWord imem a.pc = encodeFp (.load fmt rd rs1 offset))
    (hin : FpWithin (.load fmt rd rs1 offset) (hartOf a)) :
    (FpInstr.load fmt rd rs1 offset).Allows (fpHartOf a) (fpHartOf (execOne imem a)) := by
  unfold FpInstr.Allows
  have hunit : FpCsrs.off (fpHartOf a).csr = (a.csr.mstatusFs == 0b00#2) := rfl
  rw [hunit]
  cases hoff : (a.csr.mstatusFs == 0b00#2) with
  | true => exact fpHartOf_trap hw (traps_loadFp hoff)
  | false => exact fpHartOf_load hw hoff hin

/-- Only FP instructions write FP registers. -/
theorem decodeOpcode_fpWe (opcode : BitVec 7) (funct3 : BitVec 3) (funct7 : BitVec 7) (rs1 rs2 : BitVec 5)
    (hop : isFpOpcode opcode = false) : (decodeOpcode opcode funct3 funct7 rs1 rs2).fpWe = false := by
  unfold decodeOpcode decodeAmo decodeSystem decodeLoadFp decodeStoreFp decodeFma decodeFp illegal
  repeat' refine ite_row (P := fun c => c.fpWe = false) (fun _ => ?_) (fun _ => ?_)
  all_goals
    first
    | rfl
    | subst_vars; exact absurd hop (by decide)

theorem isFpOpcode_int (i : Isa.Instr) : isFpOpcode i.fields.opcode = false := by cases i <;> rfl

theorem fpHartOf_int {m : Machine CsrFile.State 19} (hs : step (fetchWord imem) openWord (hartOf a) = some m) :
    fpHartOf (execOne imem a) = ⟨m, a.fpr⟩ := by
  have hop : isFpOpcode (opcodeOf (fetchWord imem a.pc)) = false := by
    rcases step_cases hs with ⟨j, hj, -⟩ | ⟨-, ho, -⟩
    · have hopcode : opcodeOf (fetchWord imem a.pc) = j.fields.opcode := hj ▸ IsaRow.opcodeOf_encode j
      rw [hopcode]
      exact isFpOpcode_int j
    · simp only [openWord, openFields, Bool.or_eq_false_iff] at ho
      exact ho.1.1.1.1
  have hwe : (fpWb (memWbOf a (exMemOf imem a))).we = false := by
    change (decode (fetchWord imem a.pc) a.csr.mstatusFs a.csr.frmReg).fpWe = false
    rw [decode_eq]
    exact decodeOpcode_fpWe _ _ _ _ _ hop
  have hfpr : (execOne imem a).fpr = a.fpr := by
    change (if leavesMem (exMemOf imem a) then a.fpr else _) = _
    rw [fpWrite_of_we_false hwe, ite_self]
  rw [fpHartOf, hartOf_step hs, hfpr]

/-- Every step of the core is one that the instruction set allows. -/
theorem allowed_execOne (imem : Imem) (a : Arch) :
    Allowed (fetchWord imem) openWord Spared (fpHartOf a) (fpHartOf (execOne imem a)) := by
  refine ⟨fun x hs => fpHartOf_int hs, fun i hi hin hspare => ?_⟩
  cases i with
  | load => exact allows_load hi.symm hin
  | store => exact (allows_store hi.symm hin).mpr hspare
  | op => exact (allows_op hi.symm).mpr hspare

/-- `fsw f2, 16(x0)`, met while the unit is off. -/
def storeOff : FpInstr := .store .single 0#5 2#5 16#12

def storeOffArch : Arch := { archReset zeroPowerUp with fpr := fun _ => 1#64 }

end Steps

end VMate.IsaFpStep
