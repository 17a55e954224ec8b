import VMate.DmemAmo
import VMate.InOrderRun
import VMate.IsaTrap

namespace VMate.IsaStep

open Decode Alu Pipe RegFile RiscvTop SeqExec Rv32i IsaRow IsaTrap
open Isa (Instr Fields encode ofWord_word)
open IsaExec

instance : Csrs CsrFile.State where
  read := CsrFile.csrRdata
  write := CsrFile.csrUpdate
  enter c pc cause value :=
    { c with mepcReg := pc, mcauseReg := cause, mtvalReg := value, mstatusMpie := c.mstatusMie, mstatusMie := false }
  vector c := c.mtvecReg
  leave c := { c with mstatusMie := c.mstatusMpie }
  resume c := c.mepcReg

def memOf (m : Nat → BitVec 8) (k : BitVec 19) : BitVec 8 := m k.toNat

def reservedOf (d : Dmem.State) : Option (BitVec 32) := if d.reservationValid then some d.reservationAddr else none

/-- The hart that an architectural state stands for. -/
def hartOf (a : Arch) : Machine CsrFile.State 19 where
  pc := a.pc
  regs := a.regs
  mem := memOf a.dmem.mem
  reserved := reservedOf a.dmem
  csr := a.csr

def fetchWord (imem : Imem) (pc : BitVec 32) : BitVec 32 := imem (pc.extractLsb 18 2)

section Quiet

variable {imem : Imem} {a : Arch}

/-- The instruction does nothing in MEM. -/
structure Quiet (c : MemCtrl) : Prop where
  exception : c.exception = false
  mretExec : c.mretExec = false
  memWrite : c.memWrite = false
  fpMemWrite : c.fpMemWrite = false
  amoEn : c.amoEn = false
  csrWrite : c.csrWrite = false
  fpFflagsWe : c.fpFflagsWe = false

theorem csrTick_quiet {r : ExMem} (he : r.ctrl.exception = false) (hm : r.ctrl.mretExec = false)
    (hw : r.ctrl.csrWrite = false) (hf : r.ctrl.fpFflagsWe = false) : CsrFile.csrTick a.csr (csrInOf r) = a.csr := by
  simp [CsrFile.csrTick, csrInOf, he, hm, hw, hf]

theorem dmemTick_quiet {r : ExMem} (hw : r.ctrl.memWrite = false) (hf : r.ctrl.fpMemWrite = false)
    (ha : r.ctrl.amoEn = false) : Dmem.dmemTick a.dmem (dmemInOf r) = a.dmem := by
  simp [Dmem.dmemTick, Dmem.executeWrite, dmemInOf, hw, hf, ha]

/-- The registers after an instruction that completes. -/
theorem regs_execOne (he : (exMemOf imem a).ctrl.exception = false) (hm : (exMemOf imem a).ctrl.mretExec = false) :
    (execOne imem a).regs = intWrite a.regs (intWb (memWbOf a (exMemOf imem a))) := by
  have hl : leavesMem (exMemOf imem a) = false := by rw [leavesMem, he, hm]; rfl
  simp only [execOne, retire, hl, Bool.false_eq_true, if_false]

theorem hartOf_quiet (hq : Quiet (exMemOf imem a).ctrl) : hartOf (execOne imem a) =
    { hartOf a with pc := nextPc imem a, regs := intWrite a.regs (intWb (memWbOf a (exMemOf imem a))) } := by
  rw [← regs_execOne hq.exception hq.mretExec]
  have hcsr : (execOne imem a).csr = a.csr := csrTick_quiet hq.exception hq.mretExec hq.csrWrite hq.fpFflagsWe
  have hdmem : (execOne imem a).dmem = a.dmem := dmemTick_quiet hq.memWrite hq.fpMemWrite hq.amoEn
  simp only [hartOf, hcsr, hdmem]
  rfl

theorem setReg_intWrite (m : Machine CsrFile.State 19) (r : BitVec 5) (v : BitVec 32) :
    { m with regs := intWrite m.regs ⟨true, r, v⟩ } = m.setReg r v := by
  rw [Machine.setReg, intWrite]
  by_cases h0 : r = 0#5
  · simp [h0]
  · simp [h0]

/-- An instruction that writes `v` to its destination and nothing else. -/
theorem hartOf_written {v : BitVec 32} (hq : Quiet (exMemOf imem a).ctrl) (hwe : (exMemOf imem a).ctrl.regWrite = true)
    (hv : wbDataOf (memWbOf a (exMemOf imem a)) = v) :
    hartOf (execOne imem a) = ((hartOf a).setReg (rdOf (fetchWord imem a.pc)) v).jump (nextPc imem a) := by
  have hport : intWb (memWbOf a (exMemOf imem a)) = ⟨true, rdOf (fetchWord imem a.pc), v⟩ := by
    rw [intWb, hv]
    exact congrArg (fun b => (⟨b, _, _⟩ : WritePort 32)) hwe
  rw [hartOf_quiet hq, hport, ← setReg_intWrite]
  rfl

theorem hartOf_unwritten (hq : Quiet (exMemOf imem a).ctrl) (hwe : (exMemOf imem a).ctrl.regWrite = false) :
    hartOf (execOne imem a) = (hartOf a).jump (nextPc imem a) := by
  have hport : (intWb (memWbOf a (exMemOf imem a))).we = false := hwe
  rw [hartOf_quiet hq, intWrite_of_we_false hport]
  rfl

end Quiet

section Stages

variable {imem : Imem} {a : Arch} {i : Instr} {c : Ctrl}

theorem ctrl_idExOf {w : BitVec 32} (hw : fetchWord imem a.pc = w) :
    (idExOf imem a).ctrl = (decode w a.csr.mstatusFs a.csr.frmReg).toExCtrl := by
  rw [← hw]
  rfl

theorem immOut_idExOf {w : BitVec 32} (hw : fetchWord imem a.pc = w) {sel : BitVec 3}
    (hsel : (decode w a.csr.mstatusFs a.csr.frmReg).immSel = sel) : (idExOf imem a).immOut = immGen w sel := by
  rw [← hsel, ← hw]
  rfl

theorem immOut_upper (hw : fetchWord imem a.pc = encode i)
    (hsel : (decode (encode i) a.csr.mstatusFs a.csr.frmReg).immSel = 0b011#3) :
    (idExOf imem a).immOut = Isa.upperImm i.fields ++ 0#12 := by
  rw [immOut_idExOf hw hsel, immGen_upper, encode, ofWord_word]

theorem immOut_hiLo (hw : fetchWord imem a.pc = encode i)
    (hsel : (decode (encode i) a.csr.mstatusFs a.csr.frmReg).immSel = 0b000#3) :
    (idExOf imem a).immOut = (i.fields.funct7 ++ i.fields.rs2).signExtend 32 := by
  rw [immOut_idExOf hw hsel, immGen_hiLo, encode, ofWord_word]

theorem immOut_store (hw : fetchWord imem a.pc = encode i)
    (hsel : (decode (encode i) a.csr.mstatusFs a.csr.frmReg).immSel = 0b001#3) :
    (idExOf imem a).immOut = (i.fields.funct7 ++ i.fields.rd).signExtend 32 := by
  rw [immOut_idExOf hw hsel, immGen_store, encode, ofWord_word]

theorem immOut_branch (hw : fetchWord imem a.pc = encode i)
    (hsel : (decode (encode i) a.csr.mstatusFs a.csr.frmReg).immSel = 0b010#3) :
    (idExOf imem a).immOut = (Isa.branchOffset i.fields.funct7 i.fields.rd ++ 0#1).signExtend 32 := by
  rw [immOut_idExOf hw hsel, immGen_branch, encode, ofWord_word]

theorem immOut_jump (hw : fetchWord imem a.pc = encode i)
    (hsel : (decode (encode i) a.csr.mstatusFs a.csr.frmReg).immSel = 0b100#3) :
    (idExOf imem a).immOut = (Isa.jumpOffset i.fields ++ 0#1).signExtend 32 := by
  rw [immOut_idExOf hw hsel, immGen_jump, encode, ofWord_word]

theorem rs1_operandsOf (hw : fetchWord imem a.pc = encode i) :
    (operandsOf (idExOf imem a)).rs1 = (hartOf a).reg i.fields.rs1 := by
  rw [← rs1Of_encode, ← hw]
  rfl

theorem rs2_operandsOf (hw : fetchWord imem a.pc = encode i) :
    (operandsOf (idExOf imem a)).rs2 = (hartOf a).reg i.fields.rs2 := by
  rw [← rs2Of_encode, ← hw]
  rfl

theorem nextPc_straight (he : (idExOf imem a).ctrl.exception = false) (hm : (idExOf imem a).ctrl.mretExec = false)
    (hsel : pcSelOf (idExOf imem a) (operandsOf (idExOf imem a)) = false) : nextPc imem a = a.pc + 4#32 := by
  simp only [nextPc, he, hm, hsel, Bool.false_eq_true, if_false]

theorem nextPc_redirect (he : (idExOf imem a).ctrl.exception = false) (hm : (idExOf imem a).ctrl.mretExec = false)
    (hsel : pcSelOf (idExOf imem a) (operandsOf (idExOf imem a)) = true) :
    nextPc imem a = pcTargetOf (idExOf imem a) (operandsOf (idExOf imem a)) := by
  simp only [nextPc, he, hm, hsel, Bool.false_eq_true, if_false, if_true]

/-- An instruction that computes a value for its destination and goes on. -/
theorem hartOf_value {v : BitVec 32} (hw : fetchWord imem a.pc = encode i)
    (hc : decode (encode i) a.csr.mstatusFs a.csr.frmReg = c) (hq : Quiet c.toMemCtrl)
    (hwe : c.regWrite = true ∧ c.fpToInt = false ∧ c.resultSel = 0b00#2)
    (hstay : c.branch = false ∧ c.jump = false) (hv : aluOf (idExOf imem a) (operandsOf (idExOf imem a)) = v) :
    hartOf (execOne imem a) = ((hartOf a).setReg i.fields.rd v).next := by
  have hctrl := ctrl_idExOf hw
  rw [hc] at hctrl
  have hmem : (exMemOf imem a).ctrl = c.toMemCtrl := congrArg ExCtrl.toMemCtrl hctrl
  have hwb : (memWbOf a (exMemOf imem a)).ctrl = c.toWbCtrl := congrArg MemCtrl.toWbCtrl hmem
  have hsel : pcSelOf (idExOf imem a) (operandsOf (idExOf imem a)) = false := by
    rw [pcSelOf, hctrl, hstay.1, hstay.2]
    rfl
  have hdata : wbDataOf (memWbOf a (exMemOf imem a)) = v := by
    rw [wbDataOf, hwb, intResult, hwe.2.1, hwe.2.2]
    exact hv
  rw [hartOf_written (hmem ▸ hq) (by rw [hmem]; exact hwe.1) hdata, hw, rdOf_encode,
    nextPc_straight (by rw [hctrl]; exact hq.exception) (by rw [hctrl]; exact hq.mretExec) hsel]
  rfl

theorem idExOf_instruction (hw : fetchWord imem a.pc = encode i) : (idExOf imem a).instruction = encode i := hw

/-- A jump leaves its link address behind. -/
theorem hartOf_jump {target : BitVec 32} (hw : fetchWord imem a.pc = encode i)
    (hc : decode (encode i) a.csr.mstatusFs a.csr.frmReg = c) (hq : Quiet c.toMemCtrl)
    (hwe : c.regWrite = true ∧ c.fpToInt = false ∧ c.resultSel = 0b10#2) (hjump : c.jump = true)
    (ht : pcTargetOf (idExOf imem a) (operandsOf (idExOf imem a)) = target) :
    hartOf (execOne imem a) = ((hartOf a).setReg i.fields.rd (a.pc + 4#32)).jump target := by
  have hctrl := ctrl_idExOf hw
  rw [hc] at hctrl
  have hmem : (exMemOf imem a).ctrl = c.toMemCtrl := congrArg ExCtrl.toMemCtrl hctrl
  have hwb : (memWbOf a (exMemOf imem a)).ctrl = c.toWbCtrl := congrArg MemCtrl.toWbCtrl hmem
  have hsel : pcSelOf (idExOf imem a) (operandsOf (idExOf imem a)) = true := by
    rw [pcSelOf, hctrl, hjump]
    exact Bool.or_true _
  have hdata : wbDataOf (memWbOf a (exMemOf imem a)) = a.pc + 4#32 := by
    rw [wbDataOf, hwb, intResult, hwe.2.1, hwe.2.2]
    rfl
  rw [hartOf_written (hmem ▸ hq) (by rw [hmem]; exact hwe.1) hdata, hw, rdOf_encode,
    nextPc_redirect (by rw [hctrl]; exact hq.exception) (by rw [hctrl]; exact hq.mretExec) hsel, ht]

end Stages

section Arithmetic

variable (x y : BitVec 32)

theorem alu_immApply (op : Isa.ImmOp) :
    alu x y (arithAluOp false (Isa.immTable.key op) 0b0000000#7) = immApply op x y := by
  cases op <;> rfl

theorem alu_shiftApply (op : Isa.ShiftOp) :
    alu x y (aluDecoder opIType (Isa.shiftTable.key op).2 (Isa.shiftTable.key op).1 0b11#2) =
      shiftApply op x (y.extractLsb 4 0) := by
  cases op with
  | slli => rfl
  | srli =>
      have h : aluDecoder opIType (Isa.shiftTable.key .srli).2 (Isa.shiftTable.key .srli).1 0b11#2 = aluSrl := by decide
      rw [h]
      rfl
  | srai =>
      have h : aluDecoder opIType (Isa.shiftTable.key .srai).2 (Isa.shiftTable.key .srai).1 0b11#2 = aluSra := by decide
      rw [h]
      rfl

/-- The operation of the ALU behind a register instruction. -/
def regAluOp : Isa.RegOp → BitVec 5
  | .add => aluAdd
  | .sub => aluSub
  | .sll => aluSll
  | .slt => aluSlt
  | .sltu => aluSltu
  | .xor => aluXor
  | .srl => aluSrl
  | .sra => aluSra
  | .or => aluOr
  | .and => aluAnd
  | .mul => aluMul
  | .mulh => aluMulh
  | .mulhsu => aluMulhsu
  | .mulhu => aluMulhu
  | .div => aluDiv
  | .divu => aluDivu
  | .rem => aluRem
  | .remu => aluRemu

theorem aluDecoder_reg (op : Isa.RegOp) :
    aluDecoder opRType (Isa.regTable.key op).2 (Isa.regTable.key op).1 0b10#2 = regAluOp op := by
  cases op <;> decide

theorem setWidth_zext : (0#32 ++ y : BitVec 64) = y.setWidth 64 := by
  apply BitVec.eq_of_toNat_eq
  rw [BitNat.toNat_zero_append, BitVec.toNat_setWidth, Nat.mod_eq_of_lt (by omega)]

theorem signExtend_zext : (0#1 ++ y).signExtend 64 = y.setWidth 64 := by
  apply BitVec.eq_of_getLsbD_eq
  intro n hn
  have hmsb : (0#1 ++ y).msb = false := by
    rw [BitVec.msb_append]
    rfl
  rw [BitVec.getLsbD_signExtend, hmsb, BitVec.getLsbD_append, BitVec.getLsbD_setWidth]
  grind

theorem low_signExtend (hi : BitVec 7) (lo : BitVec 5) : ((hi ++ lo).signExtend 32).extractLsb 4 0 = lo := by
  apply BitVec.eq_of_getLsbD_eq
  intro n hn
  rw [BitVec.getLsbD_extractLsb, BitVec.getLsbD_signExtend, BitVec.getLsbD_append]
  grind

theorem alu_regApply (op : Isa.RegOp) : alu x y (regAluOp op) = regApply op x y := by
  cases op with
  | mulhsu =>
      change (mulhsuProd x y).extractLsb 63 32 = _
      rw [mulhsuProd, signExtend_zext]
      rfl
  | mulhu =>
      change (mulhuProd x y).extractLsb 63 32 = _
      rw [mulhuProd, setWidth_zext, setWidth_zext]
      rfl
  | div =>
      change (if y = 0#32 then 0xFFFFFFFF#32 else if x = 0x80000000#32 ∧ y = 0xFFFFFFFF#32 then x else x.sdiv y) =
        if y = 0#32 then 0xFFFFFFFF#32 else x.sdiv y
      by_cases h : x = 0x80000000#32 ∧ y = 0xFFFFFFFF#32
      · obtain ⟨rfl, rfl⟩ := h
        decide
      · rw [if_neg h]
  | rem =>
      change (if y = 0#32 then x else if x = 0x80000000#32 ∧ y = 0xFFFFFFFF#32 then 0#32 else x.srem y) =
        if y = 0#32 then x else x.srem y
      by_cases h : x = 0x80000000#32 ∧ y = 0xFFFFFFFF#32
      · obtain ⟨rfl, rfl⟩ := h
        decide
      · rw [if_neg h]
  | _ => rfl

theorem branch_holds (op : Isa.BranchOp) :
    branchTaken (Isa.branchTable.key op) (alu x y (branchAluOp (Isa.branchTable.key op))) = holds op x y := by
  rw [Bool.eq_iff_iff, alu_branch]
  cases op with
  | beq => exact (beq_iff_eq (a := x) (b := y)).symm
  | bne => exact (bne_iff_ne (a := x) (b := y)).symm
  | blt => exact BitVec.slt_iff_toInt_lt.symm
  | bge =>
      change y.toInt ≤ x.toInt ↔ (!x.slt y) = true
      rw [Bool.not_eq_true', ← Bool.not_eq_true, BitVec.slt_iff_toInt_lt, not_lt]
  | bltu => exact BitVec.ult_iff_toNat_lt.symm
  | bgeu =>
      change y.toNat ≤ x.toNat ↔ (!x.ult y) = true
      rw [Bool.not_eq_true', ← Bool.not_eq_true, BitVec.ult_iff_toNat_lt, not_lt]

end Arithmetic

section Memory

variable {imem : Imem} {a : Arch} {i : Instr} {c : Ctrl} {d : Dmem.State} {addr : BitVec 32} {n : Nat}

theorem bytesAt_hartOf (k : Nat) : (hartOf a).bytesAt addr k = a.dmem.mem (DmemBytes.wrap addr k) := by
  change a.dmem.mem ((addr + BitVec.ofNat 32 k).setWidth 19).toNat = _
  congr 1
  rw [BitVec.toNat_setWidth, BitVec.toNat_add, BitVec.toNat_ofNat, DmemBytes.wrap, Dmem.memBytes]
  omega

theorem loadWord_key (op : Isa.LoadOp) (f : Nat → BitVec 8) :
    DmemBytes.loadWord (Isa.loadTable.key op) f = loadValue op f := by
  cases op with
  | lw => exact BitVec.signExtend_eq _
  | _ => rfl

theorem maskedAddr_setWidth : Dmem.maskedAddr addr = (addr.setWidth 19).toNat := by
  rw [DmemBytes.maskedAddr_eq, BitVec.toNat_setWidth]
  rfl

/-- A store inside the memory. -/
theorem memOf_writeBytes {w : Nat} {m : Nat → BitVec 8} {d : BitVec 64} {v : BitVec w} (hf : DmemBytes.Fits addr n)
    (hd : ∀ k < n, Bytes.byte d k = Bytes.byte v k) : memOf (Dmem.writeBytes m (Dmem.maskedAddr addr) d n) =
      fun x => if (x - addr.setWidth 19).toNat < n then Bytes.byte v (x - addr.setWidth 19).toNat else memOf m x := by
  funext x
  rw [DmemBytes.Fits, maskedAddr_setWidth, Dmem.memBytes] at hf
  have hx := x.isLt
  have hsub : (x - addr.setWidth 19).toNat = (2 ^ 19 - (addr.setWidth 19).toNat + x.toNat) % 2 ^ 19 :=
    BitVec.toNat_sub _ _
  rw [memOf, Dmem.writeBytes_apply, maskedAddr_setWidth, Dmem.memBytes]
  by_cases hin : (addr.setWidth 19).toNat ≤ x.toNat ∧ x.toNat < (addr.setWidth 19).toNat + n
  · have hoff : (x - addr.setWidth 19).toNat = x.toNat - (addr.setWidth 19).toNat := by omega
    rw [if_pos (by omega), if_pos (by omega), hoff]
    exact hd _ (by omega)
  · rw [if_neg (by omega), if_neg (by omega)]
    rfl

/-- What an instruction asks of the data memory. -/
def requestOf (c : MemCtrl) (addr data : BitVec 32) : Dmem.DmemIn :=
  { memWrite := c.memWrite, memRead := c.memRead, amoEn := c.amoEn, amoOp := c.amoOp, addr, writeData := 0#32 ++ data
    memSize := c.memSize }

def scRequest (addr data : BitVec 32) : Dmem.DmemIn :=
  requestOf { amoEn := true, amoOp := 0b00011#5, memSize := 0b010#3, memWrite := true } addr data

/-- The instruction goes on to the next one and leaves the CSRs alone. -/
structure Straight (c : Ctrl) : Prop where
  exception : c.exception = false
  mretExec : c.mretExec = false
  csrWrite : c.csrWrite = false
  fpFflagsWe : c.fpFflagsWe = false
  fpMemWrite : c.fpMemWrite = false
  fpMemRead : c.fpMemRead = false
  fpToInt : c.fpToInt = false
  branch : c.branch = false
  jump : c.jump = false

theorem request_exMemOf (hw : fetchWord imem a.pc = encode i)
    (hc : decode (encode i) a.csr.mstatusFs a.csr.frmReg = c) (hs : Straight c) :
    dmemInOf (exMemOf imem a) = requestOf c.toMemCtrl (aluOf (idExOf imem a) (operandsOf (idExOf imem a)))
      ((hartOf a).reg i.fields.rs2) := by
  have hctrl := ctrl_idExOf hw
  rw [hc] at hctrl
  have hmem : (exMemOf imem a).ctrl = c.toMemCtrl := congrArg ExCtrl.toMemCtrl hctrl
  have hrs2 : (exMemOf imem a).rs2Data = (hartOf a).reg i.fields.rs2 := rs2_operandsOf hw
  rw [dmemInOf, hmem, hs.fpMemWrite, hs.fpMemRead, hrs2]
  simp only [Bool.or_false, Bool.false_eq_true, if_false]
  rfl

theorem nextPc_of_straight (hw : fetchWord imem a.pc = encode i)
    (hc : decode (encode i) a.csr.mstatusFs a.csr.frmReg = c) (hs : Straight c) : nextPc imem a = a.pc + 4#32 := by
  have hctrl := ctrl_idExOf hw
  rw [hc] at hctrl
  have hsel : pcSelOf (idExOf imem a) (operandsOf (idExOf imem a)) = false := by
    rw [pcSelOf, hctrl, hs.branch, hs.jump]
    rfl
  exact nextPc_straight (by rw [hctrl]; exact hs.exception) (by rw [hctrl]; exact hs.mretExec) hsel

/-- What is left to say of an instruction that goes on to the next one. -/
theorem hartOf_straight (hw : fetchWord imem a.pc = encode i)
    (hc : decode (encode i) a.csr.mstatusFs a.csr.frmReg = c) (hs : Straight c) :
    let x := requestOf c.toMemCtrl (aluOf (idExOf imem a) (operandsOf (idExOf imem a))) ((hartOf a).reg i.fields.rs2)
    hartOf (execOne imem a) =
      { pc := a.pc + 4#32, regs := intWrite a.regs (intWb (memWbOf a (exMemOf imem a)))
        mem := memOf (Dmem.dmemTick a.dmem x).mem, reserved := reservedOf (Dmem.dmemTick a.dmem x)
        csr := a.csr } := by
  intro x
  have hctrl := ctrl_idExOf hw
  rw [hc] at hctrl
  have hmem : (exMemOf imem a).ctrl = c.toMemCtrl := congrArg ExCtrl.toMemCtrl hctrl
  have hcsr : (execOne imem a).csr = a.csr := csrTick_quiet (by rw [hmem]; exact hs.exception)
    (by rw [hmem]; exact hs.mretExec) (by rw [hmem]; exact hs.csrWrite) (by rw [hmem]; exact hs.fpFflagsWe)
  have hdmem : (execOne imem a).dmem = Dmem.dmemTick a.dmem x :=
    congrArg (Dmem.dmemTick a.dmem) (request_exMemOf hw hc hs)
  have hregs : (execOne imem a).regs = _ := regs_execOne (by rw [hmem]; exact hs.exception)
    (by rw [hmem]; exact hs.mretExec)
  have hpc : (execOne imem a).pc = a.pc + 4#32 := nextPc_of_straight hw hc hs
  simp only [hartOf, hcsr, hdmem, hregs, hpc]

/-- An instruction that writes back what the data memory returns. -/
theorem hartOf_access {v : BitVec 32} {x : Dmem.DmemIn} (hw : fetchWord imem a.pc = encode i)
    (hc : decode (encode i) a.csr.mstatusFs a.csr.frmReg = c) (hs : Straight c)
    (hwe : c.regWrite = true ∧ c.resultSel = 0b01#2)
    (haddr : aluOf (idExOf imem a) (operandsOf (idExOf imem a)) = addr)
    (hx : requestOf c.toMemCtrl addr ((hartOf a).reg i.fields.rs2) = x)
    (hv : (Dmem.readData a.dmem x).extractLsb 31 0 = v) :
    hartOf (execOne imem a) = ({ hartOf a with
      mem := memOf (Dmem.dmemTick a.dmem x).mem
      reserved := reservedOf (Dmem.dmemTick a.dmem x) }.setReg i.fields.rd v).next := by
  have hctrl := ctrl_idExOf hw
  rw [hc] at hctrl
  have hmem : (exMemOf imem a).ctrl = c.toMemCtrl := congrArg ExCtrl.toMemCtrl hctrl
  have hwb : (memWbOf a (exMemOf imem a)).ctrl = c.toWbCtrl := congrArg MemCtrl.toWbCtrl hmem
  have hdata : wbDataOf (memWbOf a (exMemOf imem a)) = v := by
    rw [wbDataOf, hwb, intResult, hs.fpToInt, hwe.2, ← hv, ← hx, ← haddr, ← request_exMemOf hw hc hs]
    rfl
  have hrd : rdOf (memWbOf a (exMemOf imem a)).instruction = i.fields.rd := by
    rw [← rdOf_encode, ← hw]
    rfl
  have hport : intWb (memWbOf a (exMemOf imem a)) = ⟨true, i.fields.rd, v⟩ := by
    rw [intWb, hdata, hwb, hwe.1, hrd]
  rw [hartOf_straight hw hc hs, hport, haddr, hx, ← setReg_intWrite]
  rfl

/-- An instruction without write-back. -/
theorem hartOf_stored {x : Dmem.DmemIn} (hw : fetchWord imem a.pc = encode i)
    (hc : decode (encode i) a.csr.mstatusFs a.csr.frmReg = c) (hs : Straight c) (hwe : c.regWrite = false)
    (haddr : aluOf (idExOf imem a) (operandsOf (idExOf imem a)) = addr)
    (hx : requestOf c.toMemCtrl addr ((hartOf a).reg i.fields.rs2) = x) :
    hartOf (execOne imem a) = { hartOf a with
      mem := memOf (Dmem.dmemTick a.dmem x).mem
      reserved := reservedOf (Dmem.dmemTick a.dmem x) }.next := by
  have hctrl := ctrl_idExOf hw
  rw [hc] at hctrl
  have hmem : (exMemOf imem a).ctrl = c.toMemCtrl := congrArg ExCtrl.toMemCtrl hctrl
  have hwb : (memWbOf a (exMemOf imem a)).ctrl = c.toWbCtrl := congrArg MemCtrl.toWbCtrl hmem
  have hport : (intWb (memWbOf a (exMemOf imem a))).we = false := by rw [intWb, hwb, hwe]
  rw [hartOf_straight hw hc hs, intWrite_of_we_false hport, haddr, hx]
  rfl

theorem reservedOf_other {x : Dmem.DmemIn} (hlr : LrSc.isLr x = false) (hsc : LrSc.isSc x = false) :
    reservedOf (Dmem.dmemTick d x) = reservedOf d := by
  obtain ⟨hvalid, haddr⟩ := LrSc.reservation_other (d := d) hlr hsc
  rw [reservedOf, hvalid, haddr]
  rfl

theorem reservedOf_sc {x : Dmem.DmemIn} (hsc : LrSc.isSc x = true) : reservedOf (Dmem.dmemTick d x) = none := by
  rw [reservedOf, LrSc.reservation_sc hsc]
  rfl

theorem byte_zext (v : BitVec 32) {k : Nat} (hk : k < 4) : Bytes.byte (0#32 ++ v : BitVec 64) k = Bytes.byte v k := by
  have hlow : (0#32 ++ v : BitVec 64).setWidth 32 = v := by
    rw [setWidth_zext, BitVec.setWidth_setWidth_of_le _ (by decide), BitVec.setWidth_eq]
  rw [← Bytes.byte_setWidth (v := 32) _ (by omega), hlow]

theorem fits_of_within (hin : Within i (hartOf a)) (h : access i (hartOf a) = some (addr, n)) :
    DmemBytes.Fits addr n := by
  have hend := hin (addr, n) h
  rwa [← maskedAddr_setWidth] at hend

theorem wordAt_hartOf : (hartOf a).wordAt addr = DmemAmo.oldWord a.dmem addr :=
  Bytes.ofBytes_inj.mpr fun _ _ => bytesAt_hartOf _

theorem amoApply_key (op : Isa.AmoOp) (old x : BitVec 32) :
    RiscvSb.amoRes (Isa.amoTable.key op) old x = amoApply op old x := by
  cases op <;> rfl

theorem reservedOf_eq_some : reservedOf d = some addr ↔ (d.reservationValid && d.reservationAddr == addr) = true := by
  rw [reservedOf]
  cases d.reservationValid with
  | false => simp
  | true => simp

theorem low_word {x : Dmem.DmemIn} (ha : x.amoEn = true) (hs : x.memSize = 0b010#3) (hsc : x.amoOp ≠ 0b00011#5)
    (hf : DmemBytes.Fits x.addr 4) : (Dmem.readData a.dmem x).extractLsb 31 0 = (hartOf a).wordAt x.addr := by
  rw [DmemAmo.readData_word hsc, DmemAmo.readDataReg_word ha hs, DmemAmo.oldWord_eq hf, DmemBytes.low_setWidth,
    wordAt_hartOf]
  exact BitVec.setWidth_eq _

theorem low_zext (v : BitVec 32) : (0#32 ++ v : BitVec 64).extractLsb 31 0 = v := BitVec.extractLsb'_append_eq_right

theorem memOf_amo {x : Dmem.DmemIn} {op : Isa.AmoOp} (ha : x.amoEn = true) (hs : x.memSize = 0b010#3)
    (hop : x.amoOp = Isa.amoTable.key op) (hf : DmemBytes.Fits x.addr 4) :
    memOf (Dmem.dmemTick a.dmem x).mem =
      ((hartOf a).storeAt x.addr 4 (amoApply op ((hartOf a).wordAt x.addr) (DmemAmo.operand x))).mem := by
  have hlr : x.amoOp ≠ 0b00010#5 := by rw [hop]; cases op <;> decide
  have hsc : x.amoOp ≠ 0b00011#5 := by rw [hop]; cases op <;> decide
  have hname : DmemAmo.namesOp (Isa.amoTable.key op) = true := by cases op <;> rfl
  have hold := low_word (a := a) ha hs hsc hf
  rw [DmemAmo.readData_word hsc] at hold
  rw [DmemAmo.mem_amo ha hs hlr hsc, hold, hop]
  refine memOf_writeBytes hf fun k hk => ?_
  rw [← amoApply_key, ← Bytes.byte_setWidth (v := 32) _ (by omega), DmemAmo.setWidth_amoWriteData, if_pos hname]

/-- A CSR instruction whose operand is `x`. -/
theorem hartOf_csrAccess {op : Isa.CsrOp} {field : BitVec 5} {x : BitVec 32} {immSel : BitVec 3} {csrImmSel : Bool}
    (hw : fetchWord imem a.pc = encode i) (hc : decode (encode i) a.csr.mstatusFs a.csr.frmReg =
      { regWrite := true, resultSel := 0b11#2, csrImmSel, immSel, csrOp := Isa.csrTable.key op
        csrWrite := csrWrites op field })
    (hx : (exMemOf imem a).csrWdata = x) :
    hartOf (execOne imem a) = (hartOf a).csrAccess op i.fields.rd (i.fields.funct7 ++ i.fields.rs2) field x := by
  have hctrl := ctrl_idExOf hw
  rw [hc] at hctrl
  have hmem : (exMemOf imem a).ctrl = _ := congrArg ExCtrl.toMemCtrl hctrl
  have haddr : csrAddrOf (exMemOf imem a) = i.fields.funct7 ++ i.fields.rs2 := by
    rw [csrAddrOf, exMemOf, exMemIn, idExOf_instruction hw, hiLo_eq, encode, ofWord_word]
  have hnext : CsrFile.nextCsrWdata a.csr (csrInOf (exMemOf imem a)) =
      csrApply op (CsrFile.csrRdata a.csr (i.fields.funct7 ++ i.fields.rs2)) x := by
    rw [CsrFile.nextCsrWdata, csrInOf, haddr, hmem, hx]
    cases op <;> rfl
  have hcsr : (execOne imem a).csr = if csrWrites op field then
      CsrFile.csrUpdate a.csr (i.fields.funct7 ++ i.fields.rs2)
        (csrApply op (CsrFile.csrRdata a.csr (i.fields.funct7 ++ i.fields.rs2)) x) else a.csr := by
    change CsrFile.csrTick a.csr (csrInOf (exMemOf imem a)) = _
    rw [CsrFile.csrTick, hnext, csrInOf, haddr, hmem]
    rfl
  have hdmem : (execOne imem a).dmem = a.dmem := dmemTick_quiet (by rw [hmem]) (by rw [hmem]) (by rw [hmem])
  have hwb : (memWbOf a (exMemOf imem a)).ctrl = _ := congrArg MemCtrl.toWbCtrl hmem
  have hdata : wbDataOf (memWbOf a (exMemOf imem a)) = CsrFile.csrRdata a.csr (i.fields.funct7 ++ i.fields.rs2) := by
    rw [wbDataOf, hwb, ← haddr]
    rfl
  have hrd : rdOf (memWbOf a (exMemOf imem a)).instruction = i.fields.rd := by
    rw [← rdOf_encode, ← hw]
    rfl
  have hregs : (execOne imem a).regs = _ := regs_execOne (by rw [hmem]) (by rw [hmem])
  rw [intWb, hdata, hwb, hrd] at hregs
  have hpc : (execOne imem a).pc = a.pc + 4#32 :=
    nextPc_straight (by rw [hctrl]) (by rw [hctrl]) (by rw [pcSelOf, hctrl]; rfl)
  rw [hartOf, hcsr, hdmem, hregs, hpc, Machine.csrAccess, ← setReg_intWrite]
  rfl

/-- A trap is entered with the cause from the decoder. -/
theorem execOne_trap {w : BitVec 32} {cause : BitVec 4} (hw : fetchWord imem a.pc = w)
    (he : (decode w a.csr.mstatusFs a.csr.frmReg).exception = true)
    (hc : (decode w a.csr.mstatusFs a.csr.frmReg).exceptionCause = cause) :
    execOne imem a = { a with pc := a.csr.mtvecReg, dmem := (execOne imem a).dmem
                              csr := Csrs.enter a.csr a.pc (0#28 ++ cause) w } := by
  have hctrl := ctrl_idExOf hw
  have hmem : (exMemOf imem a).ctrl = (decode w a.csr.mstatusFs a.csr.frmReg).toMemCtrl :=
    congrArg ExCtrl.toMemCtrl hctrl
  have hinstruction : (exMemOf imem a).instruction = w := hw
  have hcsr : (execOne imem a).csr = Csrs.enter a.csr a.pc (0#28 ++ cause) w := by
    change CsrFile.csrTick a.csr (csrInOf (exMemOf imem a)) = _
    rw [CsrFile.csrTick, csrInOf, hmem, hinstruction, he, hc]
    rfl
  have hpc : nextPc imem a = a.csr.mtvecReg := by
    rw [nextPc, hctrl, he]
    rfl
  have hl : leavesMem (exMemOf imem a) = true := by
    rw [leavesMem, hmem, he]
    rfl
  rw [← hcsr, ← hpc]
  simp only [execOne, retire, hl, if_true]

theorem hartOf_trap {w : BitVec 32} {cause : BitVec 4} (hw : fetchWord imem a.pc = w)
    (ht : Traps cause (decode w a.csr.mstatusFs a.csr.frmReg)) :
    hartOf (execOne imem a) = (hartOf a).trap (0#28 ++ cause) w := by
  have hmem : (exMemOf imem a).ctrl = (decode w a.csr.mstatusFs a.csr.frmReg).toMemCtrl :=
    congrArg ExCtrl.toMemCtrl (ctrl_idExOf hw)
  have hdmem : (execOne imem a).dmem = a.dmem := dmemTick_quiet (by rw [hmem]; exact ht.memWrite)
    (by rw [hmem]; exact ht.fpMemWrite) (by rw [hmem]; exact ht.amoEn)
  rw [execOne_trap hw ht.exception ht.exceptionCause, hdmem]
  rfl

end Memory

section Instructions

variable {imem : Imem} {a : Arch} (rd rs1 rs2 : BitVec 5)

theorem exec_lui (imm : BitVec 20) (hw : fetchWord imem a.pc = encode (.lui rd imm)) :
    hartOf (execOne imem a) = exec (.lui rd imm) (hartOf a) := by
  have hc := decode_lui a.csr.mstatusFs a.csr.frmReg rd imm
  have himm := immOut_upper hw (congrArg Ctrl.immSel hc)
  refine hartOf_value hw hc ⟨rfl, rfl, rfl, rfl, rfl, rfl, rfl⟩ ⟨rfl, rfl, rfl⟩ ⟨rfl, rfl⟩ ?_
  rw [Isa.Instr.fields, Isa.upper_join] at himm
  rw [aluOf, ctrl_idExOf hw, hc, himm]
  rfl

theorem exec_auipc (imm : BitVec 20) (hw : fetchWord imem a.pc = encode (.auipc rd imm)) :
    hartOf (execOne imem a) = exec (.auipc rd imm) (hartOf a) := by
  have hc := decode_auipc a.csr.mstatusFs a.csr.frmReg rd imm
  have himm := immOut_upper hw (congrArg Ctrl.immSel hc)
  refine hartOf_value hw hc ⟨rfl, rfl, rfl, rfl, rfl, rfl, rfl⟩ ⟨rfl, rfl, rfl⟩ ⟨rfl, rfl⟩ ?_
  rw [Isa.Instr.fields, Isa.upper_join] at himm
  rw [aluOf, ctrl_idExOf hw, hc, himm]
  rfl

theorem exec_aluImm (op : Isa.ImmOp) (imm : BitVec 12) (hw : fetchWord imem a.pc = encode (.aluImm op rd rs1 imm)) :
    hartOf (execOne imem a) = exec (.aluImm op rd rs1 imm) (hartOf a) := by
  have hc := decode_aluImm a.csr.mstatusFs a.csr.frmReg rd rs1 op imm
  have himm := immOut_hiLo hw (congrArg Ctrl.immSel hc)
  refine hartOf_value hw hc ⟨rfl, rfl, rfl, rfl, rfl, rfl, rfl⟩ ⟨rfl, rfl, rfl⟩ ⟨rfl, rfl⟩ ?_
  rw [Isa.Instr.fields, Isa.join_split] at himm
  rw [← alu_immApply, aluOf, ctrl_idExOf hw, hc, himm, rs1_operandsOf hw]
  rfl

theorem exec_shift (op : Isa.ShiftOp) (shamt : BitVec 5) (hw : fetchWord imem a.pc = encode (.shift op rd rs1 shamt)) :
    hartOf (execOne imem a) = exec (.shift op rd rs1 shamt) (hartOf a) := by
  have hc := decode_shift a.csr.mstatusFs a.csr.frmReg rd rs1 op shamt
  have himm := immOut_hiLo hw (congrArg Ctrl.immSel hc)
  refine hartOf_value hw hc ⟨rfl, rfl, rfl, rfl, rfl, rfl, rfl⟩ ⟨rfl, rfl, rfl⟩ ⟨rfl, rfl⟩ ?_
  have hshamt : (idExOf imem a).immOut.extractLsb 4 0 = shamt := by rw [himm, low_signExtend]; rfl
  rw [← hshamt, ← alu_shiftApply, aluOf, ctrl_idExOf hw, hc, rs1_operandsOf hw]
  rfl

theorem exec_alu (op : Isa.RegOp) (hw : fetchWord imem a.pc = encode (.alu op rd rs1 rs2)) :
    hartOf (execOne imem a) = exec (.alu op rd rs1 rs2) (hartOf a) := by
  have hc := decode_alu a.csr.mstatusFs a.csr.frmReg rd rs1 rs2 op
  refine hartOf_value hw hc ⟨rfl, rfl, rfl, rfl, rfl, rfl, rfl⟩ ⟨rfl, rfl, rfl⟩ ⟨rfl, rfl⟩ ?_
  rw [← alu_regApply, ← aluDecoder_reg, aluOf, ctrl_idExOf hw, hc, rs1_operandsOf hw, rs2_operandsOf hw]
  rfl

theorem exec_jal (offset : BitVec 20) (hw : fetchWord imem a.pc = encode (.jal rd offset)) :
    hartOf (execOne imem a) = exec (.jal rd offset) (hartOf a) := by
  have hc := decode_jal a.csr.mstatusFs a.csr.frmReg rd offset
  have himm := immOut_jump hw (congrArg Ctrl.immSel hc)
  rw [Isa.Instr.fields, Isa.jump_join] at himm
  refine hartOf_jump hw hc ⟨rfl, rfl, rfl, rfl, rfl, rfl, rfl⟩ ⟨rfl, rfl, rfl⟩ rfl ?_
  rw [pcTargetOf, himm, idExOf_instruction hw, opcodeOf_encode]
  rfl

theorem exec_jalr (offset : BitVec 12) (hw : fetchWord imem a.pc = encode (.jalr rd rs1 offset)) :
    hartOf (execOne imem a) = exec (.jalr rd rs1 offset) (hartOf a) := by
  have hc := decode_jalr a.csr.mstatusFs a.csr.frmReg rd rs1 offset
  have himm := immOut_hiLo hw (congrArg Ctrl.immSel hc)
  rw [Isa.Instr.fields, Isa.join_split] at himm
  refine hartOf_jump hw hc ⟨rfl, rfl, rfl, rfl, rfl, rfl, rfl⟩ ⟨rfl, rfl, rfl⟩ rfl ?_
  rw [pcTargetOf, idExOf_instruction hw, opcodeOf_encode, aluOf, ctrl_idExOf hw, hc, himm, rs1_operandsOf hw]
  rfl

theorem exec_branch (op : Isa.BranchOp) (offset : BitVec 12)
    (hw : fetchWord imem a.pc = encode (.branch op rs1 rs2 offset)) :
    hartOf (execOne imem a) = exec (.branch op rs1 rs2 offset) (hartOf a) := by
  have hc := decode_branch a.csr.mstatusFs a.csr.frmReg rs1 rs2 op offset
  have himm := immOut_branch hw (congrArg Ctrl.immSel hc)
  rw [Isa.Instr.fields, Isa.branch_join] at himm
  have hctrl := ctrl_idExOf hw
  rw [hc] at hctrl
  have hmem : (exMemOf imem a).ctrl = {} := congrArg ExCtrl.toMemCtrl hctrl
  have hsel : pcSelOf (idExOf imem a) (operandsOf (idExOf imem a)) =
      holds op ((hartOf a).reg rs1) ((hartOf a).reg rs2) := by
    have hfunct3 : (encode (.branch op rs1 rs2 offset)).extractLsb 14 12 = Isa.branchTable.key op := funct3_encode _
    rw [← branch_holds, pcSelOf, aluOf, hctrl, idExOf_instruction hw, hfunct3, rs1_operandsOf hw, rs2_operandsOf hw]
    exact (Bool.or_false _).trans (Bool.true_and _)
  have htarget : pcTargetOf (idExOf imem a) (operandsOf (idExOf imem a)) = a.pc + (offset ++ 0#1).signExtend 32 := by
    rw [pcTargetOf, himm, idExOf_instruction hw, opcodeOf_encode]
    rfl
  have he : (idExOf imem a).ctrl.exception = false := by rw [hctrl]
  have hm : (idExOf imem a).ctrl.mretExec = false := by rw [hctrl]
  rw [hartOf_unwritten (hmem ▸ ⟨rfl, rfl, rfl, rfl, rfl, rfl, rfl⟩) (by rw [hmem]), exec]
  cases hb : holds op ((hartOf a).reg rs1) ((hartOf a).reg rs2) with
  | true => rw [nextPc_redirect he hm (hsel.trans hb), htarget, if_pos rfl]; rfl
  | false => rw [nextPc_straight he hm (hsel.trans hb), if_neg Bool.false_ne_true]; rfl

theorem exec_fence (funct7 : BitVec 7) (funct3 : BitVec 3)
    (hw : fetchWord imem a.pc = encode (.fence funct7 rs2 rs1 funct3 rd)) :
    hartOf (execOne imem a) = exec (.fence funct7 rs2 rs1 funct3 rd) (hartOf a) := by
  have hctrl := ctrl_idExOf hw
  rw [decode_fence] at hctrl
  have hmem : (exMemOf imem a).ctrl = {} := congrArg ExCtrl.toMemCtrl hctrl
  have hsel : pcSelOf (idExOf imem a) (operandsOf (idExOf imem a)) = false := by
    rw [pcSelOf, hctrl]
    rfl
  rw [hartOf_unwritten (hmem ▸ ⟨rfl, rfl, rfl, rfl, rfl, rfl, rfl⟩) (by rw [hmem]),
    nextPc_straight (by rw [hctrl]) (by rw [hctrl]) hsel]
  rfl

theorem exec_load (op : Isa.LoadOp) (offset : BitVec 12) (hw : fetchWord imem a.pc = encode (.load op rd rs1 offset))
    (hin : Within (.load op rd rs1 offset) (hartOf a)) :
    hartOf (execOne imem a) = exec (.load op rd rs1 offset) (hartOf a) := by
  have hc := decode_load a.csr.mstatusFs a.csr.frmReg rd rs1 op offset
  have himm := immOut_hiLo hw (congrArg Ctrl.immSel hc)
  rw [Isa.Instr.fields, Isa.join_split] at himm
  have haddr : aluOf (idExOf imem a) (operandsOf (idExOf imem a)) = (hartOf a).reg rs1 + offset.signExtend 32 := by
    rw [aluOf, ctrl_idExOf hw, hc, himm, rs1_operandsOf hw]
    rfl
  have hn : Dmem.storeBytes (Isa.loadTable.key op) = loadSize op := by cases op <;> rfl
  have hfits : DmemBytes.Fits ((hartOf a).reg rs1 + offset.signExtend 32) (Dmem.storeBytes (Isa.loadTable.key op)) := by
    rw [hn]
    exact fits_of_within hin rfl
  have hload : DmemBytes.isLoad (Isa.loadTable.key op) = true := by cases op <;> rfl
  have hbytes : (hartOf a).bytesAt ((hartOf a).reg rs1 + offset.signExtend 32) =
      fun k => a.dmem.mem (DmemBytes.wrap ((hartOf a).reg rs1 + offset.signExtend 32) k) := funext bytesAt_hartOf
  have hv : (Dmem.readData a.dmem (requestOf { memRead := true, memSize := Isa.loadTable.key op }
      ((hartOf a).reg rs1 + offset.signExtend 32) ((hartOf a).reg (offset.extractLsb 4 0)))).extractLsb 31 0 =
        loadValue op ((hartOf a).bytesAt ((hartOf a).reg rs1 + offset.signExtend 32)) := by
    rw [hbytes, ← loadWord_key]
    exact (DmemBytes.load_of_fits rfl rfl hload hfits).low
  exact hartOf_access hw hc ⟨rfl, rfl, rfl, rfl, rfl, rfl, rfl, rfl, rfl⟩ ⟨rfl, rfl⟩ haddr rfl hv

theorem exec_store (op : Isa.StoreOp) (offset : BitVec 12)
    (hw : fetchWord imem a.pc = encode (.store op rs1 rs2 offset))
    (hin : Within (.store op rs1 rs2 offset) (hartOf a)) :
    hartOf (execOne imem a) = exec (.store op rs1 rs2 offset) (hartOf a) := by
  have hc := decode_store a.csr.mstatusFs a.csr.frmReg rs1 rs2 op offset
  have himm := immOut_store hw (congrArg Ctrl.immSel hc)
  rw [Isa.Instr.fields, Isa.join_split] at himm
  have haddr : aluOf (idExOf imem a) (operandsOf (idExOf imem a)) = (hartOf a).reg rs1 + offset.signExtend 32 := by
    rw [aluOf, ctrl_idExOf hw, hc, himm, rs1_operandsOf hw]
    rfl
  have hn : Dmem.storeBytes (Isa.storeTable.key op) = storeSize op := by cases op <;> rfl
  have hfits : DmemBytes.Fits ((hartOf a).reg rs1 + offset.signExtend 32) (storeSize op) := fits_of_within hin rfl
  have hsize : storeSize op ≤ 4 := by cases op <;> decide
  have hmem := memOf_writeBytes (m := a.dmem.mem) (d := 0#32 ++ (hartOf a).reg rs2) (v := (hartOf a).reg rs2) hfits
    fun k hk => byte_zext _ (by omega)
  rw [hartOf_stored hw hc ⟨rfl, rfl, rfl, rfl, rfl, rfl, rfl, rfl, rfl⟩ rfl haddr rfl, reservedOf_other rfl rfl,
    DmemBytes.mem_store rfl rfl, exec, Machine.storeAt, ← hn]
  rw [← hn] at hmem
  exact congrArg (fun m => { hartOf a with mem := m }.next) hmem

theorem exec_lr (order : BitVec 2) (hw : fetchWord imem a.pc = encode (.lr order rd rs1))
    (hin : Within (.lr order rd rs1) (hartOf a)) :
    hartOf (execOne imem a) = exec (.lr order rd rs1) (hartOf a) := by
  have hc := decode_lr a.csr.mstatusFs a.csr.frmReg rd rs1 order
  have haddr : aluOf (idExOf imem a) (operandsOf (idExOf imem a)) = (hartOf a).reg rs1 := by
    rw [aluOf, ctrl_idExOf hw, hc, rs1_operandsOf hw]
    rfl
  have hfits : DmemBytes.Fits ((hartOf a).reg rs1) 4 := fits_of_within hin rfl
  have hv := low_word (a := a) (x := requestOf
    { amoEn := true, amoOp := 0b00010#5, memSize := 0b010#3, memRead := true }
    ((hartOf a).reg rs1) ((hartOf a).reg 0b00000#5)) rfl rfl (show (0b00010#5 : BitVec 5) ≠ 0b00011#5 by decide) hfits
  exact hartOf_access hw hc ⟨rfl, rfl, rfl, rfl, rfl, rfl, rfl, rfl, rfl⟩ ⟨rfl, rfl⟩ haddr rfl hv

theorem exec_amo (op : Isa.AmoOp) (order : BitVec 2) (hw : fetchWord imem a.pc = encode (.amo op order rd rs1 rs2))
    (hin : Within (.amo op order rd rs1 rs2) (hartOf a)) :
    hartOf (execOne imem a) = exec (.amo op order rd rs1 rs2) (hartOf a) := by
  have hc := decode_amo a.csr.mstatusFs a.csr.frmReg rd rs1 rs2 op order
  have haddr : aluOf (idExOf imem a) (operandsOf (idExOf imem a)) = (hartOf a).reg rs1 := by
    rw [aluOf, ctrl_idExOf hw, hc, rs1_operandsOf hw]
    rfl
  have hfits : DmemBytes.Fits ((hartOf a).reg rs1) 4 := fits_of_within hin rfl
  have hlr : Isa.amoTable.key op ≠ 0b00010#5 := by cases op <;> decide
  have hsc : Isa.amoTable.key op ≠ 0b00011#5 := by cases op <;> decide
  have hname : DmemAmo.namesOp (Isa.amoTable.key op) = true := by cases op <;> rfl
  have hv := low_word (a := a) (x := requestOf
    { amoEn := true, amoOp := Isa.amoTable.key op, memSize := 0b010#3, memRead := true, memWrite := true }
    ((hartOf a).reg rs1) ((hartOf a).reg rs2)) rfl rfl hsc hfits
  have hmem := memOf_amo (a := a) (x := requestOf
    { amoEn := true, amoOp := Isa.amoTable.key op, memSize := 0b010#3, memRead := true, memWrite := true }
    ((hartOf a).reg rs1) ((hartOf a).reg rs2)) rfl rfl rfl hfits
  rw [hartOf_access hw hc ⟨rfl, rfl, rfl, rfl, rfl, rfl, rfl, rfl, rfl⟩ ⟨rfl, rfl⟩ haddr rfl hv,
    reservedOf_other (by cases op <;> rfl) (by cases op <;> rfl)]
  rw [DmemAmo.operand, requestOf, low_zext] at hmem
  exact congrArg (fun m => ({ hartOf a with mem := m }.setReg rd ((hartOf a).wordAt ((hartOf a).reg rs1))).next) hmem

theorem exec_sc (order : BitVec 2) (hw : fetchWord imem a.pc = encode (.sc order rd rs1 rs2))
    (hin : Within (.sc order rd rs1 rs2) (hartOf a)) :
    hartOf (execOne imem a) = exec (.sc order rd rs1 rs2) (hartOf a) := by
  have hc := decode_sc a.csr.mstatusFs a.csr.frmReg rd rs1 rs2 order
  have haddr : aluOf (idExOf imem a) (operandsOf (idExOf imem a)) = (hartOf a).reg rs1 := by
    rw [aluOf, ctrl_idExOf hw, hc, rs1_operandsOf hw]
    rfl
  have hfits : DmemBytes.Fits ((hartOf a).reg rs1) 4 := fits_of_within hin rfl
  have hmem := memOf_writeBytes (m := a.dmem.mem) (v := (hartOf a).reg rs2)
    (d := ((0#32 ++ (hartOf a).reg rs2 : BitVec 64).extractLsb 31 0).setWidth 64) hfits fun k hk => by
      rw [low_zext]
      exact Bytes.byte_setWidth _ (by omega)
  have hx : LrSc.isSc (scRequest ((hartOf a).reg rs1) ((hartOf a).reg rs2)) = true := rfl
  have hnone := reservedOf_sc (d := a.dmem) hx
  have hiff : (hartOf a).reserved = some ((hartOf a).reg rs1) ↔ _ := reservedOf_eq_some
  rw [hartOf_access (x := scRequest ((hartOf a).reg rs1) ((hartOf a).reg rs2)) hw hc
    ⟨rfl, rfl, rfl, rfl, rfl, rfl, rfl, rfl, rfl⟩ ⟨rfl, rfl⟩ haddr rfl rfl, hnone, LrSc.mem_sc hx, LrSc.readData_sc hx,
    exec]
  cases hsc : Dmem.scSuccess a.dmem (scRequest ((hartOf a).reg rs1) ((hartOf a).reg rs2)) with
  | true =>
      rw [if_pos (hiff.mpr hsc), if_pos rfl, if_pos rfl]
      exact congrArg (fun m => ({ hartOf a with mem := m, reserved := none }.setReg rd 0#32).next) hmem
  | false =>
      have hlost : (hartOf a).reserved ≠ some ((hartOf a).reg rs1) := fun h =>
        Bool.false_ne_true (hsc.symm.trans (hiff.mp h))
      rw [if_neg hlost, if_neg Bool.false_ne_true, if_neg Bool.false_ne_true]
      rfl

theorem exec_csr (op : Isa.CsrOp) (addr : BitVec 12) (hw : fetchWord imem a.pc = encode (.csr op rd rs1 addr)) :
    hartOf (execOne imem a) = exec (.csr op rd rs1 addr) (hartOf a) := by
  have hc := decode_csr a.csr.mstatusFs a.csr.frmReg rd rs1 op addr
  have hx : (exMemOf imem a).csrWdata = (hartOf a).reg rs1 := by
    rw [exMemOf, exMemIn, ctrl_idExOf hw, hc]
    exact rs1_operandsOf hw
  rw [hartOf_csrAccess hw hc hx, Isa.Instr.fields, Isa.join_split]
  rfl

theorem exec_csri (op : Isa.CsrOp) (imm : BitVec 5) (addr : BitVec 12)
    (hw : fetchWord imem a.pc = encode (.csri op rd imm addr)) :
    hartOf (execOne imem a) = exec (.csri op rd imm addr) (hartOf a) := by
  have hc := decode_csri a.csr.mstatusFs a.csr.frmReg rd op imm addr
  have himm := immOut_idExOf hw (congrArg Ctrl.immSel hc)
  have hx : (exMemOf imem a).csrWdata = imm.setWidth 32 := by
    rw [exMemOf, exMemIn, ctrl_idExOf hw, hc, himm]
    exact congrArg (BitVec.setWidth 32) (rs1Of_encode _)
  rw [hartOf_csrAccess hw hc hx, Isa.Instr.fields, Isa.join_split]
  rfl

theorem exec_ecall (hw : fetchWord imem a.pc = encode .ecall) : hartOf (execOne imem a) = exec .ecall (hartOf a) := by
  have ht : Traps 11#4 (decode (encode .ecall) a.csr.mstatusFs a.csr.frmReg) := by
    rw [decode_ecall]
    exact ⟨rfl, rfl, rfl, rfl, rfl⟩
  exact hartOf_trap hw ht

theorem exec_ebreak (hw : fetchWord imem a.pc = encode .ebreak) :
    hartOf (execOne imem a) = exec .ebreak (hartOf a) := by
  have ht : Traps 3#4 (decode (encode .ebreak) a.csr.mstatusFs a.csr.frmReg) := by
    rw [decode_ebreak]
    exact ⟨rfl, rfl, rfl, rfl, rfl⟩
  exact hartOf_trap hw ht

theorem exec_mret (hw : fetchWord imem a.pc = encode .mret) : hartOf (execOne imem a) = exec .mret (hartOf a) := by
  have hctrl := ctrl_idExOf hw
  rw [decode_mret] at hctrl
  have hmem : (exMemOf imem a).ctrl = { mretExec := true } := congrArg ExCtrl.toMemCtrl hctrl
  have hcsr : (execOne imem a).csr = Csrs.leave a.csr := by
    change CsrFile.csrTick a.csr (csrInOf (exMemOf imem a)) = _
    rw [CsrFile.csrTick, csrInOf, hmem]
    rfl
  have hdmem : (execOne imem a).dmem = a.dmem := dmemTick_quiet (by rw [hmem]) (by rw [hmem]) (by rw [hmem])
  have hpc : (execOne imem a).pc = a.csr.mepcReg := by
    change nextPc imem a = _
    rw [nextPc, hctrl]
    rfl
  have hregs : (execOne imem a).regs = a.regs := by
    change (if leavesMem (exMemOf imem a) then a.regs else _) = _
    rw [leavesMem, hmem]
    rfl
  rw [hartOf, hcsr, hdmem, hregs, hpc]
  rfl

end Instructions

/-- The core does what the instruction set says, for every word that encodes an
instruction and whose access, if any, ends inside the memory. -/
theorem exec_of_word (imem : Imem) (a : Arch) (i : Instr) (hw : fetchWord imem a.pc = encode i)
    (hin : Within i (hartOf a)) : hartOf (execOne imem a) = exec i (hartOf a) := by
  cases i with
  | lui rd imm => exact exec_lui rd imm hw
  | auipc rd imm => exact exec_auipc rd imm hw
  | jal rd offset => exact exec_jal rd offset hw
  | jalr rd rs1 offset => exact exec_jalr rd rs1 offset hw
  | branch op rs1 rs2 offset => exact exec_branch rs1 rs2 op offset hw
  | load op rd rs1 offset => exact exec_load rd rs1 op offset hw hin
  | store op rs1 rs2 offset => exact exec_store rs1 rs2 op offset hw hin
  | aluImm op rd rs1 imm => exact exec_aluImm rd rs1 op imm hw
  | shift op rd rs1 shamt => exact exec_shift rd rs1 op shamt hw
  | alu op rd rs1 rs2 => exact exec_alu rd rs1 rs2 op hw
  | lr order rd rs1 => exact exec_lr rd rs1 order hw hin
  | sc order rd rs1 rs2 => exact exec_sc rd rs1 rs2 order hw hin
  | amo op order rd rs1 rs2 => exact exec_amo rd rs1 rs2 op order hw hin
  | csr op rd rs1 addr => exact exec_csr rd rs1 op addr hw
  | csri op rd imm addr => exact exec_csri rd op imm addr hw
  | fence funct7 rs2 rs1 funct3 rd => exact exec_fence rd rs1 rs2 funct7 funct3 hw
  | ecall => exact exec_ecall hw
  | ebreak => exact exec_ebreak hw
  | mret => exact exec_mret hw

theorem hartOf_step {imem : Imem} {a : Arch} {m : Machine CsrFile.State 19}
    (hs : step (fetchWord imem) openWord (hartOf a) = some m) : hartOf (execOne imem a) = m := by
  rcases step_cases hs with ⟨i, hi, hin, rfl⟩ | ⟨hi, ho, rfl⟩
  · exact exec_of_word imem a i hi.symm hin
  · exact hartOf_trap rfl (traps_decode _ _ _ hi ho)

end VMate.IsaStep
