import VMate.Timing

namespace VMate.RiscvSva

open Decode Pipe RiscvTop SeqExec DecodeFacts StageCtrl InOrder InOrderSim Timing
open InOrderRun (emptyEx_of_idEx stalls_of_empty)

section Properties

/-- `p_deadlock` at the clock edge `n`. -/
def pDeadlock (r : Nat → State) (n : Nat) : Prop := ¬ ∀ m < 1000, (r (n + m + 1)).pc = (r (n + m)).pc

def pAmoMemAccess (s : State) : Prop :=
  s.exMem.ctrl.amoEn = true → s.exMem.ctrl.memRead = true ∨ s.exMem.ctrl.memWrite = true

def pExceptionNoWrite (s : State) : Prop :=
  s.exMem.ctrl.exception = true → s.exMem.ctrl.regWrite = false ∧ s.exMem.ctrl.fpWe = false

end Properties

section Rows

/-- An AMO row reads memory or writes it. -/
def AmoAccess (c : Ctrl) : Prop := c.amoEn = true → c.memRead = true ∨ c.memWrite = true

/-- A row that traps and still names an integer destination is a reserved CSR row. -/
def TrapUnwritten (opcode : BitVec 7) (funct3 : BitVec 3) (c : Ctrl) : Prop :=
  c.exception = true → c.regWrite = true → opcode = opSystem ∧ funct3 = 0b100#3

variable (opcode : BitVec 7) (funct3 : BitVec 3) (funct7 : BitVec 7) (rs1 rs2 : BitVec 5)

theorem decodeOpcode_amoAccess : AmoAccess (decodeOpcode opcode funct3 funct7 rs1 rs2) := by
  unfold decodeOpcode decodeAmo decodeSystem decodeLoadFp decodeStoreFp decodeFma decodeFp illegal
  repeat' refine ite_row (fun _ => ?_) (fun _ => ?_)
  all_goals
    intro h
    first
    | cases h; done
    | exact .inl rfl
    | exact .inr rfl

theorem reserved_csr {funct3 : BitVec 3} (h0 : funct3 ≠ 0b000#3) (h1 : funct3.extractLsb 1 0 ≠ 0b01#2)
    (h2 : funct3.extractLsb 1 0 ≠ 0b10#2) (h3 : funct3.extractLsb 1 0 ≠ 0b11#2) : funct3 = 0b100#3 := by
  revert funct3
  decide

theorem decodeOpcode_trapUnwritten : TrapUnwritten opcode funct3 (decodeOpcode opcode funct3 funct7 rs1 rs2) := by
  unfold decodeOpcode decodeAmo decodeSystem decodeLoadFp decodeStoreFp decodeFma decodeFp illegal
  repeat' refine ite_row (fun _ => ?_) (fun _ => ?_)
  all_goals
    intro h hw
    first
    | cases h; done
    | cases hw; done
    | exact ⟨by assumption, reserved_csr (by assumption) (by assumption) (by assumption) (by assumption)⟩

end Rows

section States

variable {w : BitVec 32} {fs : BitVec 2} {rm : BitVec 3}

theorem decode_amoAccess : AmoAccess (decode w fs rm) := by
  rw [decode_eq]
  exact decodeOpcode_amoAccess _ _ _ _ _

/-- What the decoder lets the write enables of a trapping word be. -/
theorem decode_trap_writes (hx : (decode w fs rm).exception = true) :
    ((decode w fs rm).regWrite = true ∨ (decode w fs rm).fpWe = true) ↔
      (opcodeOf w = opSystem ∧ w.extractLsb 14 12 = 0b100#3) ∨
        (isFpOpcode (opcodeOf w) = true ∧ ((row w).regWrite = true ∨ (row w).fpWe = true)) := by
  rw [decode_eq] at hx ⊢
  simp only [Bool.or_eq_true] at hx ⊢
  rcases hx with hrow | htrap
  · have hfp : (row w).fpWe = false := (decodeOpcode_trapQuiet _ _ _ _ _ hrow).2.2.2.2.2.2.2.2.2.1
    constructor
    · rintro (hw | hw)
      · exact .inl (decodeOpcode_trapUnwritten _ _ _ _ _ hrow hw)
      · rw [hfp] at hw
        cases hw
    · rintro (⟨hop, h3⟩ | ⟨-, hw⟩)
      · left
        rw [row, hop, h3]
        rfl
      · exact hw
  · have hop : isFpOpcode (opcodeOf w) = true := by
      rw [fpTrap, Bool.and_eq_true] at htrap
      exact htrap.1
    constructor
    · exact fun hw => .inr ⟨hop, hw⟩
    · rintro (⟨hsys, -⟩ | ⟨-, hw⟩)
      · rw [hsys] at hop
        cases hop
      · exact hw

end States

/-- In every run, in both modes, an atomic in MEM reads or writes memory. The
write enables are up together with the exception for the reserved CSR codes
and for FP instructions with a destination that trap, and for no other word. -/
theorem mem_assertions (imem : Imem) (p : PowerUp) (o : Nat → OpenNets) (n : Nat) :
    pAmoMemAccess (run imem p o n) ∧
      (¬ pExceptionNoWrite (run imem p o n) ↔ (run imem p o n).exMem.ctrl.exception = true ∧
        ((opcodeOf (run imem p o n).exMem.instruction = opSystem ∧
            (run imem p o n).exMem.instruction.extractLsb 14 12 = 0b100#3) ∨
          (isFpOpcode (opcodeOf (run imem p o n).exMem.instruction) = true ∧
            ((row (run imem p o n).exMem.instruction).regWrite = true ∨
              (row (run imem p o n).exMem.instruction).fpWe = true)))) := by
  obtain ⟨fs, rm, hctrl⟩ := (ctrlDecoded_run imem p o n).exMem
  rw [pAmoMemAccess, pExceptionNoWrite, hctrl]
  refine ⟨decode_amoAccess, ?_⟩
  rw [Classical.not_imp]
  refine and_congr_right fun hx => (Iff.trans ?_ (decode_trap_writes hx))
  rw [not_and_or, Bool.not_eq_false, Bool.not_eq_false]

section Moving

variable {imem : Imem} {s s' s'' : State}

/-- Fetch goes on to the next word. -/
def Moves (s : State) : Prop := leavesMem s.exMem = false ∧ pcSelEx s = false ∧ stalls s = false

theorem Moves.pc_ne (h : Moves s) (hadv : Advances imem false s s') : s'.pc ≠ s.pc := by
  obtain ⟨-, -, hpc⟩ := front_moves h.1 hadv h.2.1 h.2.2
  rw [hpc]
  intro he
  have hbit := congrArg (BitVec.toNat · % 8) he
  have hlt := s.pc.isLt
  simp only [BitVec.toNat_add, BitVec.toNat_ofNat] at hbit
  omega

theorem moves_of_empty (hex : EmptyEx s) (hmem : EmptyMem s) : Moves s :=
  ⟨leavesMem_of_emptyMem hmem, pcSelEx_of_emptyEx hex, stalls_of_empty hex hmem⟩

theorem moves_of_leaves (h : leavesMem s.exMem = true) (hadv : Advances imem false s s') : Moves s' := by
  obtain ⟨hexMem, hidEx, -⟩ := front_leaves hadv h
  refine moves_of_empty (emptyEx_of_idEx hidEx) ?_
  rw [EmptyMem, hexMem]
  exact ⟨rfl, rfl, rfl, rfl⟩

/-- A jump or a taken branch neither traps nor writes a CSR. -/
theorem quiet_of_pcSel (hctrl : CtrlDecoded s) (hsel : pcSelEx s = true) : s.idEx.ctrl.exception = false ∧
    s.idEx.ctrl.mretExec = false ∧ s.idEx.ctrl.csrWrite = false := by
  obtain ⟨fs, rm, hc⟩ := hctrl.idEx
  rw [pcSelEx, pcSelOf, hc, Bool.or_eq_true, Bool.and_eq_true] at hsel
  rw [hc]
  refine decode_turnQuiet ?_
  rcases hsel with ⟨hb, -⟩ | hj
  · exact Bool.or_eq_true_iff.mpr (.inl hb)
  · exact Bool.or_eq_true_iff.mpr (.inr hj)

theorem moves_of_turns (hctrl : CtrlDecoded s) (hm : leavesMem s.exMem = false) (hsel : pcSelEx s = true)
    (hadv : Advances imem false s s') : Moves s' := by
  obtain ⟨hx, hmret, hw⟩ := quiet_of_pcSel hctrl hsel
  obtain ⟨hidEx, hif⟩ := front_turns hm hadv hsel
  have hex := emptyEx_of_idEx hidEx
  have hexMem := hadv.exMem
  rw [hm, if_neg Bool.false_ne_true] at hexMem
  refine ⟨?_, pcSelEx_of_emptyEx hex, ?_⟩
  · rw [leavesMem, hexMem]
    simp [exMemIn, hx, hmret]
  · rw [stalls_of_emptyEx hex, hexMem, hif]
    simp only [exMemIn, hw, Bool.false_or]
    exact Bool.and_eq_false_imp.mpr fun h => absurd h (by decide)

theorem moves_of_waits (hm : leavesMem s.exMem = false) (hsel : pcSelEx s = false) (hst : stalls s = true)
    (hadv : Advances imem false s s') (hadv' : Advances imem false s' s'') : Moves s' ∨ Moves s'' := by
  obtain ⟨hidEx, -, -⟩ := front_waits hm hadv hsel hst
  have hex := emptyEx_of_idEx hidEx
  cases hm' : leavesMem s'.exMem with
  | true => exact .inr (moves_of_leaves hm' hadv')
  | false =>
      cases hst' : stalls s' with
      | false => exact .inl ⟨hm', pcSelEx_of_emptyEx hex, hst'⟩
      | true =>
          obtain ⟨hidEx', -, -⟩ := front_waits hm' hadv' (pcSelEx_of_emptyEx hex) hst'
          exact .inr (moves_of_empty (emptyEx_of_idEx hidEx') (emptyMem_step hm' hex hadv'))

theorem moves_within (hctrl : CtrlDecoded s) (hadv : Advances imem false s s') (hadv' : Advances imem false s' s'') :
    Moves s ∨ Moves s' ∨ Moves s'' := by
  cases hm : leavesMem s.exMem with
  | true => exact .inr (.inl (moves_of_leaves hm hadv))
  | false =>
      cases hsel : pcSelEx s with
      | true => exact .inr (.inl (moves_of_turns hctrl hm hsel hadv))
      | false =>
          cases hst : stalls s with
          | true => exact .inr (moves_of_waits hm hsel hst hadv hadv')
          | false => exact .inl ⟨hm, hsel, hst⟩

end Moving

/-- In in-order mode the PC is never the same for more than three cycles, so
that the deadlock check cannot fire. -/
theorem pc_moves (imem : Imem) (p : PowerUp) (o : Nat → OpenNets) (n : Nat)
    (h : ∀ k < n + 3, oooEn (run imem p o k) = false) :
    (∃ m < 3, (run imem p o (n + m + 1)).pc ≠ (run imem p o (n + m)).pc) ∧ pDeadlock (run imem p o) n := by
  have hadv (m : Nat) (hm : m < 3) : Advances imem false (run imem p o (n + m)) (run imem p o (n + m + 1)) :=
    tick_advances (h (n + m) (by omega))
  have hmoves : ∃ m < 3, (run imem p o (n + m + 1)).pc ≠ (run imem p o (n + m)).pc := by
    rcases moves_within (ctrlDecoded_run imem p o n) (hadv 0 (by omega)) (hadv 1 (by omega)) with hm | hm | hm
    · exact ⟨0, by omega, hm.pc_ne (hadv 0 (by omega))⟩
    · exact ⟨1, by omega, hm.pc_ne (hadv 1 (by omega))⟩
    · exact ⟨2, by omega, hm.pc_ne (hadv 2 (by omega))⟩
  refine ⟨hmoves, fun hstable => ?_⟩
  obtain ⟨m, hm, hne⟩ := hmoves
  exact hne (hstable m (by omega))

/-- A CSR write holds the next instruction for two cycles. -/
theorem pc_moves_csr : ∃ m < 3, (run (imageOf [0x30529073#32]) zeroPowerUp (fun _ => zeroNets) (2 + m + 1)).pc ≠
    (run (imageOf [0x30529073#32]) zeroPowerUp (fun _ => zeroNets) (2 + m)).pc :=
  (pc_moves (imageOf [0x30529073#32]) zeroPowerUp (fun _ => zeroNets) 2 (by decide +kernel)).1

end VMate.RiscvSva
