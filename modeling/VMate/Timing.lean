import VMate.Progress
import Mathlib.Algebra.BigOperators.Group.Finset.Basic

namespace VMate.Timing

open Decode Pipe Hazard RiscvTop SeqExec DecodeFacts InOrder InOrderSim Progress
open OooPath (archAt archAt_succ)
open InOrderRun (retired sim_run stalls_of_empty fetch_ne_empty iterate_afterMem emptyEx_of_idEx)

section Cost

/-- A CSR instruction. -/
def accessesCsr (w : BitVec 32) : Bool := (decode w 0#2 0#3).csrOp != 0b00#2

/-- The word behind a load names the register that is being loaded. -/
def loadUse (r : IdEx) (w : BitVec 32) : Bool :=
  (r.ctrl.memRead && rdOf r.instruction != 0#5 &&
      (rdOf r.instruction == rs1Of w || rdOf r.instruction == rs2Of w)) ||
    (r.ctrl.fpMemRead &&
      (rdOf r.instruction == rs1Of w || rdOf r.instruction == rs2Of w || rdOf r.instruction == rs3Of w))

/-- The word behind has to wait until the instruction has left MEM. -/
def waitsForMem (r : IdEx) (w : BitVec 32) : Bool := r.ctrl.csrWrite || (accessesCsr w && r.ctrl.fpFflagsWe)

/-- The cycles that are lost behind an instruction. In `flags`, whether one
that raises FP flags is right ahead of it. -/
def penalty (imem : Imem) (a : Arch) (flags : Bool) : Nat :=
  let r := idExOf imem a
  let w := (fetch imem (a.pc + 4#32)).instruction
  if r.ctrl.exception || r.ctrl.mretExec then 3
  else if pcSelOf r (operandsOf r) then 2
  else if waitsForMem r w then 2
  else if loadUse r w || (accessesCsr w && flags) then 1
  else 0

variable (imem : Imem) (a0 : Arch)

def flagsAhead : Nat → Bool
  | 0 => false
  | k + 1 => penalty imem (archAt imem a0 k) (flagsAhead k) == 0 && (idExOf imem (archAt imem a0 k)).ctrl.fpFflagsWe

def lost (k : Nat) : Nat := penalty imem (archAt imem a0 k) (flagsAhead imem a0 k)

/-- The cycle instruction `k` of the program spends in MEM. -/
def cycleOf (k : Nat) : Nat := 3 + k + ∑ i ∈ Finset.range k, lost imem a0 i

theorem cycleOf_succ (k : Nat) : cycleOf imem a0 (k + 1) = cycleOf imem a0 k + 1 + lost imem a0 k := by
  rw [cycleOf, cycleOf, Finset.sum_range_succ]
  omega

end Cost

section Rows

/-- A row that can redirect does nothing else. -/
def TurnQuiet (opcode : BitVec 7) (c : Ctrl) : Prop :=
  (c.branch || c.jump) = true →
    isFpOpcode opcode = false ∧ c.exception = false ∧ c.mretExec = false ∧ c.csrWrite = false

variable (opcode : BitVec 7) (funct3 : BitVec 3) (funct7 : BitVec 7) (rs1 rs2 : BitVec 5)

theorem decodeOpcode_turnQuiet : TurnQuiet opcode (decodeOpcode opcode funct3 funct7 rs1 rs2) := by
  unfold decodeOpcode decodeAmo decodeSystem decodeLoadFp decodeStoreFp decodeFma decodeFp illegal
  repeat' refine ite_row (fun _ => ?_) (fun _ => ?_)
  all_goals
    intro h
    first
    | cases h; done
    | subst_vars; exact ⟨rfl, rfl, rfl, rfl⟩

theorem decode_turnQuiet {w : BitVec 32} {fs : BitVec 2} {rm : BitVec 3}
    (h : ((decode w fs rm).branch || (decode w fs rm).jump) = true) :
    (decode w fs rm).exception = false ∧ (decode w fs rm).mretExec = false ∧ (decode w fs rm).csrWrite = false := by
  rw [decode_eq] at h ⊢
  obtain ⟨hop, hx, hm, hw⟩ := decodeOpcode_turnQuiet _ _ _ _ _ h
  refine ⟨?_, hm, hw⟩
  change ((row w).exception || fpTrap w fs rm) = false
  rw [fpTrap, hop]
  exact (Bool.or_false _).trans hx

end Rows

section Hazards

variable {imem : Imem} {s s' : State} {a : Arch}

theorem decode_csrOp (w : BitVec 32) (fs : BitVec 2) (rm : BitVec 3) :
    (decode w fs rm).csrOp = (decode w 0#2 0#3).csrOp := by
  rw [decode_eq, decode_eq]

theorem csrOp_id (s : State) : ((ctrlId s).csrOp != 0b00#2) = accessesCsr s.ifId.instruction := by
  rw [ctrlId, decode_csrOp]
  rfl

theorem stalls_of_holds (hex : ExHolds imem s a) : stalls s =
    (waitsForMem (idExOf imem a) s.ifId.instruction || loadUse (idExOf imem a) s.ifId.instruction ||
      (accessesCsr s.ifId.instruction && s.exMem.ctrl.fpFflagsWe)) := by
  simp only [stalls, intLoadUse, fpLoadUse, csrHazard, fflagsHazard, hazardIn, csrOp_id, hex.ctrl, hex.instruction,
    hex.csrQuiet, waitsForMem, loadUse]
  grind

theorem stalls_of_emptyEx (hex : EmptyEx s) : stalls s =
    (s.exMem.ctrl.csrWrite || (accessesCsr s.ifId.instruction && s.exMem.ctrl.fpFflagsWe)) := by
  simp [stalls, intLoadUse, fpLoadUse, csrHazard, fflagsHazard, hazardIn, csrOp_id, hex.2.2.2]

theorem csrQuiet_of_pcSel (h : pcSelOf (idExOf imem a) (operandsOf (idExOf imem a)) = true) :
    (idExOf imem a).ctrl.csrWrite = false := by
  rw [pcSelOf, Bool.or_eq_true, Bool.and_eq_true] at h
  refine (decode_turnQuiet (?_ : ((decode (fetch imem a.pc).instruction a.csr.mstatusFs a.csr.frmReg).branch ||
    (decode (fetch imem a.pc).instruction a.csr.mstatusFs a.csr.frmReg).jump) = true)).2.2
  rcases h with ⟨hb, -⟩ | hj
  · exact Bool.or_eq_true_iff.mpr (.inl hb)
  · exact Bool.or_eq_true_iff.mpr (.inr hj)

end Hazards

section Front

variable {imem : Imem} {s s' : State} (hm : leavesMem s.exMem = false) (hadv : Advances imem false s s')

include hm hadv

theorem front_moves (hsel : pcSelEx s = false) (hst : stalls s = false) :
    s'.idEx = idExIn s ∧ s'.ifId = fetch imem s.pc ∧ s'.pc = s.pc + 4#32 := by
  have hidEx := hadv.idEx
  have hfront := hadv.front
  rw [hm, hsel, hst] at hidEx
  rw [front, hm, hsel, hst, frontNext] at hfront
  exact ⟨hidEx, congrArg Prod.snd hfront, congrArg Prod.fst hfront⟩

theorem front_waits (hsel : pcSelEx s = false) (hst : stalls s = true) :
    s'.idEx = {} ∧ s'.ifId = s.ifId ∧ s'.pc = s.pc := by
  have hidEx := hadv.idEx
  have hfront := hadv.front
  rw [hm, hsel, hst] at hidEx
  rw [front, hm, hsel, hst] at hfront
  exact ⟨hidEx, congrArg Prod.snd hfront, congrArg Prod.fst hfront⟩

theorem front_turns (hsel : pcSelEx s = true) : s'.idEx = {} ∧ s'.ifId = {} := by
  have hidEx := hadv.idEx
  have hfront := hadv.front
  rw [hm, hsel] at hidEx
  rw [front, hm, hsel] at hfront
  exact ⟨hidEx, congrArg Prod.snd hfront⟩

omit hm in
theorem front_leaves (hm : leavesMem s.exMem = true) : s'.exMem = {} ∧ s'.idEx = {} ∧ s'.ifId = {} := by
  have hexMem := hadv.exMem
  have hidEx := hadv.idEx
  have hfront := hadv.front
  rw [hm] at hexMem hidEx
  rw [front, hm] at hfront
  exact ⟨hexMem, hidEx, congrArg Prod.snd hfront⟩

end Front

section Run

variable {imem : Imem} {p : PowerUp} {o : Nat → OpenNets} {k n N : Nat}

/-- In cycle `n` instruction `k` is in EX and the next word in ID. -/
structure InEx (imem : Imem) (p : PowerUp) (o : Nat → OpenNets) (k n : Nat) : Prop where
  count : retired (run imem p o) (n + 1) = k
  quiet : leavesMem (run imem p o n).exMem = false
  full : ¬ EmptyEx (run imem p o n)
  behind : (run imem p o n).ifId = fetch imem ((archAt imem (archReset p) k).pc + 4#32)
  flags : (run imem p o n).exMem.ctrl.fpFflagsWe = flagsAhead imem (archReset p) k

variable (hoff : ∀ n < N, oooEn (run imem p o n) = false)

theorem retired_of_emptyMem (h : EmptyMem (run imem p o n)) :
    retired (run imem p o) (n + 1) = retired (run imem p o) n := by
  rw [retired, occupiedMem_of_emptyMem h]
  rfl

include hoff

theorem advances_run (hn : n < N) : Advances imem false (run imem p o n) (run imem p o (n + 1)) :=
  tick_advances (hoff n hn)

theorem sim_at (hn : n ≤ N) :
    Sim imem (run imem p o n) (archAt imem (archReset p) (retired (run imem p o) n)) :=
  sim_run fun j hj => hoff j (by omega)

theorem exHolds_of_full (hn : n ≤ N) (hcount : retired (run imem p o) (n + 1) = k)
    (hm : leavesMem (run imem p o n).exMem = false) (hfull : ¬ EmptyEx (run imem p o n)) :
    ExHolds imem (run imem p o n) (archAt imem (archReset p) k) ∧
      afterMem imem (run imem p o n) (archAt imem (archReset p) (retired (run imem p o) n)) =
        archAt imem (archReset p) k := by
  have hsim := sim_at hoff (n := n) (by omega)
  have hafter : afterMem imem (run imem p o n) (archAt imem (archReset p) (retired (run imem p o) n)) =
      archAt imem (archReset p) k := by
    rw [← hcount]
    exact iterate_afterMem _
  refine ⟨?_, hafter⟩
  rcases hsim.ex hm with ⟨hex, -⟩ | ⟨hex, -⟩
  · exact absurd hex hfull
  · exact hafter ▸ hex

/-- An instruction that waits in ID with EX empty goes on. -/
theorem inEx_release (hn : n + 1 ≤ N) (hex : EmptyEx (run imem p o n)) (hm : leavesMem (run imem p o n).exMem = false)
    (hst : stalls (run imem p o n) = false) {q : BitVec 32} (hif : (run imem p o n).ifId = fetch imem q)
    (hpc : (run imem p o n).pc = q + 4#32) (hcount : retired (run imem p o) (n + 1) = k)
    (hflags : flagsAhead imem (archReset p) k = false) : InEx imem p o k (n + 1) := by
  have hadv := advances_run hoff (n := n) (by omega)
  obtain ⟨hidEx, hif', -⟩ := front_moves hm hadv (pcSelEx_of_emptyEx hex) hst
  have hempty := emptyMem_step hm hex hadv
  have hfull := not_emptyEx_of_fetch hif hidEx
  have hcount' : retired (run imem p o) (n + 1 + 1) = k := (retired_of_emptyMem hempty).trans hcount
  have hholds := (exHolds_of_full hoff hn hcount' (leavesMem_of_emptyMem hempty) hfull).1
  have hq : q = (archAt imem (archReset p) k).pc := by
    have hpcEx := hholds.pc
    rw [hidEx, idExIn, hif] at hpcEx
    exact hpcEx
  refine ⟨hcount', leavesMem_of_emptyMem hempty, hfull, ?_, ?_⟩
  · rw [hif', hpc, hq]
  · rw [hempty.2.2.2, hflags]

/-- After a redirect the front end starts again. -/
theorem inEx_refill (hn : n + 2 ≤ N) (hex : EmptyEx (run imem p o n)) (hm : leavesMem (run imem p o n).exMem = false)
    (hw : (run imem p o n).exMem.ctrl.csrWrite = false) (hif : (run imem p o n).ifId = {})
    (hcount : retired (run imem p o) (n + 1) = k) (hflags : flagsAhead imem (archReset p) k = false) :
    InEx imem p o k (n + 2) := by
  have hadv := advances_run hoff (n := n) (by omega)
  have hst : stalls (run imem p o n) = false := by
    have hnop : accessesCsr 0#32 = false := by decide
    have hi : (run imem p o n).ifId.instruction = 0#32 := congrArg IfId.instruction hif
    rw [stalls_of_emptyEx hex, hw, hi, hnop]
    rfl
  obtain ⟨-, hif', hpc⟩ := front_moves hm hadv (pcSelEx_of_emptyEx hex) hst
  have hex' := InOrderRun.emptyEx_drain hadv hif
  have hmem' := emptyMem_step hm hex hadv
  exact inEx_release hoff hn hex' (leavesMem_of_emptyMem hmem') (stalls_of_empty hex' hmem') hif' hpc
    ((retired_of_emptyMem hmem').trans hcount) hflags

omit hoff in
theorem flagsAhead_of_lost (h : lost imem (archReset p) k ≠ 0) : flagsAhead imem (archReset p) (k + 1) = false := by
  rw [lost] at h
  rw [flagsAhead, beq_eq_false_iff_ne.mpr h, Bool.false_and]

/-- Instruction `k` passes from EX into MEM. -/
theorem inEx_mem (hin : InEx imem p o k n) (hn : n + 1 ≤ N) :
    (run imem p o (n + 1)).exMem = exMemOf imem (archAt imem (archReset p) k) ∧
      retired (run imem p o) (n + 1 + 1) = k + 1 := by
  obtain ⟨hex, hafter⟩ := exHolds_of_full hoff (by omega) hin.count hin.quiet hin.full
  have hsim := sim_at hoff (n := n) (by omega)
  have hmem := exMem_step (hoff n (by omega)) hsim hin.quiet (hafter.symm ▸ hex) (advances_run hoff (by omega))
  rw [hafter] at hmem
  refine ⟨hmem, ?_⟩
  rw [retired, hin.count, occupiedMem_of_holds (a := archAt imem (archReset p) k) hmem]
  rfl

/-- Behind a trap and behind `MRET` the pipeline fills again after MEM. -/
theorem inEx_leaves (hin : InEx imem p o k n)
    (hl : leavesMem (exMemOf imem (archAt imem (archReset p) k)) = true) (hn : n + 4 ≤ N)
    (hlost : lost imem (archReset p) k = 3) : InEx imem p o (k + 1) (n + 4) := by
  obtain ⟨hmem, hcount⟩ := inEx_mem hoff hin (by omega)
  obtain ⟨hexMem, hidEx, hif⟩ := front_leaves (advances_run hoff (n := n + 1) (by omega)) (hmem ▸ hl)
  have hempty : EmptyMem (run imem p o (n + 2)) := by
    rw [EmptyMem, hexMem]
    exact ⟨rfl, rfl, rfl, rfl⟩
  refine inEx_refill hoff (n := n + 2) hn (emptyEx_of_idEx hidEx) (leavesMem_of_emptyMem hempty) ?_ hif
    ((retired_of_emptyMem hempty).trans hcount) (flagsAhead_of_lost (by omega))
  rw [hexMem]

theorem inEx_turns (hin : InEx imem p o k n) (hsel : pcSelEx (run imem p o n) = true)
    (hl : leavesMem (exMemOf imem (archAt imem (archReset p) k)) = false)
    (hw : (idExOf imem (archAt imem (archReset p) k)).ctrl.csrWrite = false) (hn : n + 3 ≤ N)
    (hlost : lost imem (archReset p) k = 2) : InEx imem p o (k + 1) (n + 3) := by
  obtain ⟨hmem, hcount⟩ := inEx_mem hoff hin (by omega)
  obtain ⟨hidEx, hif⟩ := front_turns hin.quiet (advances_run hoff (by omega)) hsel
  have hw' : (run imem p o (n + 1)).exMem.ctrl.csrWrite = false := by
    rw [hmem]
    exact hw
  exact inEx_refill hoff (n := n + 1) hn (emptyEx_of_idEx hidEx) (hmem ▸ hl) hw' hif hcount
    (flagsAhead_of_lost (by omega))

/-- Nothing holds the next instruction back. -/
theorem inEx_moves (hin : InEx imem p o k n) (hsel : pcSelEx (run imem p o n) = false)
    (hst : stalls (run imem p o n) = false)
    (hpc : (run imem p o n).pc = (archAt imem (archReset p) k).pc + 4#32 + 4#32)
    (hl : leavesMem (exMemOf imem (archAt imem (archReset p) k)) = false) (hn : n + 1 ≤ N)
    (hlost : lost imem (archReset p) k = 0) : InEx imem p o (k + 1) (n + 1) := by
  obtain ⟨hmem, hcount⟩ := inEx_mem hoff hin hn
  obtain ⟨hidEx, hif, -⟩ := front_moves hin.quiet (advances_run hoff hn) hsel hst
  have hfull := not_emptyEx_of_fetch hin.behind hidEx
  have hquiet : leavesMem (run imem p o (n + 1)).exMem = false := hmem ▸ hl
  have hq : (archAt imem (archReset p) k).pc + 4#32 = (archAt imem (archReset p) (k + 1)).pc := by
    have hpcEx := (exHolds_of_full hoff hn hcount hquiet hfull).1.pc
    rw [hidEx, idExIn, hin.behind] at hpcEx
    exact hpcEx
  refine ⟨hcount, hquiet, hfull, ?_, ?_⟩
  · rw [hif, hpc, hq]
  · rw [lost] at hlost
    rw [hmem, flagsAhead, hlost]
    rfl

omit hoff in
theorem stalls_behind (hin : InEx imem p o k n) (hmem : (run imem p o (n + 1)).exMem =
    exMemOf imem (archAt imem (archReset p) k)) (hex : EmptyEx (run imem p o (n + 1)))
    (hif : (run imem p o (n + 1)).ifId = (run imem p o n).ifId) : stalls (run imem p o (n + 1)) =
      waitsForMem (idExOf imem (archAt imem (archReset p) k))
        (fetch imem ((archAt imem (archReset p) k).pc + 4#32)).instruction := by
  rw [stalls_of_emptyEx hex, hmem, hif, hin.behind]
  rfl

/-- Fetch is two words ahead of an instruction in EX that goes straight on. -/
theorem pc_of_inEx (hin : InEx imem p o k n) (hsel : pcSelEx (run imem p o n) = false)
    (hl : leavesMem (exMemOf imem (archAt imem (archReset p) k)) = false) (hn : n ≤ N) :
    (run imem p o n).pc = (archAt imem (archReset p) k).pc + 4#32 + 4#32 := by
  obtain ⟨hholds, hafter⟩ := exHolds_of_full hoff hn hin.count hin.quiet hin.full
  rcases (sim_at hoff hn).ex hin.quiet with ⟨hex, -⟩ | ⟨-, hid⟩
  · exact absurd hex hin.full
  · have hleaves : leavesEx (run imem p o n) = false := by
      rw [leavesEx, hholds.ctrl]
      exact hl
    rw [hafter] at hid
    rcases hid hleaves hsel with ⟨hif, -⟩ | ⟨-, hpc⟩
    · exact absurd (hin.behind.symm.trans hif) (fetch_ne_empty _)
    · exact hpc

/-- The next instruction waits in ID, until EX and, where it has to, until MEM
is clear of this one. -/
theorem inEx_waits (hin : InEx imem p o k n) (hsel : pcSelEx (run imem p o n) = false)
    (hst : stalls (run imem p o n) = true)
    (hpc : (run imem p o n).pc = (archAt imem (archReset p) k).pc + 4#32 + 4#32)
    (hl : leavesMem (exMemOf imem (archAt imem (archReset p) k)) = false)
    (hn : n + 1 + lost imem (archReset p) k ≤ N)
    (hlost : lost imem (archReset p) k = if waitsForMem (idExOf imem (archAt imem (archReset p) k))
      (fetch imem ((archAt imem (archReset p) k).pc + 4#32)).instruction then 2 else 1) :
    InEx imem p o (k + 1) (n + 1 + lost imem (archReset p) k) := by
  obtain ⟨hmem, hcount⟩ := inEx_mem hoff hin (by omega)
  obtain ⟨hidEx, hif, hpc'⟩ := front_waits hin.quiet (advances_run hoff (by omega)) hsel hst
  have hex := emptyEx_of_idEx hidEx
  have hquiet : leavesMem (run imem p o (n + 1)).exMem = false := hmem ▸ hl
  have hst' := stalls_behind hin hmem hex hif
  split_ifs at hlost with hw
  · rw [hw] at hst'
    obtain ⟨hidEx2, hif2, hpc2⟩ := front_waits hquiet (advances_run hoff (by omega)) (pcSelEx_of_emptyEx hex) hst'
    have hmem2 := emptyMem_step hquiet hex (advances_run hoff (n := n + 1) (by omega))
    have hex2 := emptyEx_of_idEx hidEx2
    rw [hlost]
    exact inEx_release hoff (n := n + 1 + 1) (by omega) hex2 (leavesMem_of_emptyMem hmem2) (stalls_of_empty hex2 hmem2)
      (hif2.trans (hif.trans hin.behind)) (hpc2.trans (hpc'.trans hpc)) ((retired_of_emptyMem hmem2).trans hcount)
      (flagsAhead_of_lost (by omega))
  · rw [Bool.eq_false_iff.mpr hw] at hst'
    rw [hlost]
    exact inEx_release hoff (n := n + 1) (by omega) hex hquiet hst' (hif.trans hin.behind) (hpc'.trans hpc) hcount
      (flagsAhead_of_lost (by omega))

theorem inEx_next (hin : InEx imem p o k n) (hn : n + 1 + lost imem (archReset p) k ≤ N) :
    InEx imem p o (k + 1) (n + 1 + lost imem (archReset p) k) := by
  have hsim := sim_at hoff (n := n) (by omega)
  obtain ⟨hex, hafter⟩ := exHolds_of_full hoff (by omega) hin.count hin.quiet hin.full
  have hlost : lost imem (archReset p) k =
      penalty imem (archAt imem (archReset p) k) (flagsAhead imem (archReset p) k) := rfl
  have hsel' := pcSelEx_eq (hoff n (by omega)) hsim hin.quiet (hafter.symm ▸ hex)
  rw [hafter] at hsel'
  simp only [penalty] at hlost
  split_ifs at hlost with hl hsel hw hu
  · rw [hlost] at hn ⊢
    exact inEx_leaves hoff hin hl hn hlost
  · rw [hsel] at hsel'
    rw [hlost] at hn ⊢
    exact inEx_turns hoff hin hsel' (Bool.eq_false_iff.mpr hl) (csrQuiet_of_pcSel hsel) hn hlost
  all_goals
    have hl' : leavesMem (exMemOf imem (archAt imem (archReset p) k)) = false := Bool.eq_false_iff.mpr hl
    rw [Bool.eq_false_iff.mpr hsel] at hsel'
    have hpc := pc_of_inEx hoff hin hsel' hl' (by omega)
    have hst := stalls_of_holds hex
    rw [hin.flags, hin.behind] at hst
  · refine inEx_waits hoff hin hsel' ?_ hpc hl' hn (by rw [hlost, hw, if_pos rfl])
    rw [hst, hw]
    rfl
  · refine inEx_waits hoff hin hsel' ?_ hpc hl' hn (by rw [hlost, if_neg hw])
    rw [hst, Bool.or_assoc, hu, Bool.or_true]
  · rw [hlost] at hn ⊢
    refine inEx_moves hoff hin hsel' ?_ hpc hl' hn hlost
    rw [hst, Bool.or_assoc, Bool.eq_false_iff.mpr hw, Bool.eq_false_iff.mpr hu]
    rfl

theorem inEx_first (hn : 2 ≤ N) : InEx imem p o 0 2 :=
  inEx_refill hoff hn ⟨rfl, rfl, rfl, rfl⟩ rfl rfl rfl rfl rfl

theorem inEx_run (hn : cycleOf imem (archReset p) k ≤ N + 1) :
    InEx imem p o k (cycleOf imem (archReset p) k - 1) := by
  induction k with
  | zero => exact inEx_first hoff (by rw [cycleOf] at hn; omega)
  | succ k ih =>
      rw [cycleOf_succ] at hn ⊢
      have hpos : 3 ≤ cycleOf imem (archReset p) k := by
        rw [cycleOf]
        omega
      have hcycle : cycleOf imem (archReset p) k + 1 + lost imem (archReset p) k - 1 =
          cycleOf imem (archReset p) k - 1 + 1 + lost imem (archReset p) k := by omega
      rw [hcycle]
      exact inEx_next hoff (ih (by omega)) (by omega)

end Run

/-- The cycle count of the in-order pipeline is exact. Instruction `k` of the
program is in MEM in cycle `3 + k` and as many cycles later as the
instructions before it lose: three behind a trap or `MRET`, two behind a taken
branch or jump and behind a CSR write, one or two between an instruction that
raises FP flags and a CSR instruction, one between a load and a use. -/
theorem inOrder_cycles (imem : Imem) (p : PowerUp) (o : Nat → OpenNets) (N : Nat)
    (h : ∀ n < N, oooEn (run imem p o n) = false) (k : Nat) (hk : cycleOf imem (archReset p) k ≤ N) :
    (run imem p o (cycleOf imem (archReset p) k)).exMem = exMemOf imem (archAt imem (archReset p) k) ∧
      retired (run imem p o) (cycleOf imem (archReset p) k) = k := by
  have hin := inEx_run h (k := k) (by omega)
  have hpos : cycleOf imem (archReset p) k - 1 + 1 = cycleOf imem (archReset p) k := by
    rw [cycleOf]
    omega
  have hmem := (inEx_mem h hin (by omega)).1
  have hcount := hin.count
  rw [hpos] at hmem hcount
  exact ⟨hmem, hcount⟩

/-- `lw x1, 0(x0); add x2, x1, x1; beq x0, x0, 8`, with `addi x4, x0, 1` where
the branch goes to. -/
def mixImage : Imem := imageOf [0x00002083#32, 0x00108133#32, 0x00000463#32, 0x00100193#32, 0x00100213#32]

/-- One cycle is lost to the load and two to the branch. -/
theorem inOrder_cycles_mix : cycleOf mixImage (archReset zeroPowerUp) 3 = 9 ∧
    (run mixImage zeroPowerUp (fun _ => zeroNets) (cycleOf mixImage (archReset zeroPowerUp) 3)).exMem =
      exMemOf mixImage (archAt mixImage (archReset zeroPowerUp) 3) ∧
    retired (run mixImage zeroPowerUp (fun _ => zeroNets)) (cycleOf mixImage (archReset zeroPowerUp) 3) = 3 :=
  ⟨by decide +kernel,
    inOrder_cycles mixImage zeroPowerUp (fun _ => zeroNets) 9 (by decide +kernel) 3 (by decide +kernel)⟩

end VMate.Timing
