import VMate.IsaStep
import VMate.Progress

namespace VMate.IsaRun

open Decode Pipe RegFile RiscvTop SeqExec Speculate IsaExec IsaTrap IsaStep OooPath OooRefine OooRun Progress
open Isa (encode)
open InOrderSim (Sim occupiedMem)
open InOrderRun (retired sim_run)

abbrev Hart := Machine CsrFile.State 19

/-- The hart that leaves reset. -/
def hartReset (p : PowerUp) : Hart := hartOf (archReset p)

/-- The in-order pipeline shows a hart: the register that WB is about to write
counts as written, and MEM holds the instruction to execute next. -/
structure Shows (s : State) (m : Hart) : Prop where
  regs : intWrite s.regs (intWb s.memWb) = m.regs
  mem : memOf s.dmem.mem = m.mem
  reserved : reservedOf s.dmem = m.reserved
  csr : s.csr = m.csr
  pc : occupiedMem s = true → s.exMem.pc = m.pc

/-- The out-of-order core shows a hart. Memory and CSRs are ahead of the
registers while instructions are in flight. -/
structure OooShows (s : State) (m : Hart) : Prop where
  regs : s.regs = m.regs
  mem : robEmpty s = true → memOf s.dmem.mem = m.mem
  reserved : robEmpty s = true → reservedOf s.dmem = m.reserved
  csr : robEmpty s = true → s.csr = m.csr

section Views

variable {imem : Imem} {s : State} {a : Arch} {m : Hart} {k : Nat}

theorem hartOf_steps (hs : steps (fetchWord imem) openWord k (hartOf a) = some m) : hartOf (archAt imem a k) = m :=
  steps_of_view hartOf (execOne imem) (fun _ _ => hartOf_step) hs

theorem shows_of_sim (hsim : Sim imem s a) : Shows s (hartOf a) := by
  refine ⟨hsim.regs.symm, congrArg memOf (congrArg Dmem.State.mem hsim.dmem.symm), congrArg reservedOf hsim.dmem.symm,
    hsim.csr.symm, fun hocc => ?_⟩
  rcases hsim.mem with hmem | hmem
  · rw [InOrderSim.occupiedMem_of_emptyMem hmem] at hocc
    cases hocc
  · rw [hmem]
    rfl

theorem oooShows_of_executed (he : Executed imem a s k) : OooShows s (hartOf (archAt imem a k)) :=
  ⟨he.regs, fun h => by rw [(he.memory h).1]; rfl, fun h => by rw [(he.memory h).1]; rfl, fun h => (he.memory h).2⟩

end Views

theorem archAt_add (imem : Imem) (a : Arch) (i j : Nat) : archAt imem (archAt imem a i) j = archAt imem a (j + i) :=
  (Function.iterate_add_apply _ j i a).symm

section Rates

variable {imem : Imem} {p : PowerUp} {o : Nat → OpenNets} {b n : Nat}

theorem retired_rate (h : ∀ k < n, oooEn (run imem p o k) = false) : n / 4 ≤ retired (run imem p o) n := by
  have hrate : retired (run imem p o) 0 + n / 4 ≤ retired (run imem p o) n :=
    div_le_of_grows (N := n) (fun k _ => retired_mono _ k) (fun k hk => retired_grows h hk) (Nat.le_refl n)
  exact (Nat.zero_add (n / 4)) ▸ hrate

/-- How far the out-of-order core has come, counted from reset. -/
theorem executed_run (h : Undisturbed imem p o b (b + n)) :
    ∃ k, b / 4 + n / 6 ≤ k ∧ Executed imem (archReset p) (run imem p o (b + n)) k := by
  have hbefore : b / 4 ≤ retired (run imem p o) b := retired_rate h.off
  have hafter : executed imem (startArch imem p o b) (run imem p o) b 0 + n / 6 ≤
      executed imem (startArch imem p o b) (run imem p o) b n :=
    div_le_of_grows (N := n) (fun k hk => Nat.le_of_add_right_le (h.executed_mono (by omega)))
      (fun k hk => executed_grows h (by omega)) (Nat.le_refl n)
  have he := executed_of_onPath (h.onPath (Nat.le_refl _)) (h.runInv (Nat.le_refl _))
  refine ⟨executed imem (startArch imem p o b) (run imem p o) b n + retired (run imem p o) b, by omega, ?_⟩
  have hat : archAt imem (startArch imem p o b) (executed imem (startArch imem p o b) (run imem p o) b n) =
      archAt imem (archReset p) _ := archAt_add imem (archReset p) _ _
  exact ⟨hat ▸ he.regs, hat ▸ he.fpr, hat ▸ he.memory⟩

end Rates

/-- `addi x1, x0, -6; addi x2, x0, 7; mul x3, x1, x2; sw x3, 16(x0)`. -/
def mulImage : Imem :=
  imageOf [encode (.aluImm .addi 1#5 0#5 (-6#12)), encode (.aluImm .addi 2#5 0#5 7#12), encode (.alu .mul 3#5 1#5 2#5),
    encode (.store .sw 0#5 3#5 16#12)]

end VMate.IsaRun
