import VMate.IsaFpStep
import VMate.IsaRun

namespace VMate.IsaFpRun

open RegFile RiscvTop SeqExec Speculate IsaTrap IsaStep OooPath OooRefine OooRun Progress IsaRun IsaFp IsaFpStep
open Isa (encode)
open InOrderSim (Sim)
open InOrderRun (retired sim_run)
open OooOperand (Sound)

abbrev FpHart := FpMachine CsrFile.State 19

def fpHartReset (p : PowerUp) : FpHart := fpHartOf (archReset p)

/-- A run from reset that the instruction set allows. -/
structure AllowedRun (imem : Imem) (p : PowerUp) (t : Nat → FpHart) : Prop where
  start : t 0 = fpHartReset p
  step (k : Nat) : Allowed (fetchWord imem) openWord Spared (t k) (t (k + 1))

structure FpShows (s : State) (m : FpHart) : Prop extends Shows s m.toMachine where
  fregs : fpWrite s.fpr (fpWb s.memWb) = m.fregs

structure OooFpShows (s : State) (m : FpHart) : Prop extends OooShows s m.toMachine where
  fregs : s.fpr = m.fregs

section Runs

variable (imem : Imem) (p : PowerUp)

/-- The run of the reference core, one instruction after the other. -/
def fpHartAt (k : Nat) : FpHart := fpHartOf (archAt imem (archReset p) k)

theorem allowedRun_fpHartAt : AllowedRun imem p (fpHartAt imem p) := by
  refine ⟨rfl, fun k => ?_⟩
  rw [fpHartAt, fpHartAt, archAt_succ]
  exact allowed_execOne imem _

/-- `lui x1, 2; csrrs x0, mstatus, x1; addi x2, x0, 3; fcvt.s.w f1, x2; fmul.s f2, f1, f1; fsw f2, 16(x0)`. -/
def squareImage : Imem :=
  imageOf [encode (.lui 1#5 2#20), encode (.csr .rs 0#5 1#5 0x300#12), encode (.aluImm .addi 2#5 0#5 3#12),
    encodeFp (.op (.ofInt false .single 0b000#3 1#5 2#5)), encodeFp (.op (.arith .mul .single 0b000#3 2#5 1#5 1#5)),
    encodeFp (.store .single 0#5 2#5 16#12)]

/-- The out-of-order core is switched on before two FP instructions. -/
def squareOooImage : Imem :=
  imageOf [encode (.lui 1#5 2#20), encode (.csr .rs 0#5 1#5 0x300#12), csrOooOn,
    encodeFp (.op (.ofInt false .single 0b000#3 1#5 1#5)), encodeFp (.op (.arith .mul .single 0b000#3 2#5 1#5 1#5))]

theorem undisturbed_square : Undisturbed squareOooImage zeroPowerUp (fun _ => zeroNets) 8 (8 + 12) where
  off := by decide +kernel
  on t hbt htN := by
    have h : ∀ u < 21, 8 ≤ u → oooEn (run squareOooImage zeroPowerUp (fun _ => zeroNets) u) = true := by decide +kernel
    exact h t (by omega) hbt
  dest := by decide +kernel
  sound t hbt htN := by
    have h : ∀ u < 20, 8 ≤ u → Sound zeroNets (run squareOooImage zeroPowerUp (fun _ => zeroNets) u) := by
      decide +kernel
    exact h t htN hbt

end Runs

end VMate.IsaFpRun
