import VMate.RatRob
import VMate.LrSc
import VMate.OooSpace

namespace VMate.TopUnits

open RiscvTop OooTrap OooWindow OooSpace RatRob LrSc IqFate

variable (imem : Imem) (p : PowerUp) (o : Nat → OpenNets)

section Inputs

/-- What `riscv_top` feeds to `rob` in each cycle. -/
def robIns (t : Nat) : Rob.RobIn 4 := robIn (o t) (run imem p o t)

def iqIns (t : Nat) : Iq.IqIn := iqIn (o t) (run imem p o t)

def dmemIns (t : Nat) : Dmem.DmemIn := dmemIn (run imem p o t)

end Inputs

section Runs

theorem wired_robIn (o : OpenNets) (s : RiscvTop.State) : wired s.rob (robIn o s) = robIn o s := by
  have hd : (dispatchEn s && !Rob.robFull s.rob) = dispatchEn s := by
    cases h : dispatchEn s with
    | false => rfl
    | true =>
        have hfull : Rob.robFull s.rob = false := (dispatchEn_spec h).2.2.2.2.1
        rw [hfull]
        rfl
  change { robIn o s with dispatchEn := dispatchEn s && !Rob.robFull s.rob } = robIn o s
  rw [hd]
  rfl

/-- The pair of `rob` and `rat` runs inside `riscv_top` as it does alone. -/
theorem pairRun_top (n : Nat) :
    pairRun (robIns imem p o) n = ⟨(run imem p o n).rob, (run imem p o n).rat⟩ := by
  induction n with
  | zero => rfl
  | succ n ih =>
      rw [pairRun, ih, pairTick, robIns, wired_robIn]
      rfl

theorem iqRun_top (n : Nat) : iqRun p.iqPayload (iqIns imem p o) n = (run imem p o n).iq := by
  induction n with
  | zero => rfl
  | succ n ih =>
      rw [iqRun, ih]
      rfl

theorem dmemRun_top (n : Nat) : dmemRun p.mem (dmemIns imem p o) n = (run imem p o n).dmem := by
  induction n with
  | zero => rfl
  | succ n ih =>
      rw [dmemRun, ih]
      rfl

end Runs

section Consequences

/-- In every reachable state of `riscv_top` the RAT maps a register to the
youngest entry that writes it. -/
theorem coherent_top (n : Nat) : Coherent (run imem p o n).rob (run imem p o n).rat := by
  have h := (coherent_run (robIns imem p o) n).2
  rwa [pairRun_top] at h

/-- An SC in MEM succeeds exactly if the last LR or SC that was in MEM before
it was an LR to its address. -/
theorem scSuccess_top (n : Nat) :
    Dmem.scSuccess (run imem p o n).dmem (dmemIn (run imem p o n)) = true ↔
      reservedBy (dmemIns imem p o) n (run imem p o n).exMem.aluResult := by
  have h := scSuccess_iff p.mem (dmemIns imem p o) n
  rwa [dmemRun_top] at h

/-- Every dispatch of `riscv_top` finds room in the issue queue and is held,
issued or dropped in every later cycle. -/
theorem fate_top {n t : Nat} (hstay : StaysOn imem p o n) (hd : dispatchEn (run imem p o n) = true) (hnt : n < t) :
    ∃! f, inFate p.iqPayload (iqIns imem p o) n t f := by
  obtain ⟨hooo, hflush, -⟩ := dispatchEn_spec hd
  have hroom : Iq.iqFull (iqRun p.iqPayload (iqIns imem p o) n) = false := by
    rw [iqRun_top]
    exact iqFull_of_one (iqInv_run hstay).one
  obtain ⟨f, hf⟩ := fate_exists ⟨hooo, hflush, hd, hroom⟩ hnt
  exact ⟨f, hf, fun g hg => fate_unique hg hf⟩

end Consequences

end VMate.TopUnits
