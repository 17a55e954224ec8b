import VMate.InOrderRun
import VMate.InOrderTrap
import VMate.OooFlush
import VMate.OooFlags
import VMate.OooResult
import VMate.RobOutcome
import VMate.DecodeIllegal
import VMate.FsDirty
import VMate.TopUnits
import VMate.OooFpCtrl
import VMate.OooSwitchWrite
import VMate.Rv32i
import VMate.Ieee
import VMate.FpRound
import VMate.FpOrder
import VMate.BoxTransparent
import VMate.IeeeArith
import VMate.FmaExact
import VMate.FpResult
import VMate.FpConvert
import VMate.FpToInt
import VMate.FpDiv
import VMate.RootRounding
import VMate.FpSqrt
import VMate.FmaFinite
import VMate.CsrRmw
import VMate.Bytes
import VMate.DmemBytes
import VMate.DmemAmo
import VMate.IqHead
import VMate.RatProducer
import VMate.PackRange
import VMate.Progress
import VMate.IsaTrap
import VMate.IsaRun
import VMate.OooStuck
import VMate.Uninit
import VMate.RiscvSva
import VMate.IsaFpRun
