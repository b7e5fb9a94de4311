import DpuCycles.Cycles
import DpuCycles.Legality.Job
import DpuCycles.Number.Multiple
import DpuCycles.Number.Single

namespace DpuCycles

/-!
# Ideal cycles and utilisation

The ideal cycles of a job are those of its multiplications on an array that is
always fed.  Against them the cycles a job really takes tell how well the array
is used, and how much energy is spent.
-/

/-- Multiplications and the cycles they take on an array that is always fed. -/
structure IdealCycles where
  /-- Multiplications that remain when zeros are skipped. -/
  sparseMacs : Nat
  denseMacs : Nat
  /-- Cycles of the remaining multiplications. -/
  powerCycles : Nat
  /-- Cycles of all multiplications. -/
  efficiencyCycles : Nat
  deriving Repr, DecidableEq

namespace IdealCycles

/-- Nothing to do. -/
def zero : IdealCycles := ⟨0, 0, 0, 0⟩

end IdealCycles

namespace Hardware

/--
Multiplications per cycle.  In floating point several multipliers join for one;
their ratio is positive.
-/
def macsPerCycle
    (hardware : Hardware)
    (float : Bool) : Nat :=
  if float then ceilDiv hardware.macs hardware.floatCostRatio else hardware.macs

end Hardware

/-- Fraction of values that are not zero. -/
def density
    (sparse : Bool)
    (sparsity : Float32) : Rounded :=
  if sparse then (Rounded.ofFloat32 sparsity).complement else .one

namespace Job

/-- Input channels the array works on; cuboids are filled up to sixteen. -/
def idealChannels (job : Job) : Nat :=
  let channels := job.input.shape.channels
  if job.device.isCuboid then max channels 16 else channels

/-- Multiplications of a job, zeros included. -/
def idealMacs (job : Job) : Nat :=
  match job.family with
  | .convolution => job.kernel.area * job.output.volume * job.idealChannels
  | .channelMajor => job.kernel.area * job.output.volume * job.idealChannels
  | .eltwise => job.input.volume
  | .depthwise => job.kernel.area * job.output.volume
  | .maxPool => job.kernel.area * job.output.volume

/-- Fraction of multiplications that remain: the sparser operand decides. -/
def remaining (job : Job) : Rounded :=
  (density job.input.sparse job.inputSparsity).least
    (density job.weights.sparse job.weightSparsity)

/-- Ideal cycles of a job. -/
def idealCycles
    (job : Job)
    (hardware : Hardware) : IdealCycles :=
  let dense := job.idealMacs
  let sparse := (Rounded.ofNat dense * job.remaining).ceil.toNat
  let perCycle := max (hardware.macsPerCycle job.multipliesAsFloat) 1
  ⟨sparse, dense, ceilDiv sparse perCycle, ceilDiv dense perCycle⟩

/-- Ideal cycles of a job; no multipliers can be joined at a ratio of zero. -/
def idealCycles?
    (job : Job)
    (hardware : Hardware) : Option IdealCycles :=
  if job.multipliesAsFloat && hardware.floatCostRatio == 0 then
    none
  else
    some (job.idealCycles hardware)

end Job

/-- Ideal cycles over the cycles of a scalar, zero when the scalar is zero or an error. -/
def utilization
    (scalar ideal : Nat) : Float32 :=
  if scalar = 0 ∨ Cycles.isError scalar then
    0
  else
    float32OfNat ideal / float32OfNat scalar

/-- Everything known about the cost of one workload; what is not known is zero. -/
structure CostReport where
  /-- The cost as a scalar. -/
  scalar : Nat
  info : String
  /-- Output of the network, or the cycles in closed form. -/
  raw : Float32
  closedForm : Nat
  ideal : IdealCycles
  deriving Repr, DecidableEq

namespace CostReport

/-- Use of the multipliers when zeros are skipped. -/
def macUtilization (report : CostReport) : Float32 :=
  utilization report.scalar report.ideal.powerCycles

/-- Use of the multipliers when zeros are multiplied. -/
def efficiency (report : CostReport) : Float32 :=
  utilization report.scalar report.ideal.efficiencyCycles

/-- Energy of a workload, in cycles of the whole array. -/
def energy (report : CostReport) : Float32 :=
  if Cycles.isError report.scalar then
    0
  else
    report.macUtilization * float32OfNat report.scalar

end CostReport

end DpuCycles
