import DpuCycles.Cycles
import DpuCycles.Estimate.SkippedWork

namespace DpuCycles

/-!
# Cycles in closed form

A job takes the longer of two times: that of its multiplications, and that of
reading its operands from the local memory.  Zeros in the operands earn nothing
here, padded zeros apart.
-/

namespace Job

/-- Outputs computed at once for operations without multiplications. -/
def elementsPerCycle
    (job : Job)
    (hardware : Hardware) : Nat :=
  max (hardware.postProcessors / if 1 < job.writeTiles then 2 else 1) 1

/-- Multiplications of a job, of one input channel each unless it sums over channels. -/
def closedFormWork
    (job : Job)
    (hardware : Hardware) : Nat :=
  let work :=
    if job.operation.isElementwise then
      ceilDiv job.input.volume (job.elementsPerCycle hardware)
    else
      job.kernel.area * job.output.volume
  if job.operation.isConvolution then
    work * job.input.shape.channels - job.skippedMacs
  else
    work

/-- Multipliers that work for a job at once. -/
def closedFormMacs
    (job : Job)
    (hardware : Hardware) : Nat :=
  if job.operation.isConvolution then
    hardware.macs
  else
    max (hardware.macs / max hardware.channelsPerMac 1) 1

/-- Cycles of the multiplications. -/
def computeCycles
    (job : Job)
    (hardware : Hardware) : Nat :=
  let cycles := ceilDiv (job.closedFormWork hardware) (job.closedFormMacs hardware)
  if job.multipliesAsFloat then cycles * hardware.floatCostRatio else cycles

/--
Elements read: the input once for each block of output channels, the weights
once for each block of the plane.
-/
def elementsRead (job : Job) : Rounded :=
  let cuboid := job.mode.cuboid
  let output := job.output.shape
  let channelBlocks := Rounded.ofNat (ceilDiv output.channels cuboid.channels)
  let planeBlocks :=
    Rounded.ofNat (ceilDiv output.height cuboid.height) *
      Rounded.ofNat (ceilDiv output.width cuboid.width)
  let inputChannels := Rounded.ofNat job.input.shape.channels
  let kernelArea := Rounded.ofNat job.kernel.area
  let activations :=
    channelBlocks * .ofNat output.height * .ofNat output.width * inputChannels * kernelArea
  let weights := planeBlocks * .ofNat output.channels * inputChannels * kernelArea
  activations + weights

/-- Cycles of reading the operands, nothing on generations without cuboids. -/
def readCycles
    (job : Job)
    (hardware : Hardware) : Nat :=
  if job.device.isCuboid then
    let bytes := job.elementsRead * .ofNat job.input.dtype.bytes
    let reads := bytes / (.ofNat hardware.cmxWordBytes * .ofNat hardware.cmxReadPorts)
    (reads * .ofNat hardware.cmxClock / .ofNat hardware.dpuClock).ceil.toNat
  else
    0

/-- Cycles of a job in closed form. -/
def closedFormCycles
    (job : Job)
    (hardware : Hardware) : Nat :=
  Cycles.clamp (max (job.computeCycles hardware) (job.readCycles hardware))

/-- Cycles of a job in closed form; sums over channels never end without multipliers. -/
def closedFormCycles?
    (job : Job)
    (hardware : Hardware) : Option Nat :=
  if job.closedFormMacs hardware = 0 then none else some (job.closedFormCycles hardware)

end Job

end DpuCycles
