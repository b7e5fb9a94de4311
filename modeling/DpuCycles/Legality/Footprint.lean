import DpuCycles.Legality.Job
import DpuCycles.Number.Multiple
import DpuCycles.Number.Rounded

namespace DpuCycles

/-!
# Local memory of a job

The input, the second operand and the output each take whole pages.  An output
that overwrites the input takes none of its own.

Extents and halos are not bounded before memory is counted, so the counts may need
more bits than the words they are kept in.  What is kept of a count is therefore a
parameter: the memory that jobs are admitted by keeps words of 64 bits, the exact
one keeps everything.
-/

/-- Bytes of local memory a job takes. -/
structure Footprint where
  /-- All bytes together. -/
  total : Nat
  input : Nat
  weights : Nat
  output : Nat
  inPlace : Bool
  overhead : Nat
  ignoreOverhead : Bool
  deriving Repr, DecidableEq

namespace Footprint

variable (keep : Nat → Nat)

/-- A size in whole pages.  Pages of at most one byte change nothing. -/
def wholePages
    (size page : Nat) : Nat :=
  if page ≤ 1 then size else keep (roundUp size page)

/-- One extent changed by a halo on both sides, not below zero. -/
def adjusted
    (extent : Nat)
    (change : Int) : Nat :=
  ((extent : Int) + change).toNat

/-- Elements of a tensor without its halo. -/
def volumeWithout
    (shape : Shape)
    (halo : Halo) : Nat :=
  keep
    (adjusted shape.width (-(halo.left + halo.right)) *
      adjusted shape.height (-(halo.top + halo.bottom)) *
      adjusted shape.channels (-(halo.front + halo.back)) * shape.batch)

/-- Elements of a tensor together with its halo. -/
def volumeWith
    (shape : Shape)
    (halo : Halo) : Nat :=
  keep
    (adjusted shape.width (halo.left + halo.right) *
      adjusted shape.height (halo.top + halo.bottom) *
      adjusted shape.channels (halo.front + halo.back) * shape.batch)

/-- Bytes of elements, with one more bit for each when a map of the zeros goes along. -/
def tensorBytes
    (tensor : Tensor)
    (volume : Nat) : Nat :=
  keep (volume * tensor.dtype.bytes + if tensor.sparse then ceilDiv volume 8 else 0)

/-- Bytes of the input. -/
def inputBytes (job : Job) : Nat :=
  let shape := job.input.shape
  if job.pointerTable.active then
    keep
      (job.pointerTable.pointers.volume * 4 +
        job.pointerTable.activators.volume * job.input.dtype.bytes)
  else if job.operation = .channelMajor then
    let channels := if shape.channels < 5 then 4 else 16
    tensorBytes keep job.input (keep (shape.width * shape.height * channels * shape.batch))
  else
    tensorBytes keep job.input (volumeWithout keep shape job.halo.input)

/-- Bytes of the output. -/
def outputBytes (job : Job) : Nat :=
  tensorBytes keep job.output (volumeWith keep job.output.shape job.halo.inbound)

/-- Weights of one output channel. -/
def kernelElements (job : Job) : Nat :=
  match job.family with
  | .convolution => job.kernel.area * job.input.shape.channels
  | .channelMajor => job.kernel.area * job.input.shape.channels
  | .depthwise => job.kernel.area
  | .eltwise => 0
  | .maxPool => 0

/-- Bits of the weights of one output channel, packed. -/
def kernelBits (job : Job) : Nat :=
  kernelElements job * job.weights.dtype.bits

/-- Bytes of the kernel of one output channel, in words of 32. -/
def kernelBytes (job : Job) : Nat :=
  roundUp (ceilDiv (keep (kernelBits job)) 8) 32

/-- Whole bytes of a size that a fraction of zeros saves. -/
def savedBytes
    (size : Nat)
    (sparsity : Float32) : Nat :=
  min (Rounded.ofNat size * Rounded.ofFloat32 sparsity).toNat size

/-- Elements that the map of the zeros of one kernel counts. -/
def mapElements (job : Job) : Nat :=
  job.input.shape.channels * job.kernel.width * job.kernel.height

/-- Bytes of the kernels of all output channels with their tables. -/
def kernelsBytes (job : Job) : Nat :=
  let channels := job.output.shape.channels
  let size := keep (kernelBytes keep job * channels)
  let stored :=
    if job.weights.sparse then
      size - savedBytes size job.weightSparsity +
        channels * roundUp (ceilDiv (keep (mapElements job)) 8) 16
    else
      size
  keep (stored + if job.family.hasWeightTable then 16 * channels else 0)

/-- Bytes of the second operand. -/
def weightsBytes (job : Job) : Nat :=
  match job.family with
  | .maxPool => 0
  | .eltwise =>
      if job.weightless?.getD false then
        0
      else
        keep (keep job.weights.shape.volume * job.weights.dtype.bytes)
  | _ => kernelsBytes keep job

/-- Whether the output overwrites the input. -/
def overwritesInput (job : Job) : Bool :=
  match job.family with
  | .eltwise =>
      job.inPlace?.getD
        (job.input.layout == job.output.layout &&
          job.input.dtype.bytes == job.output.dtype.bytes)
  | _ => false

/-- Local memory of a job, of whose counts something is kept. -/
def sized
    (table : Capability)
    (ignoreOverhead : Bool)
    (job : Job) : Footprint :=
  let input := wholePages keep (inputBytes keep job) table.page
  let weights := wholePages keep (weightsBytes keep job) table.page
  let output := wholePages keep (outputBytes keep job) table.page
  let inPlace := overwritesInput job
  { total :=
      keep
        ((if ignoreOverhead then 0 else table.cmxOverhead) + input + weights +
          if inPlace then 0 else output)
    input := input
    weights := weights
    output := output
    inPlace := inPlace
    overhead := table.cmxOverhead
    ignoreOverhead := ignoreOverhead }

/-- Local memory of a job, counted in words of 64 bits. -/
def ofJob
    (table : Capability)
    (ignoreOverhead : Bool)
    (job : Job) : Footprint :=
  sized (word 64) table ignoreOverhead job

/-- Local memory of a job, counted in full. -/
def inFull
    (table : Capability)
    (ignoreOverhead : Bool)
    (job : Job) : Footprint :=
  sized id table ignoreOverhead job

end Footprint

end DpuCycles
