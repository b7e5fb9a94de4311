import DpuCycles.Legality.Family

namespace DpuCycles

/-!
# Jobs

A job is a workload in the form everything downstream reads: its family is
chosen and its second operand is made explicit.  Footprints, costs and
descriptors are functions of jobs.
-/

/-- A workload with its family and its second operand. -/
structure Job where
  device : Device
  operation : Operation
  family : Family
  input : Tensor
  weights : Tensor
  output : Tensor
  kernel : Extent
  stride : Extent
  padding : Padding
  mode : ExecutionMode
  activation : Activation
  inputSparsity : Float32
  weightSparsity : Float32
  inputSwizzling : Swizzling
  weightSwizzling : Swizzling
  outputSwizzling : Swizzling
  writeTiles : Nat
  isiStrategy : IsiStrategy
  offset : Offset
  halo : HaloExchange
  pointerTable : PointerTable
  inPlace? : Option Bool
  weightless? : Option Bool
  deriving Repr, DecidableEq

namespace Job

/-- The job of a workload in a family. -/
def ofWorkload
    (workload : Workload)
    (family : Family) : Job where
  device := workload.device
  operation := workload.operation
  family := family
  input := workload.input
  weights :=
    family.weights workload.input workload.output workload.kernel workload.weightType
      workload.sparseWeights
  output := workload.output
  kernel := workload.kernel
  stride := workload.stride
  padding := workload.padding
  mode := workload.mode
  activation := workload.activation
  inputSparsity := workload.inputSparsity
  weightSparsity := workload.weightSparsity
  inputSwizzling := workload.inputSwizzling
  weightSwizzling := workload.weightSwizzling
  outputSwizzling := workload.outputSwizzling
  writeTiles := workload.writeTiles
  isiStrategy := workload.isiStrategy
  offset := workload.offset
  halo := workload.halo
  pointerTable := workload.pointerTable
  inPlace? := workload.inPlace?
  weightless? := workload.weightless?

/-- Whether the operands are multiplied in floating point. -/
def multipliesAsFloat (job : Job) : Bool :=
  DataType.multipliesAsFloat job.input.dtype job.weights.dtype

end Job

end DpuCycles
