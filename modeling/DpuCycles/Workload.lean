import DpuCycles.Device
import DpuCycles.Execution
import DpuCycles.Operation
import DpuCycles.Tensor

namespace DpuCycles

/-!
# Workloads

A workload is the unit of work one processor executes: one input tensor, one
output tensor, and how the one is computed from the other.
-/

/-- Rows, columns and channels exchanged with the neighbours along each edge. -/
structure Halo where
  top : Int
  bottom : Int
  left : Int
  right : Int
  front : Int
  back : Int
  deriving Repr, DecidableEq

namespace Halo

/-- No exchange. -/
def none : Halo := ⟨0, 0, 0, 0, 0, 0⟩

/-- The six amounts in order. -/
def toList (halo : Halo) : List Int :=
  [halo.top, halo.bottom, halo.left, halo.right, halo.front, halo.back]

/-- No amount is negative. -/
def isNonnegative (halo : Halo) : Bool :=
  halo.toList.all fun amount => decide (0 ≤ amount)

/-- All amounts are zero. -/
def isZero (halo : Halo) : Bool :=
  halo.toList.all fun amount => amount == 0

end Halo

/--
The halos of a workload.  The input in memory is the computed one less `input`;
the output in memory is the computed one plus `inbound`.  `output` and its
broadcast counts describe what is written to other tiles.
-/
structure HaloExchange where
  input : Halo
  output : Halo
  outputBroadcast : Halo
  inbound : Halo
  deriving Repr, DecidableEq

namespace HaloExchange

/-- No exchange at all. -/
def none : HaloExchange := ⟨.none, .none, .none, .none⟩

/-- All halos are zero. -/
def isEmpty (exchange : HaloExchange) : Bool :=
  exchange.input.isZero && exchange.output.isZero && exchange.outputBroadcast.isZero &&
    exchange.inbound.isZero

end HaloExchange

/-- Input activations that are reached through a table of pointers. -/
structure PointerTable where
  active : Bool
  pointers : Shape
  activators : Shape
  noSparseMap : Bool
  deriving Repr, DecidableEq

namespace PointerTable

/-- No pointer table. -/
def none : PointerTable := ⟨false, ⟨0, 0, 0, 0⟩, ⟨0, 0, 0, 0⟩, true⟩

end PointerTable

/-- One unit of work. -/
structure Workload where
  device : Device
  operation : Operation
  input : Tensor
  output : Tensor
  kernel : Extent
  stride : Extent
  padding : Padding
  mode : ExecutionMode
  activation : Activation
  /-- Fraction of zeros in the input. -/
  inputSparsity : Float32
  /-- Fraction of zeros in the weights. -/
  weightSparsity : Float32
  inputSwizzling : Swizzling
  weightSwizzling : Swizzling
  outputSwizzling : Swizzling
  /-- Tiles the output is written to. -/
  writeTiles : Nat
  /-- Position inside the layer the workload was cut from. -/
  offset : Offset
  isiStrategy : IsiStrategy
  /-- The weights are stored without their zeros. -/
  sparseWeights : Bool
  halo : HaloExchange
  pointerTable : PointerTable
  /-- Type of the weights, that of the input when absent. -/
  weightType? : Option DataType
  /-- Whether the output overwrites the input, decided by the tensors when absent. -/
  inPlace? : Option Bool
  /-- Whether an elementwise operation has no second input. -/
  weightless? : Option Bool
  layerInfo : String
  deriving Repr, DecidableEq

namespace Workload

/-- A workload with a kernel of one point and every option at its default. -/
def plain
    (device : Device)
    (operation : Operation)
    (input output : Tensor)
    (mode : ExecutionMode) : Workload where
  device := device
  operation := operation
  input := input
  output := output
  kernel := ⟨1, 1⟩
  stride := ⟨1, 1⟩
  padding := ⟨0, 0, 0, 0⟩
  mode := mode
  activation := .none
  inputSparsity := 0
  weightSparsity := 0
  inputSwizzling := .key0
  weightSwizzling := .key0
  outputSwizzling := .key0
  writeTiles := 1
  offset := ⟨0, 0, 0, 0⟩
  isiStrategy := .clustering
  sparseWeights := false
  halo := .none
  pointerTable := .none
  weightType? := none
  inPlace? := none
  weightless? := none
  layerInfo := ""

/-- Set the kernel, its stride and the padding. -/
def withKernel
    (workload : Workload)
    (kernel stride : Extent)
    (padding : Padding) : Workload :=
  { workload with kernel := kernel, stride := stride, padding := padding }

/-- Set the address permutations. -/
def withSwizzling
    (workload : Workload)
    (input weights output : Swizzling) : Workload :=
  { workload with
    inputSwizzling := input, weightSwizzling := weights, outputSwizzling := output }

/-- Mark the input as sparse. -/
def withInputSparsity
    (workload : Workload)
    (sparsity : Float32) : Workload :=
  { workload with
    input := { workload.input with sparse := true }, inputSparsity := sparsity }

/-- Mark the weights as sparse. -/
def withWeightSparsity
    (workload : Workload)
    (sparsity : Float32) : Workload :=
  { workload with sparseWeights := true, weightSparsity := sparsity }

/-- Set the number of tiles the output is written to. -/
def withWriteTiles
    (workload : Workload)
    (tiles : Nat)
    (strategy : IsiStrategy) : Workload :=
  { workload with writeTiles := tiles, isiStrategy := strategy }

/-- Set the halos. -/
def withHalo
    (workload : Workload)
    (halo : HaloExchange) : Workload :=
  { workload with halo := halo }

/-- Type of the weights. -/
def weightType (workload : Workload) : DataType :=
  workload.weightType?.getD workload.input.dtype

/-- Both the input and the weights are sparse. -/
def isDual (workload : Workload) : Bool :=
  workload.input.sparse && workload.sparseWeights

/-- The workload with a dense input. -/
def withoutInputSparsity (workload : Workload) : Workload :=
  { workload with
    input := { workload.input with sparse := false }, inputSparsity := 0 }

/-- The workload with dense weights. -/
def withoutWeightSparsity (workload : Workload) : Workload :=
  { workload with sparseWeights := false, weightSparsity := 0 }

end Workload

end DpuCycles
