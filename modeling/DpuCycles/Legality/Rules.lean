import DpuCycles.Legality.Finding

namespace DpuCycles

/-!
# The rules of a legal job

Each group of rules yields the findings of the rules that are broken, in a fixed
order.  A job is legal when no rule is broken.
-/

/--
Output extent along one axis, `none` when the kernel does not fit into the
padded input or steps nowhere.  The quotient is kept as a 32-bit word.
-/
def outputExtent?
    (input before after kernel stride : Nat) : Option Nat :=
  if stride = 0 ∨ kernel = 0 ∨ input + before + after < kernel then
    none
  else
    some ((input + before + after - kernel) / stride % 2 ^ 32 + 1)

namespace Rules

/-- The finding of a rule unless it holds. -/
def require
    (holds : Bool)
    (finding : Finding) : List Finding :=
  if holds then [] else [finding]

/-- Options of the generation: mode, permutations, tiles written to. -/
def deviceOptions
    (table : Capability)
    (job : Job) : List Finding :=
  let tiles := job.writeTiles
  let splits := job.isiStrategy == .splitOverK
  require (table.modes.contains job.mode) (.mode job.mode table.modes) ++
    require (table.swizzlings.contains job.inputSwizzling)
      (.operandSwizzling 0 job.inputSwizzling) ++
    require (table.swizzlings.contains job.weightSwizzling)
      (.operandSwizzling 1 job.weightSwizzling) ++
    require (table.swizzlings.contains job.outputSwizzling)
      (.outputSwizzling job.outputSwizzling) ++
    require (table.writeTiles.contains tiles) (.writeTiles tiles table.writeTiles) ++
    require (job.family.allowsWriteTiles tiles) (.writeTilesOfOperation tiles job.operation) ++
    require (table.isiStrategies.contains job.isiStrategy) (.isiStrategy job.isiStrategy) ++
    require (!splits || decide (1 < tiles)) .channelSplitToOneTile ++
    require (decide (tiles ≤ 1) || splits)
      (.severalTilesWithoutChannelSplit tiles job.isiStrategy)

/-- One extent of the plane lies between one and the limit. -/
def extent
    (table : Capability)
    (side : Side)
    (axis : Axis)
    (value : Nat) : List Finding :=
  require (decide (1 ≤ value ∧ value ≤ table.spatialMax))
    (.extent side axis value table.spatialMax)

/-- Types, layouts and extents of the tensors. -/
def tensors
    (table : Capability)
    (job : Job) : List Finding :=
  let input := job.input
  let output := job.output
  let accepted := table.inputChannels job.operation
  require (table.dataTypes.contains input.dtype) (.dataType .input input.dtype) ++
    require (table.dataTypes.contains output.dtype) (.dataType .output output.dtype) ++
    require (!job.family.hasWeights || table.dataTypes.contains job.weights.dtype)
      (.weightType job.weights.dtype) ++
    require (table.layouts.contains input.layout) (.layout .input input.layout) ++
    require (table.layouts.contains output.layout) (.layout .output output.layout) ++
    require (accepted.contains input.shape.channels)
      (.channels .input input.shape.channels accepted) ++
    require (table.outputChannels.contains output.shape.channels)
      (.channels .output output.shape.channels table.outputChannels) ++
    require (!job.operation.keepsChannels || input.shape.channels == output.shape.channels)
      (.differentChannels job.operation input.shape.channels output.shape.channels) ++
    extent table .input .width input.shape.width ++
    extent table .input .height input.shape.height ++
    extent table .output .width output.shape.width ++
    extent table .output .height output.shape.height ++
    require (input.shape.batch == output.shape.batch)
      (.differentBatches input.shape.batch output.shape.batch) ++
    require (input.shape.batch == 1) (.batch input.shape.batch)

/-- A stride is within its bound and not larger than the input. -/
def stride
    (limit : Nat)
    (axis : Axis)
    (value input : Nat) : List Finding :=
  require (decide (1 ≤ value ∧ value ≤ limit)) (.stride axis value limit) ++
    require (decide (value ≤ max input 1)) (.strideBeyondInput axis value input)

/-- Padding is at most half the kernel. -/
def padding
    (edge : Edge)
    (value kernel : Nat) : List Finding :=
  require (decide (value ≤ kernel / 2)) (.padding edge value (kernel / 2))

/-- An output extent is the one the input, kernel, stride and padding give. -/
def outputExtent
    (axis : Axis)
    (value : Nat)
    (expected : Option Nat) : List Finding :=
  require (expected == some value) (.outputExtent axis value expected)

/-- The kernel, its stride and the padding fit each other and the tensors. -/
def kernel
    (table : Capability)
    (job : Job) : List Finding :=
  let kernelMax := job.family.kernelMax table
  let strideMax := job.family.strideMax table
  let input := job.input.shape
  let output := job.output.shape
  let kernel := job.kernel
  let edges := job.padding
  require (decide (1 ≤ kernel.width ∧ kernel.width ≤ kernelMax))
      (.kernel .width kernel.width kernelMax) ++
    require (decide (1 ≤ kernel.height ∧ kernel.height ≤ kernelMax))
      (.kernel .height kernel.height kernelMax) ++
    stride strideMax .width job.stride.width input.width ++
    stride strideMax .height job.stride.height input.height ++
    padding .top edges.top kernel.height ++
    padding .bottom edges.bottom kernel.height ++
    padding .left edges.left kernel.width ++
    padding .right edges.right kernel.width ++
    outputExtent .width output.width
      (outputExtent? input.width edges.left edges.right kernel.width job.stride.width) ++
    outputExtent .height output.height
      (outputExtent? input.height edges.top edges.bottom kernel.height job.stride.height)

/-- A fraction of zeros lies between zero and one. -/
def isFraction (value : Float32) : Bool :=
  0 ≤ value && value ≤ 1

/-- Sparsity is given for sparse streams only, and only where the family allows it. -/
def sparsity (job : Job) : List Finding :=
  require (isFraction job.inputSparsity) (.sparsity .activations job.inputSparsity) ++
    require (isFraction job.weightSparsity) (.sparsity .weights job.weightSparsity) ++
    (if job.weights.sparse then
      require job.family.allowsWeightSparsity (.sparseWeightsOfOperation job.operation)
    else
      require (job.weightSparsity == 0) .sparsityOfDenseWeights) ++
    (if job.input.sparse then
      require job.family.allowsInputSparsity (.sparseInputOfOperation job.operation)
    else
      require (job.inputSparsity == 0) .sparsityOfDenseInput)

/-- An edge is padded or shared with a neighbour, not both. -/
def paddingOrHalo
    (edge : Edge)
    (padding : Nat)
    (halo : Int) : List Finding :=
  require (padding == 0 || halo == 0) (.paddingAndHalo edge padding halo)

/-- A halo of the output side is not negative, and zero where it is not supported. -/
def outputHalo
    (table : Capability)
    (kind : OutputHalo)
    (halo : Halo) : List Finding :=
  require halo.isNonnegative (.negativeOutputHalo kind halo) ++
    require (table.outputHalo || halo.isZero) (.outputHaloOfDevice kind table.device)

/-- Rules of the halos. -/
def halo
    (table : Capability)
    (job : Job) : List Finding :=
  let exchange := job.halo
  require (table.negativeInputHalo || exchange.input.isNonnegative)
      (.negativeInputHalo exchange.input) ++
    paddingOrHalo .top job.padding.top exchange.input.top ++
    paddingOrHalo .bottom job.padding.bottom exchange.input.bottom ++
    paddingOrHalo .left job.padding.left exchange.input.left ++
    paddingOrHalo .right job.padding.right exchange.input.right ++
    outputHalo table .written exchange.output ++
    outputHalo table .broadcast exchange.outputBroadcast ++
    outputHalo table .inbound exchange.inbound

/-- Rules of a pointer table in use. -/
def pointerTable (job : Job) : List Finding :=
  if job.pointerTable.active then
    require job.family.allowsPointerTable (.pointerTableOfOperation job.operation) ++
      require (job.pointerTable.pointers.channels == 1)
        (.pointerTableChannels job.pointerTable.pointers.channels) ++
      require (job.operation != .channelMajor) .pointerTableOfChannelMajor
  else
    []

/-- Every broken rule of a job. -/
def findings
    (table : Capability)
    (job : Job) : List Finding :=
  deviceOptions table job ++ tensors table job ++ kernel table job ++ sparsity job ++
    halo table job ++ pointerTable job

end Rules

end DpuCycles
