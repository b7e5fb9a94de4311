import DpuCycles.Proofs.Legality.ExactMemory
import Mathlib.Tactic.MkIffOfInductiveProp

namespace DpuCycles

/-!
# The rules as they are documented

The documented rules speak about a workload as it is given, by its canonical
operation and its canonical channels, and list what each generation accepts.  They
know of no tables, families or findings.

Each group of findings about the canonical job is empty exactly when the documented
rules of that group hold.  So the documented rules decide which workloads are
admitted, once the generation, the operation and the local memory have been looked
at, in this order.
-/

/-- One axis of the plane, with the padding in front of it and behind it. -/
structure Span where
  input : Nat
  output : Nat
  kernel : Nat
  stride : Nat
  before : Nat
  after : Nat
  deriving Repr, DecidableEq

/-- The rules of one axis, given the greatest kernel and the greatest stride. -/
@[mk_iff]
structure Span.Conforms
    (span : Span)
    (kernelMax strideMax : Nat) : Prop where
  input : 1 ≤ span.input ∧ span.input ≤ 8192
  output : 1 ≤ span.output ∧ span.output ≤ 8192
  kernel : 1 ≤ span.kernel ∧ span.kernel ≤ kernelMax
  stride : 1 ≤ span.stride ∧ span.stride ≤ strideMax
  strideWithin : span.stride ≤ span.input
  beforeWithin : span.before ≤ span.kernel / 2
  afterWithin : span.after ≤ span.kernel / 2
  given :
    (span.output : Int) =
      ((span.input + span.before + span.after - span.kernel : Int) / span.stride) + 1

namespace Device

/-- The most tiles that an output is written to. -/
def writeTilesMax : Device → Nat
  | .vpu40 => 6
  | _ => 2

/-- Bytes of the local memory. -/
def localMemory : Device → Nat
  | .vpu40 => 1536 * 1024
  | _ => 2048 * 1024

/-- The table that decides about a generation.  Those without a table are refused unread. -/
def capability : Device → Capability
  | .vpu40 => .vpu40
  | _ => .vpu27

end Device

/-- Channel counts that fill whole blocks of the multipliers. -/
def FillsBlocks (channels : Nat) : Prop :=
  16 ≤ channels ∧ channels ≤ 8192 ∧ 16 ∣ channels

namespace Operation

/-- Channel counts of the input. -/
def Reads : Operation → Nat → Prop
  | .channelMajor, channels => 1 ≤ channels ∧ channels ≤ 15
  | .depthwise, channels => channels = 16 ∨ channels = 32 ∨ channels = 64
  | .maxPool, channels => channels = 16 ∨ channels = 32 ∨ channels = 64
  | .avePool, channels => channels = 16 ∨ channels = 32 ∨ channels = 64
  | _, channels => FillsBlocks channels

theorem Reads.pos
    {operation : Operation}
    {channels : Nat}
    (reads : operation.Reads channels) :
    0 < channels := by
  cases operation <;> simp only [Reads, FillsBlocks] at reads <;> omega

/-- Greatest kernel extent.  Elementwise operations take single points. -/
def kernelMax (operation : Operation) : Nat :=
  if operation.isElementwise then 1 else 11

/-- Greatest stride. -/
def strideMax (operation : Operation) : Nat :=
  if operation.isElementwise then 1 else 7

end Operation

namespace Workload

/-- Input channels in canonical form. -/
def canonicalChannels (workload : Workload) : Nat :=
  if workload.canonicalOperation.keepsChannels then
    workload.output.shape.channels
  else
    workload.input.shape.channels

def columns (workload : Workload) : Span where
  input := workload.input.shape.width
  output := workload.output.shape.width
  kernel := workload.kernel.width
  stride := workload.stride.width
  before := workload.padding.left
  after := workload.padding.right

def rows (workload : Workload) : Span where
  input := workload.input.shape.height
  output := workload.output.shape.height
  kernel := workload.kernel.height
  stride := workload.stride.height
  before := workload.padding.top
  after := workload.padding.bottom

/-- Options that the generation has. -/
@[mk_iff]
structure OptionsConform (workload : Workload) : Prop where
  mode :
    workload.mode = .cuboid16x16 ∨ workload.mode = .cuboid8x16 ∨ workload.mode = .cuboid4x16
  writeTiles : 1 ≤ workload.writeTiles ∧ workload.writeTiles ≤ workload.device.writeTilesMax
  elementwise : workload.canonicalOperation.isElementwise → workload.writeTiles = 1
  strategy : workload.isiStrategy = .splitOverK ↔ 1 < workload.writeTiles

/-- Layouts, channels and images of the tensors. -/
@[mk_iff]
structure TensorsConform (workload : Workload) : Prop where
  inputLayout : workload.input.layout ≠ .invalid
  outputLayout : workload.output.layout ≠ .invalid
  inputChannels : workload.canonicalOperation.Reads workload.canonicalChannels
  outputChannels : FillsBlocks workload.output.shape.channels
  oneInput : workload.input.shape.batch = 1
  oneOutput : workload.output.shape.batch = 1

/-- Both axes of the plane. -/
@[mk_iff]
structure PlaneConforms (workload : Workload) : Prop where
  columns :
    workload.columns.Conforms workload.canonicalOperation.kernelMax
      workload.canonicalOperation.strideMax
  rows :
    workload.rows.Conforms workload.canonicalOperation.kernelMax
      workload.canonicalOperation.strideMax

/-- Fractions of zeros, and which streams can be sparse. -/
@[mk_iff]
structure SparsityConforms (workload : Workload) : Prop where
  inputSparsity : 0 ≤ workload.inputSparsity ∧ workload.inputSparsity ≤ 1
  weightSparsity : 0 ≤ workload.weightSparsity ∧ workload.weightSparsity ≤ 1
  sparseWeights : workload.sparseWeights = true → workload.canonicalOperation = .convolution
  denseWeights : workload.sparseWeights = false → workload.weightSparsity == 0
  sparseInput :
    workload.input.sparse = true →
      workload.canonicalOperation = .convolution ∨ workload.canonicalOperation.isElementwise
  denseInput : workload.input.sparse = false → workload.inputSparsity == 0

/-- Halos, of which only the fourth generation has all. -/
@[mk_iff]
structure HalosConform (workload : Workload) : Prop where
  input : workload.device = .vpu40 ∨ workload.halo.input.isNonnegative
  top : workload.padding.top = 0 ∨ workload.halo.input.top = 0
  bottom : workload.padding.bottom = 0 ∨ workload.halo.input.bottom = 0
  left : workload.padding.left = 0 ∨ workload.halo.input.left = 0
  right : workload.padding.right = 0 ∨ workload.halo.input.right = 0
  output : workload.halo.output.isNonnegative
  outputBroadcast : workload.halo.outputBroadcast.isNonnegative
  inbound : workload.halo.inbound.isNonnegative
  supported :
    workload.device = .vpu40 ∨
      workload.halo.output.isZero ∧ workload.halo.outputBroadcast.isZero ∧
        workload.halo.inbound.isZero

/-- A pointer table in use has one channel, and only convolutions use one. -/
@[mk_iff]
structure PointersConform (workload : Workload) : Prop where
  operation : workload.pointerTable.active → workload.canonicalOperation = .convolution
  channels : workload.pointerTable.active → workload.pointerTable.pointers.channels = 1

/--
All documented rules of a workload.  None is about element types, address permutations
or, apart from the tiles, strategies: canonical form has only such as are accepted.
-/
@[mk_iff]
structure Conforms (workload : Workload) : Prop where
  options : workload.OptionsConform
  tensors : workload.TensorsConform
  plane : workload.PlaneConforms
  sparsity : workload.SparsityConforms
  halos : workload.HalosConform
  pointers : workload.PointersConform

/-- Family of the canonical operation.  Normalization has none and is refused unread. -/
def family (workload : Workload) : Family :=
  (Family.ofOperation? workload.canonicalOperation).getD .convolution

/-- The job of the canonical form. -/
def canonicalJob (workload : Workload) : Job :=
  .ofWorkload (workload.canonicalize.fold workload.device.capability) workload.family

end Workload

section Decidability

instance (channels : Nat) : Decidable (FillsBlocks channels) :=
  inferInstanceAs (Decidable (_ ∧ _ ∧ _))

instance (span : Span) (kernelMax strideMax : Nat) :
    Decidable (span.Conforms kernelMax strideMax) :=
  decidable_of_iff' _ (span.conforms_iff kernelMax strideMax)

instance : ∀ (operation : Operation) (channels : Nat), Decidable (operation.Reads channels)
  | .channelMajor, _ => inferInstanceAs (Decidable (_ ∧ _))
  | .depthwise, _ => inferInstanceAs (Decidable (_ ∨ _ ∨ _))
  | .maxPool, _ => inferInstanceAs (Decidable (_ ∨ _ ∨ _))
  | .avePool, _ => inferInstanceAs (Decidable (_ ∨ _ ∨ _))
  | .convolution, channels => inferInstanceAs (Decidable (FillsBlocks channels))
  | .eltwise, channels => inferInstanceAs (Decidable (FillsBlocks channels))
  | .eltwiseMul, channels => inferInstanceAs (Decidable (FillsBlocks channels))
  | .layerNorm, channels => inferInstanceAs (Decidable (FillsBlocks channels))

namespace Workload

variable (workload : Workload)

instance : Decidable workload.OptionsConform :=
  decidable_of_iff' _ workload.optionsConform_iff

instance : Decidable workload.TensorsConform :=
  decidable_of_iff' _ workload.tensorsConform_iff

instance : Decidable workload.PlaneConforms :=
  decidable_of_iff' _ workload.planeConforms_iff

instance : Decidable workload.SparsityConforms :=
  decidable_of_iff' _ workload.sparsityConforms_iff

instance : Decidable workload.HalosConform :=
  decidable_of_iff' _ workload.halosConform_iff

instance : Decidable workload.PointersConform :=
  decidable_of_iff' _ workload.pointersConform_iff

instance : Decidable workload.Conforms :=
  decidable_of_iff' _ workload.conforms_iff

end Workload

end Decidability

/-- Within the bounds of a word, an output extent is the rounded quotient and one. -/
theorem outputExtent?_eq_some_iff
    {input before after kernel stride output : Nat}
    (kernelPositive : 0 < kernel)
    (stridePositive : 0 < stride)
    (outputPositive : 0 < output)
    (small : input + before + after < 2 ^ 32) :
    outputExtent? input before after kernel stride = some output ↔
      (output : Int) = (input + before + after - kernel : Int) / stride + 1 := by
  unfold outputExtent?
  by_cases fits : input + before + after < kernel
  · -- A kernel that does not fit would give an output of no extent.
    have negative : (input + before + after - kernel : Int) / stride < 0 :=
      Int.ediv_neg_of_neg_of_pos (by omega) (by omega)
    rw [if_pos (by omega)]
    constructor
    · intro given
      contradiction
    · intro given
      omega
  · have numerator :
        (input + before + after - kernel : Int) =
          ((input + before + after - kernel : Nat) : Int) := by
      omega
    have quotient :
        (input + before + after - kernel) / stride ≤ input + before + after - kernel :=
      Nat.div_le_self _ _
    rw [if_neg (by omega), numerator, ← Int.natCast_ediv, Nat.mod_eq_of_lt (by omega),
      Option.some.injEq]
    omega

/-- The checks of one axis come to its rules. -/
theorem Span.checks_iff_conforms
    {span : Span}
    {kernelMax strideMax : Nat}
    (counted : kernelMax < 2 ^ 16) :
    ((1 ≤ span.input ∧ span.input ≤ 8192) ∧ (1 ≤ span.output ∧ span.output ≤ 8192) ∧
        (1 ≤ span.kernel ∧ span.kernel ≤ kernelMax) ∧
        ((1 ≤ span.stride ∧ span.stride ≤ strideMax) ∧ span.stride ≤ max span.input 1) ∧
        span.before ≤ span.kernel / 2 ∧ span.after ≤ span.kernel / 2 ∧
        outputExtent? span.input span.before span.after span.kernel span.stride =
          some span.output) ↔
      span.Conforms kernelMax strideMax := by
  constructor
  · rintro ⟨input, output, kernel, ⟨stride, strideWithin⟩, before, after, given⟩
    exact ⟨input, output, kernel, stride, by omega, before, after,
      (outputExtent?_eq_some_iff kernel.1 stride.1 output.1 (by omega)).mp given⟩
  · rintro ⟨input, output, kernel, stride, strideWithin, before, after, given⟩
    exact ⟨input, output, kernel, ⟨stride, by omega⟩, before, after,
      (outputExtent?_eq_some_iff kernel.1 stride.1 output.1 (by omega)).mpr given⟩

namespace Family

variable
  {operation : Operation}
  {family : Family}

theorem kernelMax_of_operation
    (table : Capability)
    (isFamily : ofOperation? operation = some family) :
    family.kernelMax table = if operation.isElementwise then 1 else table.kernelMax := by
  cases operation <;> cases isFamily <;> rfl

theorem strideMax_of_operation
    (table : Capability)
    (isFamily : ofOperation? operation = some family) :
    family.strideMax table = if operation.isElementwise then 1 else table.strideMax := by
  cases operation <;> cases isFamily <;> rfl

theorem allowsWriteTiles_of_operation
    (tiles : Nat)
    (isFamily : ofOperation? operation = some family) :
    family.allowsWriteTiles tiles = (!operation.isElementwise || tiles == 1) := by
  cases operation <;> cases isFamily <;> rfl

theorem allowsWeightSparsity_of_operation
    (isFamily : ofOperation? operation = some family) :
    family.allowsWeightSparsity = (operation == .convolution) := by
  cases operation <;> cases isFamily <;> rfl

theorem allowsInputSparsity_of_operation
    (isFamily : ofOperation? operation = some family) :
    family.allowsInputSparsity = (operation == .convolution || operation.isElementwise) := by
  cases operation <;> cases isFamily <;> rfl

theorem allowsPointerTable_of_operation
    (isFamily : ofOperation? operation = some family) :
    family.allowsPointerTable = (operation == .convolution) := by
  cases operation <;> cases isFamily <;> rfl

end Family

namespace Device

variable (device : Device)

theorem contains_modes (mode : ExecutionMode) :
    device.capability.modes.contains mode = true ↔
      mode = .cuboid16x16 ∨ mode = .cuboid8x16 ∨ mode = .cuboid4x16 := by
  cases device <;> cases mode <;> decide

theorem contains_swizzlings (swizzling : Swizzling) :
    device.capability.swizzlings.contains swizzling = true := by
  cases device <;> cases swizzling <;> rfl

theorem contains_isiStrategies (strategy : IsiStrategy) :
    device.capability.isiStrategies.contains strategy = true := by
  cases device <;> cases strategy <;> rfl

theorem contains_writeTiles (tiles : Nat) :
    device.capability.writeTiles.contains tiles = true ↔
      1 ≤ tiles ∧ tiles ≤ device.writeTilesMax := by
  cases device <;>
    simp only [capability, Capability.vpu27, Capability.vpu40, writeTilesMax,
      List.contains_iff_mem, List.mem_cons, List.not_mem_nil, or_false] <;>
    omega

theorem contains_dataTypes (dtype : DataType) :
    device.capability.dataTypes.contains (device.capability.foldType dtype) = true := by
  cases device <;> cases dtype <;> rfl

theorem contains_layouts (layout : Layout) :
    device.capability.layouts.contains (device.capability.foldLayout layout) = true ↔
      layout ≠ .invalid := by
  cases device <;> cases layout <;> decide

theorem contains_outputChannels (channels : Nat) :
    device.capability.outputChannels.contains channels = true ↔ FillsBlocks channels := by
  have most : device.capability.channelsMax = 8192 := by
    cases device <;> rfl
  rw [Capability.contains_outputChannels_iff, most]
  rfl

theorem contains_inputChannels
    (operation : Operation)
    (channels : Nat) :
    (device.capability.inputChannels operation).contains channels = true ↔
      operation.Reads channels := by
  cases operation with
  | depthwise | maxPool | avePool =>
      simp [Capability.inputChannels, ChannelRange.contains, Operation.Reads]
  | channelMajor =>
      have isRange : device.capability.channelMajorMax - 1 = 15 := by
        cases device <;> rfl
      simp [Capability.inputChannels, ChannelRange.contains, Operation.Reads, isRange]
  | convolution | eltwise | eltwiseMul | layerNorm =>
      exact contains_outputChannels device channels

theorem capability_limits :
    device.capability.spatialMax = 8192 ∧ device.capability.kernelMax = 11 ∧
      device.capability.strideMax = 7 := by
  cases device <;> exact ⟨rfl, rfl, rfl⟩

theorem capability_halos :
    device.capability.negativeInputHalo = (device == .vpu40) ∧
      device.capability.outputHalo = (device == .vpu40) := by
  cases device <;> exact ⟨rfl, rfl⟩

theorem capability_cmxBytes : device.capability.cmxBytes = device.localMemory := by
  cases device <;> rfl

/-- The standard tables are those of the third and the fourth generation. -/
theorem ofDevice?_standard :
    Capability.ofDevice? Capability.standard device =
      if device = .vpu27 ∨ device = .vpu40 then some device.capability else none := by
  cases device <;> rfl

end Device

namespace Family

@[simp] theorem weights_dtype
    (family : Family)
    (input output : Tensor)
    (kernel : Extent)
    (dtype : DataType)
    (sparse : Bool) :
    (family.weights input output kernel dtype sparse).dtype = dtype := by
  cases family <;> rfl

@[simp] theorem weights_sparse
    (family : Family)
    (input output : Tensor)
    (kernel : Extent)
    (dtype : DataType)
    (sparse : Bool) :
    (family.weights input output kernel dtype sparse).sparse = sparse := by
  cases family <;> rfl

end Family

namespace Workload

variable {workload : Workload}

theorem canonicalOperation_ne_avePool : workload.canonicalOperation ≠ .avePool := by
  unfold canonicalOperation
  split
  · simp
  · split <;> simp
  · rename_i isOperation _
    exact isOperation

theorem ofOperation?_canonicalOperation
    (executed : workload.canonicalOperation ≠ .layerNorm) :
    Family.ofOperation? workload.canonicalOperation = some workload.family := by
  unfold family
  cases isOperation : workload.canonicalOperation with
  | layerNorm => contradiction
  | _ => rfl

/-- The canonical job, with its operation and its tensors written out. -/
theorem canonicalJob_eq (workload : Workload) :
    workload.canonicalJob =
      .ofWorkload
        { workload with
          operation := workload.canonicalOperation
          input :=
            (foldTensor workload.device.capability workload.input).withChannels
              workload.canonicalChannels
          output := foldTensor workload.device.capability workload.output
          weightType? := workload.weightType?.map workload.device.capability.foldType }
        workload.family := by
  rw [canonicalJob, canonicalize_eq]
  rfl

theorem operation_canonicalJob (workload : Workload) :
    workload.canonicalJob.operation = workload.canonicalOperation := by
  rw [canonicalJob_eq]
  rfl

theorem contains_weightType (workload : Workload) :
    workload.device.capability.dataTypes.contains workload.canonicalJob.weights.dtype = true := by
  rw [canonicalJob, Job.ofWorkload, Family.weights_dtype, weightType_canonicalize_fold]
  exact workload.device.contains_dataTypes workload.weightType

/-- The options that have findings are those that do not conform. -/
theorem deviceOptions_eq_nil_iff
    (executed : workload.canonicalOperation ≠ .layerNorm) :
    Rules.deviceOptions workload.device.capability workload.canonicalJob = [] ↔
      workload.OptionsConform := by
  have isFamily := ofOperation?_canonicalOperation executed
  rw [optionsConform_iff]
  simp only [Rules.deviceOptions, List.append_eq_nil_iff, Rules.require_eq_nil, Bool.or_eq_true,
    Bool.not_eq_eq_eq_not, Bool.not_true, beq_eq_false_iff_ne, beq_iff_eq, decide_eq_true_eq]
  simp only [canonicalJob_eq, Job.ofWorkload, Device.contains_modes, Device.contains_swizzlings,
    Device.contains_writeTiles, Device.contains_isiStrategies,
    Family.allowsWriteTiles_of_operation _ isFamily, Bool.or_eq_true, Bool.not_eq_eq_eq_not,
    Bool.not_true, beq_iff_eq, and_true, and_assoc]
  constructor
  · rintro ⟨mode, least, most, elementwise, splits, several⟩
    refine ⟨mode, least, most, fun isElementwise => ?_, fun split => ?_, fun many => ?_⟩
    · exact elementwise.resolve_left (by simp [isElementwise])
    · exact splits.resolve_left fun joined => joined split
    · exact several.resolve_left (Nat.not_le.mpr many)
  · rintro ⟨mode, least, most, elementwise, strategy⟩
    refine ⟨mode, least, most, ?_, ?_, ?_⟩
    · cases isElementwise : workload.canonicalOperation.isElementwise with
      | false => exact .inl rfl
      | true => exact .inr (elementwise isElementwise)
    · exact Decidable.not_or_of_imp strategy.mp
    · exact (Nat.lt_or_ge 1 workload.writeTiles).symm.imp_right strategy.mpr

theorem tensors_eq_nil_iff :
    Rules.tensors workload.device.capability workload.canonicalJob = [] ↔
      workload.TensorsConform ∧
        ((1 ≤ workload.columns.input ∧ workload.columns.input ≤ 8192) ∧
          (1 ≤ workload.columns.output ∧ workload.columns.output ≤ 8192)) ∧
        (1 ≤ workload.rows.input ∧ workload.rows.input ≤ 8192) ∧
          1 ≤ workload.rows.output ∧ workload.rows.output ≤ 8192 := by
  have weightType := workload.contains_weightType
  -- Where channels are kept, the canonical input has those of the output.
  have sameChannels :
      (!workload.canonicalOperation.keepsChannels ||
        workload.canonicalChannels == workload.output.shape.channels) = true := by
    unfold canonicalChannels
    cases workload.canonicalOperation.keepsChannels <;> simp
  obtain ⟨spatialMax, _⟩ := workload.device.capability_limits
  rw [canonicalJob_eq] at weightType
  rw [canonicalJob_eq, tensorsConform_iff]
  simp only [Rules.tensors, List.append_assoc, List.append_eq_nil_iff, Rules.require_eq_nil,
    Rules.extent_eq_nil, weightType]
  simp only [Job.ofWorkload, foldTensor, Tensor.withChannels, Device.contains_dataTypes,
    Device.contains_layouts, Device.contains_outputChannels,
    Device.contains_inputChannels, sameChannels, spatialMax, Bool.or_true, true_and,
    beq_iff_eq, columns, rows]
  constructor
  · rintro ⟨inputLayout, outputLayout, inputChannels, outputChannels, inputWidth, inputHeight,
      outputWidth, outputHeight, sameBatch, oneInput⟩
    exact ⟨⟨inputLayout, outputLayout, inputChannels, outputChannels, oneInput,
      sameBatch ▸ oneInput⟩, ⟨inputWidth, outputWidth⟩, inputHeight, outputHeight⟩
  · rintro ⟨⟨inputLayout, outputLayout, inputChannels, outputChannels, oneInput, oneOutput⟩,
      ⟨inputWidth, outputWidth⟩, inputHeight, outputHeight⟩
    exact ⟨inputLayout, outputLayout, inputChannels, outputChannels, inputWidth, inputHeight,
      outputWidth, outputHeight, oneInput.trans oneOutput.symm, oneInput⟩

/-- The findings about tensors and kernel are those of the two axes and of the rest. -/
theorem tensors_kernel_eq_nil_iff
    (executed : workload.canonicalOperation ≠ .layerNorm) :
    Rules.tensors workload.device.capability workload.canonicalJob = [] ∧
        Rules.kernel workload.device.capability workload.canonicalJob = [] ↔
      workload.TensorsConform ∧ workload.PlaneConforms := by
  have isFamily := ofOperation?_canonicalOperation executed
  obtain ⟨_, kernelMax, strideMax⟩ := workload.device.capability_limits
  have counted : workload.canonicalOperation.kernelMax < 2 ^ 16 := by
    unfold Operation.kernelMax
    split <;> decide
  have kernelMax :
      workload.family.kernelMax workload.device.capability =
        workload.canonicalOperation.kernelMax := by
    rw [Family.kernelMax_of_operation _ isFamily, kernelMax, Operation.kernelMax]
  have strideMax :
      workload.family.strideMax workload.device.capability =
        workload.canonicalOperation.strideMax := by
    rw [Family.strideMax_of_operation _ isFamily, strideMax, Operation.strideMax]
  rw [tensors_eq_nil_iff, planeConforms_iff, ← Span.checks_iff_conforms counted,
    ← Span.checks_iff_conforms counted, canonicalJob_eq]
  simp only [Rules.kernel, Job.ofWorkload, foldTensor, Tensor.withChannels, List.append_assoc,
    List.append_eq_nil_iff, Rules.require_eq_nil, Rules.padding_eq_nil, Rules.stride_eq_nil,
    Rules.outputExtent_eq_nil, kernelMax, strideMax, decide_eq_true_eq, columns, rows]
  constructor
  · rintro ⟨⟨tensors, ⟨inputWidth, outputWidth⟩, inputHeight, outputHeight⟩, kernelWidth,
      kernelHeight, strideWidth, strideHeight, top, bottom, left, right, givenWidth, givenHeight⟩
    exact ⟨tensors, ⟨inputWidth, outputWidth, kernelWidth, strideWidth, left, right, givenWidth⟩,
      inputHeight, outputHeight, kernelHeight, strideHeight, top, bottom, givenHeight⟩
  · rintro ⟨tensors, ⟨inputWidth, outputWidth, kernelWidth, strideWidth, left, right, givenWidth⟩,
      inputHeight, outputHeight, kernelHeight, strideHeight, top, bottom, givenHeight⟩
    exact ⟨⟨tensors, ⟨inputWidth, outputWidth⟩, inputHeight, outputHeight⟩, kernelWidth,
      kernelHeight, strideWidth, strideHeight, top, bottom, left, right, givenWidth, givenHeight⟩

theorem sparsity_eq_nil_iff
    (executed : workload.canonicalOperation ≠ .layerNorm) :
    Rules.sparsity workload.canonicalJob = [] ↔ workload.SparsityConforms := by
  have isFamily := ofOperation?_canonicalOperation executed
  rw [sparsityConforms_iff]
  simp only [Rules.sparsity, Rules.isFraction, List.append_eq_nil_iff, Rules.require_eq_nil,
    Bool.and_eq_true, decide_eq_true_eq, and_assoc]
  simp only [canonicalJob_eq, Job.ofWorkload, foldTensor, Tensor.withChannels,
    Family.weights_sparse, Family.allowsWeightSparsity_of_operation isFamily,
    Family.allowsInputSparsity_of_operation isFamily]
  cases workload.sparseWeights <;> cases workload.input.sparse <;>
    simp

theorem halo_eq_nil_iff :
    Rules.halo workload.device.capability workload.canonicalJob = [] ↔
      workload.HalosConform := by
  obtain ⟨negativeInputHalo, outputHalo⟩ := workload.device.capability_halos
  rw [canonicalJob_eq, halosConform_iff]
  simp only [Rules.halo, Rules.outputHalo, Rules.paddingOrHalo, Job.ofWorkload,
    List.append_assoc, List.append_eq_nil_iff, Rules.require_eq_nil, negativeInputHalo,
    outputHalo, Bool.or_eq_true, beq_iff_eq, or_and_left]
  constructor
  · rintro ⟨input, top, bottom, left, right, written, writtenSupported, broadcast,
      broadcastSupported, inbound, inboundSupported⟩
    exact ⟨input, top, bottom, left, right, written, broadcast, inbound, writtenSupported,
      broadcastSupported, inboundSupported⟩
  · rintro ⟨input, top, bottom, left, right, written, broadcast, inbound, writtenSupported,
      broadcastSupported, inboundSupported⟩
    exact ⟨input, top, bottom, left, right, written, writtenSupported, broadcast,
      broadcastSupported, inbound, inboundSupported⟩

theorem pointerTable_eq_nil_iff
    (executed : workload.canonicalOperation ≠ .layerNorm) :
    Rules.pointerTable workload.canonicalJob = [] ↔ workload.PointersConform := by
  have isFamily := ofOperation?_canonicalOperation executed
  rw [canonicalJob_eq, pointersConform_iff]
  simp only [Rules.pointerTable, Job.ofWorkload, Family.allowsPointerTable_of_operation isFamily]
  cases workload.pointerTable.active with
  | false =>
      simp
  | true =>
      simp only [if_true, List.append_assoc, List.append_eq_nil_iff, Rules.require_eq_nil,
        beq_iff_eq, bne_iff_ne, forall_const]
      constructor
      · rintro ⟨isConvolution, oneChannel, _⟩
        exact ⟨isConvolution, oneChannel⟩
      · rintro ⟨isConvolution, oneChannel⟩
        exact ⟨isConvolution, oneChannel, by simp [isConvolution]⟩

/-- The canonical job breaks no rule exactly when the workload conforms to the documented ones. -/
theorem findings_eq_nil_iff
    (executed : workload.canonicalOperation ≠ .layerNorm) :
    Rules.findings workload.device.capability workload.canonicalJob = [] ↔
      workload.Conforms := by
  rw [Rules.findings_eq_nil, conforms_iff, deviceOptions_eq_nil_iff executed,
    sparsity_eq_nil_iff executed, halo_eq_nil_iff, pointerTable_eq_nil_iff executed,
    ← and_assoc (b := Rules.kernel _ _ = []), tensors_kernel_eq_nil_iff executed, and_assoc]

end Workload

namespace Gate

/-- The standard tables execute all canonical operations that are of a family. -/
theorem family?_canonicalOperation
    {workload : Workload}
    (executed : workload.canonicalOperation ≠ .layerNorm) :
    family? workload.device.capability workload.canonicalOperation = some workload.family := by
  have isFamily := Workload.ofOperation?_canonicalOperation executed
  have isCanonical := workload.canonicalOperation_ne_avePool
  have executes : workload.device.capability.executes workload.canonicalOperation = true := by
    cases isOperation : workload.canonicalOperation with
    | layerNorm => exact absurd isOperation executed
    | avePool => exact absurd isOperation isCanonical
    | _ => cases workload.device <;> rfl
  rw [family?, if_pos executes, isFamily]

/-- An admitted workload conforms to the documented rules, and its job is the canonical one. -/
theorem Admits.conforms
    {gate : Gate}
    {workload : Workload}
    {table : Capability}
    {family : Family}
    {job : Job}
    (standard : gate.tables = Capability.standard)
    (admits : gate.Admits workload table family job) :
    job = workload.canonicalJob ∧ workload.Conforms := by
  obtain ⟨isTable, isFamily, rfl, _, legal⟩ := admits
  have canonical : workload.canonicalize.operation = workload.canonicalOperation := by
    rw [Workload.canonicalize_eq]
  have executed : workload.canonicalOperation ≠ .layerNorm :=
    canonical ▸ ne_layerNorm_of_family? isFamily
  rw [standard, Device.ofDevice?_standard] at isTable
  split at isTable
  · obtain rfl := Option.some.inj isTable
    rw [canonical, family?_canonicalOperation executed] at isFamily
    obtain rfl := Option.some.inj isFamily
    exact ⟨rfl, (Workload.findings_eq_nil_iff executed).mp legal⟩
  · contradiction

theorem conforms_of_accept
    {gate : Gate}
    {workload : Workload}
    {job : Job}
    (standard : gate.tables = Capability.standard)
    (accepted : gate.accept workload = .ok job) :
    job = workload.canonicalJob ∧ workload.Conforms := by
  obtain ⟨_, _, admits⟩ := accept_eq_ok_iff.mp accepted
  exact admits.conforms standard

/--
Admission accepts exactly the workloads that conform to the documented rules, and refuses
the others in a fixed order: for their generation, for their operation, for the local
memory that is counted for them, and only then for a rule.  The memory that is counted is
the one they need if nothing is lost of it.
-/
theorem accept_eq_documented
    (ignoreOverhead : Bool)
    (workload : Workload) :
    let table := workload.device.capability
    let counted := Footprint.ofJob table ignoreOverhead workload.canonicalJob
    (accept ⟨Capability.standard, ignoreOverhead⟩ workload).mapError Refusal.error =
        (if workload.device ≠ .vpu27 ∧ workload.device ≠ .vpu40 then
          .error .invalidInputDevice
        else if workload.canonicalOperation = .layerNorm then
          .error .invalidInputOperation
        else if workload.device.localMemory < counted.total then
          .error .inputTooBig
        else if workload.Conforms then
          .ok workload.canonicalJob
        else
          .error .invalidInputConfiguration) ∧
      (Footprint.InWords table ignoreOverhead workload.canonicalJob →
        counted = Footprint.inFull table ignoreOverhead workload.canonicalJob) := by
  refine ⟨?_, Footprint.InWords.ofJob_eq_inFull⟩
  have canonical : workload.canonicalize.operation = workload.canonicalOperation := by
    rw [Workload.canonicalize_eq]
  have isTable := workload.device.ofDevice?_standard
  by_cases supported : workload.device = .vpu27 ∨ workload.device = .vpu40
  · rw [if_pos supported] at isTable
    rw [if_neg (by simpa [← not_or] using supported)]
    by_cases normalizes : workload.canonicalOperation = .layerNorm
    · have isFamily :
          family? workload.device.capability workload.canonicalize.operation = none := by
        rw [canonical, normalizes, family?]
        exact ite_self none
      rw [if_pos normalizes]
      simp only [accept, settle, isTable, isFamily]
      rfl
    · have isFamily := family?_canonicalOperation normalizes
      rw [← canonical] at isFamily
      rw [if_neg normalizes, accept_of_family isTable isFamily, mapError_inspect, judge,
        ← Device.capability_cmxBytes]
      simp only [← Workload.findings_eq_nil_iff normalizes]
      rfl
  · rw [if_neg supported] at isTable
    rw [if_pos (not_or.mp supported)]
    simp only [accept, settle, isTable]
    rfl

/-- A convolution whose pointers take so many bytes that their word is zero. -/
def farPointing : Workload :=
  let plain :=
    Workload.plain .vpu27 .convolution (.dense ⟨16, 16, 64, 1⟩ .uint8)
      (.dense ⟨16, 16, 64, 1⟩ .uint8) .cuboid16x16
  { plain with
    pointerTable := ⟨true, ⟨2 ^ 31, 2 ^ 31, 1, 1⟩, ⟨16, 16, 64, 1⟩, true⟩ }

/-- It is admitted although it needs much more memory than there is. -/
theorem accept_farPointing :
    farPointing.device.localMemory <
        (Footprint.inFull farPointing.device.capability true farPointing.canonicalJob).total ∧
      (accept ⟨Capability.standard, true⟩ farPointing).mapError Refusal.error =
        .ok farPointing.canonicalJob := by
  refine ⟨by decide +kernel, ?_⟩
  have accepted : (accept ⟨Capability.standard, true⟩ farPointing).toOption.isSome := by
    decide +kernel
  cases isAccepted : accept ⟨Capability.standard, true⟩ farPointing with
  | error refusal =>
      rw [isAccepted] at accepted
      contradiction
  | ok job =>
      rw [(conforms_of_accept rfl isAccepted).1]
      rfl

/-- Fifteen input channels are read by a channel-major convolution, twenty-four by none. -/
example :
    let workload (channels : Nat) : Workload :=
      .plain .vpu27 .convolution (.dense ⟨16, 16, channels, 1⟩ .int8)
        (.dense ⟨16, 16, 64, 1⟩ .float16) .cuboid8x16
    (workload 15).Conforms ∧ (workload 15).canonicalOperation = .channelMajor ∧
      ¬(workload 24).Conforms := by
  decide

end Gate

end DpuCycles
