import DpuCycles.Descriptor.Schema
import DpuCycles.Legality.Job
import DpuCycles.Number.Single

namespace DpuCycles.Descriptor

/-!
# Descriptors of jobs

Networks were trained on four layouts.  The first layout is the second one
followed by reserved zeros; the fourth one replaces the address permutations of
the third by flags and appends the halos.
-/

/-- Layouts of job descriptors. -/
inductive JobLayout where
  | v01
  | v10
  | v11
  | v12
  deriving Repr, DecidableEq

/-- A signed amount as a feature. -/
def ofAmount (amount : Int) : Float32 :=
  if amount < 0 then -(float32OfNat amount.natAbs) else float32OfNat amount.natAbs

/-- A truth value as a feature. -/
def ofFlag (flag : Bool) : Float32 :=
  if flag then 1 else 0

namespace JobLayout

/-- The layout of new networks. -/
def latest : JobLayout := .v12

/-- The layout with a number. -/
def ofNumber? : Nat → Option JobLayout
  | 1 => some .v01
  | 10 => some .v10
  | 11 => some .v11
  | 12 => some .v12
  | _ => none

/-- Number of a layout. -/
def number : JobLayout → Nat
  | .v01 => 1
  | .v10 => 10
  | .v11 => 11
  | .v12 => 12

/-- Slots of a layout. -/
def width : JobLayout → Nat
  | .v01 => 71
  | .v10 => 67
  | .v11 => 93
  | .v12 => 96

/-- Written form of a layout. -/
def label : JobLayout → String
  | .v01 => "V01"
  | .v10 => "V10"
  | .v11 => "V11"
  | .v12 => "V12"

/-- Name of the schema of a layout. -/
def schemaName : JobLayout → String
  | .v01 => "dpu_v01"
  | .v10 => "dpu_v10"
  | .v11 => "dpu_v11"
  | .v12 => "dpu_v12"

/-- Both elementwise operations share a slot. -/
def operationMap : OneHot :=
  .explicit 6
    [(Operation.convolution, 0), (.depthwise, 1), (.eltwise, 2), (.maxPool, 3), (.avePool, 4),
      (.channelMajor, 5), (.eltwiseMul, 2)]

/-- Types the networks know. -/
def dataTypeMap : OneHot :=
  .subset [DataType.uint8, .int8, .float16, .bfloat16]

/-- Layouts the networks know. -/
def layoutMap : OneHot :=
  .subset [Layout.xyz, .xzy, .yxz, .yzx, .zxy, .zyx, .invalid]

/-- Execution modes of the later layouts. -/
def cuboidMap : OneHot :=
  .subset [ExecutionMode.cuboid16x16, .cuboid8x16, .cuboid4x16]

/-- Generation and operation. -/
def headFields : List (Field Job) :=
  [.oneHot "device" (.identity Device) Job.device,
    .oneHot "operation" operationMap Job.operation]

/-- Extents and type of a tensor. -/
def tensorFields
    (name : String)
    (tensor : Job → Tensor) : List (Field Job) :=
  Field.scalars (name ++ ".shape")
      [fun job => float32OfNat (tensor job).shape.width,
        fun job => float32OfNat (tensor job).shape.height,
        fun job => float32OfNat (tensor job).shape.channels,
        fun job => float32OfNat (tensor job).shape.batch] ++
    [.oneHot (name ++ ".dtype") dataTypeMap fun job => (tensor job).dtype]

/-- Extents, type, layout and sparsity of a tensor. -/
def fullTensorFields
    (name : String)
    (tensor : Job → Tensor) : List (Field Job) :=
  tensorFields name tensor ++
    [.oneHot (name ++ ".layout") layoutMap fun job => (tensor job).layout,
      .scalar (name ++ ".sparsity") fun job => ofFlag (tensor job).sparse]

/-- Kernel, stride and padding. -/
def kernelFields : List (Field Job) :=
  Field.scalars "kernels"
      [fun job => float32OfNat job.kernel.width, fun job => float32OfNat job.kernel.height] ++
    Field.scalars "strides"
      [fun job => float32OfNat job.stride.width, fun job => float32OfNat job.stride.height] ++
    Field.scalars "padding"
      [fun job => float32OfNat job.padding.top, fun job => float32OfNat job.padding.bottom,
        fun job => float32OfNat job.padding.left, fun job => float32OfNat job.padding.right]

/-- Fractions of zeros. -/
def sparsityFields : List (Field Job) :=
  [.scalar "act_sparsity" Job.inputSparsity,
    .scalar "weight_sparsity" Job.weightSparsity]

/-- Address permutations. -/
def swizzlingFields : List (Field Job) :=
  [.oneHot "input_0.swizzling" (.identity Swizzling) Job.inputSwizzling,
    .oneHot "input_1.swizzling" (.identity Swizzling) Job.weightSwizzling,
    .oneHot "output_0.swizzling" (.identity Swizzling) Job.outputSwizzling]

/-- Whether the buffers are permuted at all. -/
def swizzlingFlags : List (Field Job) :=
  Field.scalars "swizzling_enabled"
    [fun job => ofFlag (job.inputSwizzling != .key0),
      fun job => ofFlag (job.weightSwizzling != .key0),
      fun job => ofFlag (job.outputSwizzling != .key0)]

/-- The amounts of a halo. -/
def haloFields
    (name : String)
    (halo : Job → Halo) : List (Field Job) :=
  Field.scalars name
    [fun job => ofAmount (halo job).top, fun job => ofAmount (halo job).bottom,
      fun job => ofAmount (halo job).left, fun job => ofAmount (halo job).right,
      fun job => ofAmount (halo job).front, fun job => ofAmount (halo job).back]

/-- Fields of the layout that describes the activations only. -/
def earlyFields : List (Field Job) :=
  headFields ++ tensorFields "input_0" Job.input ++ tensorFields "output_0" Job.output ++
    kernelFields ++
    [.oneHot "execution_order" (.identity ExecutionMode) Job.mode,
      .oneHot "activation_function" (.identity Activation) Job.activation] ++
    sparsityFields ++ swizzlingFields ++
    [.scalar "output_write_tiles" fun job => float32OfNat job.writeTiles]

/-- Fields of the later layouts up to the address permutations. -/
def laterHead : List (Field Job) :=
  headFields ++ fullTensorFields "input_0" Job.input ++ fullTensorFields "input_1" Job.weights ++
    fullTensorFields "output_0" Job.output ++ kernelFields ++
    [.oneHot "execution_order" cuboidMap Job.mode] ++ sparsityFields

/-- Fields of the later layouts from the tiles on. -/
def laterTail : List (Field Job) :=
  [.scalar "output_write_tiles" fun job => float32OfNat job.writeTiles,
    .oneHot "isi_strategy" (.identity IsiStrategy) Job.isiStrategy]

/-- The halos of the latest layout. -/
def allHaloFields : List (Field Job) :=
  haloFields "input_0_halo" (fun job => job.halo.input) ++
    haloFields "output_0_halo" (fun job => job.halo.output) ++
    haloFields "output_0_halo_broadcast_cnt" (fun job => job.halo.outputBroadcast)

/-- Fields of a layout. -/
def fields : JobLayout → List (Field Job)
  | .v01 => earlyFields ++ [.padding "reserved" 4]
  | .v10 => earlyFields
  | .v11 => laterHead ++ swizzlingFields ++ laterTail
  | .v12 => laterHead ++ swizzlingFlags ++ laterTail ++ allHaloFields

/-- The registered schema of a layout. -/
def schema (layout : JobLayout) : Except SchemaFault (Schema Job) :=
  Schema.register layout.schemaName layout.fields

end JobLayout

end DpuCycles.Descriptor
