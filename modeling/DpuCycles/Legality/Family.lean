import DpuCycles.Legality.Capability

namespace DpuCycles

/-!
# Families of operations

Operations of one family share the shape of their weights, their bounds and
their options.
-/

/-- Operations with the same rules. -/
inductive Family where
  | convolution
  | channelMajor
  | depthwise
  | eltwise
  | maxPool
  deriving Repr, DecidableEq

namespace Family

instance : Enumerated Family where
  domain := "OpBehaviour"
  values := [.convolution, .channelMajor, .depthwise, .eltwise, .maxPool]
  label
    | .convolution => "Convolution"
    | .channelMajor => "CmConvolution"
    | .depthwise => "DwConvolution"
    | .eltwise => "Eltwise"
    | .maxPool => "MaxPool"

/-- The family of an operation, `none` when it is not executed. -/
def ofOperation? : Operation → Option Family
  | .convolution => some .convolution
  | .channelMajor => some .channelMajor
  | .depthwise => some .depthwise
  | .avePool => some .depthwise
  | .eltwise => some .eltwise
  | .eltwiseMul => some .eltwise
  | .maxPool => some .maxPool
  | .layerNorm => none

/-- Greatest kernel extent. -/
def kernelMax
    (table : Capability) :
    Family → Nat
  | .eltwise => 1
  | _ => table.kernelMax

/-- Greatest stride. -/
def strideMax
    (table : Capability) :
    Family → Nat
  | .eltwise => 1
  | _ => table.strideMax

/-- Whether there is a second operand. -/
def hasWeights : Family → Bool
  | .maxPool => false
  | _ => true

/-- Whether a table with one entry per output channel accompanies the weights. -/
def hasWeightTable : Family → Bool
  | .convolution => true
  | .channelMajor => true
  | .depthwise => true
  | _ => false

/-- Whether the weights may be sparse. -/
def allowsWeightSparsity : Family → Bool
  | .convolution => true
  | _ => false

/-- Whether the input may be sparse. -/
def allowsInputSparsity : Family → Bool
  | .convolution => true
  | .eltwise => true
  | _ => false

/-- Whether the input may be reached through pointers. -/
def allowsPointerTable : Family → Bool
  | .convolution => true
  | _ => false

/-- Elementwise output is written to one tile only. -/
def allowsWriteTiles : Family → Nat → Bool
  | .eltwise, tiles => tiles == 1
  | _, _ => true

/-- The second operand that the other tensors imply. -/
def weights
    (family : Family)
    (input output : Tensor)
    (kernel : Extent)
    (dtype : DataType)
    (sparse : Bool) : Tensor :=
  let channels := output.shape.channels
  match family with
  | .convolution =>
      ⟨⟨kernel.width, kernel.height, input.shape.channels, channels⟩, dtype, .zxy, sparse⟩
  | .channelMajor =>
      ⟨⟨kernel.width, kernel.height, input.shape.channels, channels⟩, dtype, .zxy, sparse⟩
  | .depthwise => ⟨⟨kernel.width, kernel.height, 1, channels⟩, dtype, .zxy, sparse⟩
  | .eltwise => ⟨input.shape, dtype, input.layout, sparse⟩
  | .maxPool => ⟨⟨0, 0, 0, 0⟩, dtype, .invalid, sparse⟩

end Family

end DpuCycles
