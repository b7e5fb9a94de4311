import DpuCycles.Element
import DpuCycles.Number.Multiple
import DpuCycles.Shape

namespace DpuCycles

/-! # Tensors -/

/-- A tensor: extents, element type, layout, and whether a map of its zeros accompanies it. -/
structure Tensor where
  shape : Shape
  dtype : DataType
  layout : Layout
  sparse : Bool
  deriving Repr, DecidableEq

namespace Tensor

/-- A dense tensor in the default layout. -/
def dense
    (shape : Shape)
    (dtype : DataType) : Tensor :=
  ⟨shape, dtype, .zxy, false⟩

/-- Number of elements, as a 64-bit word. -/
def volume (tensor : Tensor) : Nat :=
  word 64 tensor.shape.volume

/-- Bytes of all elements, as a 64-bit word. -/
def size (tensor : Tensor) : Nat :=
  word 64 (tensor.volume * tensor.dtype.bytes)

theorem volume_of_lt
    {tensor : Tensor}
    (fits : tensor.shape.volume < 2 ^ 64) :
    tensor.volume = tensor.shape.volume :=
  word_of_lt fits

/-- The tensor with another number of channels. -/
def withChannels
    (tensor : Tensor)
    (channels : Nat) : Tensor :=
  { tensor with shape := { tensor.shape with channels := channels } }

end Tensor

end DpuCycles
