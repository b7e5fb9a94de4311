import DpuCycles.Descriptor.JobLayout
import DpuCycles.Hardware
import DpuCycles.Tensor

namespace DpuCycles

/-! # Transfers between memories -/

/-- One copy of a tensor from a memory to a memory. -/
structure Transfer where
  device : Device
  input : Tensor
  output : Tensor
  source : MemoryLocation
  destination : MemoryLocation
  writeTiles : Nat
  deriving Repr, DecidableEq

namespace Transfer

/-- The copy back: both ends exchanged. -/
def reverse (transfer : Transfer) : Transfer :=
  { transfer with
    input := transfer.output
    output := transfer.input
    source := transfer.destination
    destination := transfer.source }

end Transfer

namespace Descriptor

/-! # Descriptors of transfers -/

namespace TransferLayout

/-- Extents, type and layout of one end. -/
def endFields
    (name : String)
    (tensor : Transfer → Tensor) : List (Field Transfer) :=
  Field.scalars (name ++ ".shape")
      [fun transfer => float32OfNat (tensor transfer).shape.width,
        fun transfer => float32OfNat (tensor transfer).shape.height,
        fun transfer => float32OfNat (tensor transfer).shape.channels,
        fun transfer => float32OfNat (tensor transfer).shape.batch] ++
    [.oneHot (name ++ ".dtype") (.identity DataType) fun transfer => (tensor transfer).dtype,
      .oneHot (name ++ ".layout") (.identity Layout) fun transfer => (tensor transfer).layout]

/-- Fields of a transfer descriptor. -/
def fields : List (Field Transfer) :=
  [.oneHot "device" (.identity Device) Transfer.device] ++ endFields "input" Transfer.input ++
    endFields "output" Transfer.output ++
    [.oneHot "input_location" (.identity MemoryLocation) Transfer.source,
      .oneHot "output_location" (.identity MemoryLocation) Transfer.destination,
      .scalar "output_write_tiles" fun transfer => float32OfNat transfer.writeTiles]

/-- The registered schema. -/
def schema : Except SchemaFault (Schema Transfer) :=
  Schema.register "dma_v01" fields

end TransferLayout

end Descriptor

end DpuCycles
