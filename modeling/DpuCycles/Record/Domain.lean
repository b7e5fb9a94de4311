import DpuCycles.Descriptor.Schema
import DpuCycles.Estimate.Ideal
import DpuCycles.Legality.Family
import DpuCycles.Record.Hardware
import DpuCycles.Record.Tensor
import DpuCycles.Split.Layer

namespace DpuCycles

/-!
# Facts about domains

What the library knows about a value of an enumerated domain, about the table of
a generation and about a schema, in one JSON object each.
-/

/-- Facts about a generation. -/
def Device.facts (device : Device) : Json :=
  let hardware := Hardware.ofDevice device
  let listed := Hardware.catalogue[Enumerated.index device]?
  .ofMembers
    [("cuboid", .bool device.isCuboid), ("hw", Hardware.record.write hardware),
      ("same_as_catalog", .bool (listed == some hardware)),
      ("latency", (Form.list .count).write
        ((Enumerated.values : List MemoryLocation).map hardware.transferLatency)),
      ("macs", (Form.list .count).write
        [hardware.macsPerCycle false, hardware.macsPerCycle true]),
      ("tiling", (Form.list .named).write (TileStrategy.ofDevice device))]

/-- Facts about an element type. -/
def DataType.facts (dtype : DataType) : Json :=
  .ofMembers
    [("bytes", .ofNat dtype.bytes), ("bits", .ofNat dtype.bits),
      ("float", .bool dtype.isFloat)]

/-- Facts about an operation. -/
def Operation.facts (operation : Operation) : Json :=
  .ofMembers
    [("elementwise", .bool operation.isElementwise),
      ("keeps_channels", .bool operation.keepsChannels),
      ("convolution", .bool operation.isConvolution),
      ("behaviour", (Form.option .named).write (Family.ofOperation? operation))]

/-- Facts about an execution mode. -/
def ExecutionMode.facts (mode : ExecutionMode) : Json :=
  let cuboid := mode.cuboid
  .ofMembers
    [("grid", Shape.form.write mode.grid),
      ("nthw", (Form.list .count).write [cuboid.width, cuboid.height, cuboid.channels])]

/-- What follows from the table of a generation. -/
def Capability.facts (table : Capability) : Json :=
  let operations : List Operation := Enumerated.values
  .ofMembers
    [("cmx", .ofNat table.cmxBytes),
      ("ops", .array (operations.map fun operation =>
        .array
          [.bool (table.executes operation),
            .ofString (table.inputChannels operation).describe])),
      ("out_channels", .ofString table.outputChannels.describe),
      ("dtypes", (Form.list .named).write (Enumerated.values.map table.foldType)),
      ("layouts", (Form.list .named).write (Enumerated.values.map table.foldLayout)),
      ("swizzlings", (Form.list .named).write (Enumerated.values.map table.foldSwizzling))]

/-- The blocks of a schema. -/
def Descriptor.Schema.toJson (schema : Descriptor.Schema α) : Json :=
  .ofMembers
    [("name", .ofString schema.name), ("width", .ofNat schema.width),
      ("fields", .array (schema.fields.map fun field =>
        .array [.ofString field.name, .ofNat field.width]))]

end DpuCycles
