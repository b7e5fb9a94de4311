import DpuCycles.Hardware
import DpuCycles.Text
import DpuCycles.Workload

namespace DpuCycles

/-!
# What a generation can execute

One table per generation lists the options and bounds of a single workload.
Types and layouts that the hardware treats alike are folded into one.
-/

/-- A set of channel counts. -/
inductive ChannelRange where
  /-- From `least` to `greatest`, multiples of `step`. -/
  | stepped (least greatest step : Nat)
  | listed (counts : List Nat)
  deriving Repr, DecidableEq

namespace ChannelRange

/-- Whether a channel count belongs to the set. -/
def contains : ChannelRange → Nat → Bool
  | .stepped least greatest step, count =>
      decide (least ≤ count) && decide (count ≤ greatest) &&
        (decide (step ≤ 1) || count % step == 0)
  | .listed counts, count => counts.contains count

/-- The set in a message. -/
def describe : ChannelRange → String
  | .stepped least greatest step =>
      "[" ++ toString least ++ ".." ++ toString greatest ++ " step " ++ toString step ++ "]"
  | .listed counts => Text.listing (counts.map toString)

end ChannelRange

/-- Options and bounds of the workloads of one generation. -/
structure Capability where
  device : Device
  operations : List Operation
  modes : List ExecutionMode
  swizzlings : List Swizzling
  layouts : List Layout
  dataTypes : List DataType
  writeTiles : List Nat
  isiStrategies : List IsiStrategy
  cmxKilobytes : Nat
  /-- Every tensor takes whole pages of this size. -/
  page : Nat
  /-- Fixed share of the local memory. -/
  cmxOverhead : Nat
  channelsMax : Nat
  channelMajorMax : Nat
  spatialMax : Nat
  kernelMax : Nat
  strideMax : Nat
  /-- The input in memory may be larger than the computed one. -/
  negativeInputHalo : Bool
  /-- The output may have halos. -/
  outputHalo : Bool
  deriving Repr, DecidableEq

namespace Capability

/-- Table of the third generation. -/
def vpu27 : Capability where
  device := .vpu27
  operations := [.convolution, .depthwise, .eltwise, .eltwiseMul, .maxPool, .channelMajor]
  modes := [.cuboid4x16, .cuboid8x16, .cuboid16x16]
  swizzlings := [.key0, .key1, .key2, .key3, .key4, .key5]
  layouts := [.zxy, .xyz, .xzy, .yxz, .yzx, .zyx]
  dataTypes := [.uint8, .float16]
  writeTiles := [1, 2]
  isiStrategies := [.clustering, .splitOverH, .splitOverK]
  cmxKilobytes := 2048
  page := 16384
  cmxOverhead := 98304
  channelsMax := 8192
  channelMajorMax := 16
  spatialMax := 8192
  kernelMax := 11
  strideMax := 7
  negativeInputHalo := false
  outputHalo := false

/-- Table of the fourth generation. -/
def vpu40 : Capability :=
  { vpu27 with
    device := .vpu40
    writeTiles := [1, 2, 3, 4, 5, 6]
    cmxKilobytes := 1536
    negativeInputHalo := true
    outputHalo := true }

/-- The tables in use unless others are given. -/
def standard : List Capability := [vpu27, vpu40]

/-- The first table of a generation. -/
def ofDevice?
    (tables : List Capability)
    (device : Device) : Option Capability :=
  tables.find? fun table => table.device == device

/-- Bytes of the local memory. -/
def cmxBytes (table : Capability) : Nat :=
  table.cmxKilobytes * 1024

/-- Whether the generation executes an operation. -/
def executes
    (table : Capability)
    (operation : Operation) : Bool :=
  table.operations.contains operation

/-- The type the hardware treats a type as. -/
def foldType
    (_table : Capability)
    (dtype : DataType) : DataType :=
  if dtype.isFloat then .float16 else .uint8

/-- The layout the hardware treats a layout as. -/
def foldLayout
    (_table : Capability) :
    Layout → Layout
  | .zMajor => .zxy
  | .cMajor => .xyz
  | layout => layout

/-- The address permutation the hardware treats a permutation as: each is its own. -/
def foldSwizzling
    (_table : Capability)
    (swizzling : Swizzling) : Swizzling :=
  swizzling

/-- Output channels of any operation. -/
def outputChannels (table : Capability) : ChannelRange :=
  .stepped 16 table.channelsMax 16

/-- Input channels of an operation. -/
def inputChannels
    (table : Capability) :
    Operation → ChannelRange
  | .depthwise => .listed [16, 32, 64]
  | .maxPool => .listed [16, 32, 64]
  | .avePool => .listed [16, 32, 64]
  | .channelMajor => .stepped 1 (table.channelMajorMax - 1) 1
  | _ => table.outputChannels

end Capability

end DpuCycles
