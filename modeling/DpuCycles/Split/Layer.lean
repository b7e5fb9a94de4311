import DpuCycles.Hardware
import DpuCycles.Number.Multiple
import DpuCycles.Workload

namespace DpuCycles

/-!
# Layers and their tiles

A layer is a whole operation before it is cut.  It is first spread over the
tiles of the device; what a tile gets is a smaller layer of its own.
-/

/-- How a layer is spread over tiles. -/
inductive TileStrategy where
  /-- Every tile computes the whole layer. -/
  | whole
  | rows
  | channels
  | columns
  | plane
  | rowsAndChannels
  deriving Repr, DecidableEq

namespace TileStrategy

instance : Enumerated TileStrategy where
  domain := "VPUTilingStrategy"
  values := [.whole, .rows, .channels, .columns, .plane, .rowsAndChannels]
  label
    | .whole => "None"
    | .rows => "Soh"
    | .channels => "Sok"
    | .columns => "Sow"
    | .plane => "Sohw"
    | .rowsAndChannels => "Sohk"

/-- Strategies of a generation, in the order they are tried. -/
def ofDevice : Device → List TileStrategy
  | .vpu40 => [.whole, .rows, .channels, .columns, .plane, .rowsAndChannels]
  | _ => [.whole, .rows, .channels]

end TileStrategy

/--
The input extent that gives an output extent, as a 32-bit word.  Both ends of the
padding are taken together, and an extent below zero is zero.
-/
def inputExtent
    (output kernel padding stride : Nat) : Nat :=
  (((output : Int) - 1) * stride - padding + kernel).toNat % 2 ^ 32

/-- A whole operation. -/
structure Layer where
  workload : Workload
  name : String
  compilerPass : String
  strategy : TileStrategy
  /-- Tiles the layer is spread over. -/
  tiles : Nat
  /-- Processors that share one tile. -/
  processors : Nat
  deriving Repr, DecidableEq

namespace Layer

/-- The execution mode of a layer before it is cut. -/
def defaultMode
    (device : Device)
    (input : Tensor) : ExecutionMode :=
  if device.isCuboid then
    .cuboid16x16
  else if input.dtype.isFloat then
    .vectorFp16
  else
    .matrix

/-- The layer of a workload, with the processors its generation has on a tile. -/
def ofWorkload (workload : Workload) : Layer where
  workload := { workload with mode := defaultMode workload.device workload.input }
  name := ""
  compilerPass := ""
  strategy := .whole
  tiles := 1
  processors := (Hardware.ofDevice workload.device).dpusPerTile

/-- The layer under a name. -/
def named
    (layer : Layer)
    (name : String) : Layer :=
  { layer with name := name }

/-- The layer spread over at least one tile. -/
def withStrategy
    (layer : Layer)
    (strategy : TileStrategy)
    (tiles : Nat) : Layer :=
  { layer with strategy := strategy, tiles := max tiles 1 }

/-- Generation the layer runs on. -/
def device (layer : Layer) : Device :=
  layer.workload.device

/-- What the layer computes. -/
def operation (layer : Layer) : Operation :=
  layer.workload.operation

/-- What the layer reads. -/
def input (layer : Layer) : Tensor :=
  layer.workload.input

/-- What the layer writes. -/
def output (layer : Layer) : Tensor :=
  layer.workload.output

/-- Bytes of one dense kernel, and an entry of sixteen bytes for each output channel. -/
def weightFootprint (layer : Layer) : Nat :=
  let kernel := layer.output.dtype.bytes * layer.workload.kernel.area
  let kernels :=
    if layer.operation.isConvolution then kernel * layer.input.shape.channels else kernel
  kernels + layer.output.shape.channels * 16

/-- The layer as the share of a single tile. -/
def share (layer : Layer) : Layer :=
  { layer with tiles := 1 }

/-- The share of a tile that computes some rows of the output. -/
def withRows
    (layer : Layer)
    (rows : Nat) : Layer :=
  let workload := layer.workload
  let height :=
    inputExtent rows workload.kernel.height (workload.padding.top + workload.padding.bottom)
      workload.stride.height
  { layer.share with
    workload :=
      { workload with
        output :=
          { workload.output with shape := { workload.output.shape with height := rows } }
        input :=
          { workload.input with shape := { workload.input.shape with height := height } } } }

/-- The share of a tile that computes some channels of the output. -/
def withChannels
    (layer : Layer)
    (channels : Nat) : Layer :=
  let workload := layer.workload
  { layer.share with
    workload :=
      { workload with
        output := workload.output.withChannels channels
        input :=
          if workload.operation.keepsChannels then
            workload.input.withChannels channels
          else
            workload.input } }

/-- A total cut into at most so many pieces of a size.  The last piece may be shorter. -/
def pieces
    (total size count : Nat) : List Nat :=
  (List.range (min count (ceilDiv total size))).map fun position =>
    min (total - position * size) size

/-- Every tile computes the whole layer. -/
def replicated
    (layer : Layer)
    (tiles : Nat) : List Layer :=
  List.replicate (max tiles 1) layer.share

/-- Rows of the output spread evenly over tiles. -/
def splitRows
    (layer : Layer)
    (tiles : Nat) : List Layer :=
  let height := layer.output.shape.height
  let count := max tiles 1
  (pieces height (ceilDiv height count) count).map layer.withRows

/--
Channels of an even share of a tile, rounded up to whole steps.  It is a 32-bit word,
which keeps nothing of a share that is rounded up to just beyond 32 bits.
-/
def channelShare
    (layer : Layer)
    (tiles step : Nat) : Nat :=
  word 32 (roundUp (ceilDiv layer.output.shape.channels (max tiles 1)) (max step 1))

/-- Channels of the output spread over tiles in slices of whole steps. -/
def splitChannels
    (layer : Layer)
    (tiles step : Nat) : List Layer :=
  (pieces layer.output.shape.channels (layer.channelShare tiles step) (max tiles 1)).map
    layer.withChannels

/-- The layers of the tiles.  Strategies without a cut of their own replicate the layer. -/
def spread
    (layer : Layer)
    (strategy : TileStrategy)
    (tiles : Nat) : List Layer :=
  match strategy with
  | .rows => layer.splitRows tiles
  | .channels => layer.splitChannels tiles 16
  | _ => layer.replicated tiles

end Layer

end DpuCycles
