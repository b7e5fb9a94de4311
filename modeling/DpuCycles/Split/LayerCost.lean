import DpuCycles.Split.Search

namespace DpuCycles

/-!
# Cost of a layer over several tiles

The slowest tile decides.  Weights that are not fetched in advance bound the layer
from below, and tensors in the external memory add their transfers.
-/

/-- The layer of a tile with its best cut. -/
structure TileSplit where
  layer : Layer
  best : Split
  /-- Everything that was tried, if it is kept. -/
  tried : List Split
  deriving Repr, DecidableEq

/-- Where the tensors of a layer are around its execution. -/
structure Placement where
  /-- The input comes from the external memory. -/
  inputInDram : Bool
  /-- The output goes to the external memory. -/
  outputInDram : Bool
  /-- Weights are fetched while the layer before runs. -/
  prefetching : Bool
  deriving Repr, DecidableEq

namespace Placement

/-- Everything is in local memory in time. -/
def initial : Placement := ⟨false, false, true⟩

end Placement

namespace CostModel

/-- Search the layer of one tile. -/
def splitTile
    (model : CostModel)
    (options : SearchOptions)
    (layer : Layer) : Except SearchFailure TileSplit :=
  let outcome := model.search layer options
  match outcome.best with
  | .ok best => .ok ⟨layer, best, if options.keepCandidates then outcome.tried else []⟩
  | .error failure => .error failure

/-- Spread a layer over tiles and search each of them; the first failure ends the search. -/
def splitLayer
    (model : CostModel)
    (layer : Layer)
    (options : SearchOptions)
    (strategy : TileStrategy)
    (tiles : Nat) : Except SearchFailure (List TileSplit) :=
  (layer.spread strategy tiles).mapM (model.splitTile options)

/-- Whether layers of tiles can be searched, up to the first one whose search fails. -/
def canSearchTiles
    (model : CostModel)
    (options : SearchOptions) :
    List Layer → Bool
  | [] => true
  | tile :: rest =>
      model.canSearch options tile &&
        match model.splitTile options tile with
        | .ok _ => canSearchTiles model options rest
        | .error _ => true

/-- Whether the tiles of a layer can be searched. -/
def canSplit
    (model : CostModel)
    (layer : Layer)
    (options : SearchOptions)
    (strategy : TileStrategy)
    (tiles : Nat) : Bool :=
  model.canSearchTiles options (layer.spread strategy tiles)

/-- Cycles of fetching a tensor from the external memory. -/
def fetchCost
    (model : CostModel)
    (device : Device)
    (tensor : Tensor)
    (writeTiles : Nat) : Nat :=
  model.transferCost ⟨device, tensor, tensor, .dram, .cmx, writeTiles⟩

/-- Cycles of fetching the weights; each tile receives a slice when channels are spread. -/
def weightsCost
    (model : CostModel)
    (layer : Layer)
    (strategy : TileStrategy)
    (tiles : Nat) : Nat :=
  let bytes := min layer.weightFootprint Cycles.greatest
  model.fetchCost layer.device (.dense ⟨bytes, 1, 1, 1⟩ .uint8)
    (if strategy = .channels then max tiles 1 else 1)

/-- Cycles of a transfer that is made. -/
def madeTransfer (scalar : Nat) : Except SearchFailure Nat :=
  if Cycles.isError scalar then .error (.transfer scalar) else .ok scalar

/-- Cycles of a transfer if it is needed. -/
def transferIf
    (needed : Bool)
    (scalar : Nat) : Except SearchFailure Nat :=
  if needed then madeTransfer scalar else .ok 0

/-- Cycles of a layer on tiles. -/
def layerCost
    (model : CostModel)
    (layer : Layer)
    (options : SearchOptions)
    (strategy : TileStrategy)
    (tiles : Nat)
    (placement : Placement) : Except SearchFailure Nat := do
  let splits ← model.splitLayer layer options strategy tiles
  let slowest := (splits.map fun split => split.best.cost).foldl max 0
  let weights ←
    transferIf (!placement.prefetching) (model.weightsCost layer strategy tiles)
  let input ←
    transferIf placement.inputInDram (model.fetchCost layer.device layer.input 1)
  let output ←
    transferIf placement.outputInDram (model.fetchCost layer.device layer.output 1)
  return Cycles.clamp (max slowest weights + input + output)

/-- The cheapest of costs in order, the earliest of equals; otherwise the first failure. -/
def cheapest
    (costs : List (TileStrategy × Except SearchFailure Nat)) :
    Except SearchFailure (TileStrategy × Nat) :=
  let best := costs.foldl
    (fun (best : Option (TileStrategy × Nat)) entry =>
      match entry.2, best with
      | .ok cycles, none => some (entry.1, cycles)
      | .ok cycles, some (_, least) => if cycles < least then some (entry.1, cycles) else best
      | .error _, _ => best)
    none
  match best with
  | some best => .ok best
  | none =>
      match costs with
      | (_, .error failure) :: _ => .error failure
      | _ => .error (.noSplit false)

/-- The cheapest strategy of the generation with its cycles. -/
def bestLayerCost
    (model : CostModel)
    (layer : Layer)
    (options : SearchOptions)
    (tiles : Nat)
    (placement : Placement) : Except SearchFailure (TileStrategy × Nat) :=
  if options.objective = .power then
    .error .noObjective
  else
    cheapest ((TileStrategy.ofDevice layer.device).map fun strategy =>
      (strategy, model.layerCost layer options strategy tiles placement))

end CostModel

end DpuCycles
