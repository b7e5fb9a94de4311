import DpuCycles.Number.Rising
import DpuCycles.Proofs.Split.Exclusion
import DpuCycles.Proofs.Split.Pieces
import DpuCycles.Proofs.Split.Strategies

namespace DpuCycles

/-!
# What a layer is charged

Every tile that computes something is charged, since a search refuses what takes
no time, and the slowest of them is charged to the layer.  A layer without rows
spread by rows, or without channels spread by channels, leaves nothing to any
tile, nor does one whose share of channels is rounded up to just beyond 32 bits.
No search refuses it then, and it costs no more than its transfers.
-/

namespace Layer

/-- A length is cut into no pieces exactly when there is nothing to cut or the pieces are empty. -/
theorem pieces_eq_nil_iff
    {total size count : Nat}
    (countPositive : 0 < count) :
    pieces total size count = [] ↔ total = 0 ∨ size = 0 := by
  rw [pieces, List.map_eq_nil_iff, List.range_eq_nil]
  constructor
  · intro noPieces
    by_cases isSize : size = 0
    · exact .inr isSize
    · refine .inl (Nat.eq_zero_of_not_pos fun totalPositive => ?_)
      have some := ceilDiv_pos totalPositive (Nat.pos_of_ne_zero isSize)
      omega
  · rintro (rfl | rfl)
    · rw [zero_ceilDiv, Nat.min_zero]
    · rw [ceilDiv, Nat.div_zero, Nat.min_zero]

/-- No tile gets anything of a layer: it has no rows to spread, or their shares hold no channels. -/
def LeavesNothing
    (layer : Layer)
    (strategy : TileStrategy)
    (tiles : Nat) : Prop :=
  strategy = .rows ∧ layer.output.shape.height = 0 ∨
    strategy = .channels ∧ layer.channelShare tiles 16 = 0

/-- Shares hold no channels where there are none, and where 32 bits cannot hold the last step. -/
theorem channelShare_eq_zero_iff
    {layer : Layer}
    (tiles : Nat)
    (isWord : layer.output.shape.channels < 2 ^ 32) :
    layer.channelShare tiles 16 = 0 ↔
      layer.output.shape.channels = 0 ∨
        2 ^ 32 - 16 < ceilDiv layer.output.shape.channels (max tiles 1) := by
  have countPositive : 0 < max tiles 1 := Nat.le_max_right tiles 1
  have even : ceilDiv layer.output.shape.channels (max tiles 1) < 2 ^ 32 := by
    refine Nat.lt_of_le_of_lt ((ceilDiv_le_iff countPositive).mpr ?_) isWord
    exact Nat.le_mul_of_pos_right _ countPositive
  have noChannels : ceilDiv layer.output.shape.channels (max tiles 1) = 0 ↔
      layer.output.shape.channels = 0 := by
    rw [← Nat.le_zero, ceilDiv_le_iff countPositive, Nat.zero_mul, Nat.le_zero]
  have step : max 16 1 = 16 := rfl
  rw [← noChannels, channelShare, word, roundUp, step]
  generalize ceilDiv layer.output.shape.channels (max tiles 1) = share at even
  unfold ceilDiv
  omega

/-- No tile gets anything only of a layer that leaves nothing. -/
theorem spread_eq_nil_iff
    (layer : Layer)
    (strategy : TileStrategy)
    (tiles : Nat) :
    layer.spread strategy tiles = [] ↔ layer.LeavesNothing strategy tiles := by
  have countPositive : 0 < max tiles 1 := Nat.le_max_right tiles 1
  cases strategy with
  | rows =>
      have noShares : ceilDiv layer.output.shape.height (max tiles 1) = 0 →
          layer.output.shape.height = 0 := by
        intro noShare
        refine Nat.eq_zero_of_not_pos fun heightPositive => ?_
        exact Nat.ne_of_gt (ceilDiv_pos heightPositive countPositive) noShare
      simp only [spread, splitRows, List.map_eq_nil_iff, pieces_eq_nil_iff countPositive,
        LeavesNothing, true_and, reduceCtorEq, false_and, or_false]
      exact ⟨fun nothing => nothing.elim id noShares, .inl⟩
  | channels =>
      have shares : layer.output.shape.channels = 0 → layer.channelShare tiles 16 = 0 := by
        intro channelless
        rw [channelShare, channelless, zero_ceilDiv, roundUp, zero_ceilDiv, Nat.zero_mul, word_zero]
      simp only [spread, splitChannels, List.map_eq_nil_iff, pieces_eq_nil_iff countPositive,
        LeavesNothing, true_and, reduceCtorEq, false_and, false_or]
      exact ⟨fun nothing => nothing.elim shares id, .inr⟩
  | whole | columns | plane | rowsAndChannels =>
      simp [spread, replicated, LeavesNothing, Nat.ne_of_gt countPositive]

end Layer

namespace CostModel

variable
  {model : CostModel}
  {layer : Layer}
  {options : SearchOptions}

/-- A search answers with a time that is not zero and no error. -/
theorem bounds_of_best
    {split : Split}
    (notPower : options.objective ≠ .power)
    (answered : (model.search layer options).best = .ok split) :
    0 < split.cost ∧ split.cost ≤ Cycles.limit := by
  rcases model.search_feasible layer notPower with
    ⟨workloads, _, feasible, best⟩ | ⟨_, allZero, best⟩
  · obtain rfl := Except.ok.inj (best.symm.trans answered)
    exact ⟨feasible.2, Nat.min_le_right _ _⟩
  · cases best.symm.trans answered

/-- Tiles that are all searched have a time each, and there are as many as layers. -/
theorem bounds_of_mapM_splitTile
    {layers : List Layer}
    {splits : List TileSplit}
    (notPower : options.objective ≠ .power)
    (searched : layers.mapM (model.splitTile options) = .ok splits) :
    splits.length = layers.length ∧
      ∀ split ∈ splits, 0 < split.best.cost ∧ split.best.cost ≤ Cycles.limit := by
  induction layers generalizing splits with
  | nil =>
      cases searched
      exact ⟨rfl, fun split member => (List.not_mem_nil member).elim⟩
  | cons layer rest inductionHypothesis =>
      rw [List.mapM_cons] at searched
      cases first : model.splitTile options layer with
      | error failure =>
          rw [first] at searched
          cases searched
      | ok split =>
          cases others : rest.mapM (model.splitTile options) with
          | error failure =>
              rw [first, others] at searched
              cases searched
          | ok otherSplits =>
              rw [first, others] at searched
              cases searched
              obtain ⟨sameLength, bounds⟩ := inductionHypothesis others
              refine ⟨congrArg (· + 1) sameLength, ?_⟩
              refine List.forall_mem_cons.mpr ⟨?_, bounds⟩
              unfold splitTile at first
              dsimp only at first
              split at first
              · rename_i answered
                cases first
                exact bounds_of_best notPower answered
              · cases first

theorem transferIf_eq_ok_zero_iff
    {needed : Bool}
    {scalar : Nat} :
    transferIf needed scalar = .ok 0 ↔ needed = true → scalar = 0 := by
  cases needed with
  | false =>
      simp [transferIf]
  | true =>
      simp only [transferIf, madeTransfer, if_true, forall_const]
      split
      · rename_i isError
        refine iff_of_false (fun isOk => by cases isOk) ?_
        rintro rfl
        contradiction
      · exact Except.ok.injEq scalar 0 ▸ Iff.rfl

/-- A cost is made of the slowest tile, the weights as its lower bound, and the transfers. -/
theorem layerCost_eq_ok_iff
    {strategy : TileStrategy}
    {tiles cycles : Nat}
    {placement : Placement} :
    model.layerCost layer options strategy tiles placement = .ok cycles ↔
      ∃ splits weights input output,
        model.splitLayer layer options strategy tiles = .ok splits ∧
          transferIf (!placement.prefetching) (model.weightsCost layer strategy tiles) =
            .ok weights ∧
          transferIf placement.inputInDram (model.fetchCost layer.device layer.input 1) =
            .ok input ∧
          transferIf placement.outputInDram (model.fetchCost layer.device layer.output 1) =
            .ok output ∧
          cycles =
            Cycles.clamp
              (max ((splits.map fun split => split.best.cost).foldl max 0) weights + input +
                output) := by
  unfold layerCost
  cases model.splitLayer layer options strategy tiles with
  | error failure =>
      simp [bind, Except.bind]
  | ok splits =>
      cases transferIf (!placement.prefetching) (model.weightsCost layer strategy tiles) with
      | error failure =>
          simp [bind, Except.bind]
      | ok weights =>
          cases transferIf placement.inputInDram (model.fetchCost layer.device layer.input 1) with
          | error failure =>
              simp [bind, Except.bind]
          | ok input =>
              cases
                transferIf placement.outputInDram (model.fetchCost layer.device layer.output 1) with
              | error failure =>
                  simp [bind, Except.bind]
              | ok output =>
                  simp [bind, Except.bind, pure, Except.pure, eq_comm]

/-- Whatever a layer has to transfer takes no cycles. -/
structure FreeOfTransfers
    (model : CostModel)
    (layer : Layer)
    (strategy : TileStrategy)
    (tiles : Nat)
    (placement : Placement) : Prop where
  weights : (!placement.prefetching) = true → model.weightsCost layer strategy tiles = 0
  input : placement.inputInDram = true → model.fetchCost layer.device layer.input 1 = 0
  output : placement.outputInDram = true → model.fetchCost layer.device layer.output 1 = 0

/-- A layer is free exactly when no tile computes any of it and its transfers are free. -/
theorem layerCost_eq_zero_iff
    {strategy : TileStrategy}
    {tiles : Nat}
    {placement : Placement}
    (notPower : options.objective ≠ .power) :
    model.layerCost layer options strategy tiles placement = .ok 0 ↔
      layer.spread strategy tiles = [] ∧
        model.FreeOfTransfers layer strategy tiles placement := by
  constructor
  · intro isFree
    obtain ⟨splits, weights, input, output, searched, weightsMade, inputMade, outputMade, sum⟩ :=
      layerCost_eq_ok_iff.mp isFree
    obtain ⟨sameLength, bounds⟩ := bounds_of_mapM_splitTile notPower searched
    have noTime : (splits.map fun split => split.best.cost).foldl max 0 = 0 ∧ weights = 0 ∧
        input = 0 ∧ output = 0 := by
      have limitPositive : 0 < Cycles.limit := by decide
      unfold Cycles.clamp at sum
      omega
    obtain ⟨idle, rfl, rfl, rfl⟩ := noTime
    refine ⟨List.eq_nil_of_length_eq_zero ?_, transferIf_eq_ok_zero_iff.mp weightsMade,
      transferIf_eq_ok_zero_iff.mp inputMade, transferIf_eq_ok_zero_iff.mp outputMade⟩
    rw [← sameLength]
    cases splits with
    | nil =>
        rfl
    | cons split rest =>
        have busy := (bounds split List.mem_cons_self).1
        have slowest :
            split.best.cost ≤ ((split :: rest).map fun split => split.best.cost).foldl max 0 :=
          (le_foldl_max _ 0).2 _ (List.mem_map_of_mem List.mem_cons_self)
        exact absurd idle (Nat.ne_of_gt (Nat.lt_of_lt_of_le busy slowest))
  · rintro ⟨noTiles, free⟩
    refine layerCost_eq_ok_iff.mpr ⟨[], 0, 0, 0, ?_, transferIf_eq_ok_zero_iff.mpr free.weights,
      transferIf_eq_ok_zero_iff.mpr free.input, transferIf_eq_ok_zero_iff.mpr free.output, rfl⟩
    rw [splitLayer, noTiles]
    rfl

/--
The cost of a layer is no error, and it is zero exactly where no tile gets anything of
the layer and its transfers are free as well: without rows spread by rows, or spread by
channels without any, or with more of them for each tile than can be rounded up in 32
bits.  The cheapest strategy answers no other cost.
-/
theorem layerCost_charged
    (model : CostModel)
    (layer : Layer)
    (tiles : Nat)
    (placement : Placement)
    (notPower : options.objective ≠ .power) :
    let charged := fun strategy cycles =>
      cycles ≤ Cycles.limit ∧
        (cycles = 0 ↔
          layer.LeavesNothing strategy tiles ∧
            model.FreeOfTransfers layer strategy tiles placement)
    (∀ strategy cycles,
        model.layerCost layer options strategy tiles placement = .ok cycles →
          charged strategy cycles) ∧
      (∀ strategy cycles,
        model.bestLayerCost layer options tiles placement = .ok (strategy, cycles) →
          charged strategy cycles) ∧
      (∀ strategy,
        layer.LeavesNothing strategy tiles →
          model.FreeOfTransfers layer strategy tiles placement →
          model.layerCost layer options strategy tiles placement = .ok 0) ∧
      (layer.output.shape.channels < 2 ^ 32 →
        (layer.channelShare tiles 16 = 0 ↔
          layer.output.shape.channels = 0 ∨
            2 ^ 32 - 16 < ceilDiv layer.output.shape.channels (max tiles 1))) := by
  intro charged
  have free : ∀ strategy, model.layerCost layer options strategy tiles placement = .ok 0 ↔
      layer.LeavesNothing strategy tiles ∧
        model.FreeOfTransfers layer strategy tiles placement := by
    intro strategy
    rw [layerCost_eq_zero_iff notPower, layer.spread_eq_nil_iff]
  have each : ∀ strategy cycles,
      model.layerCost layer options strategy tiles placement = .ok cycles →
        charged strategy cycles := by
    intro strategy cycles isOk
    obtain ⟨_, _, _, _, _, _, _, _, sum⟩ := layerCost_eq_ok_iff.mp isOk
    refine ⟨sum ▸ Nat.min_le_right _ _, ?_⟩
    rw [← free strategy, isOk, Except.ok.injEq]
  refine ⟨each, ?_, fun strategy nothing transfers => (free strategy).mpr ⟨nothing, transfers⟩,
    Layer.channelShare_eq_zero_iff tiles⟩
  intro strategy cycles answered
  rcases model.bestLayerCost_spec layer tiles placement notPower with
    ⟨chosen, least, _, isAnswer, cost, _⟩ | ⟨_, failure, _, isAnswer⟩
  · obtain ⟨rfl, rfl⟩ := Prod.mk.inj (Except.ok.inj (isAnswer.symm.trans answered))
    exact each _ _ cost
  · cases isAnswer.symm.trans answered

/-- A search for efficiency that cuts nothing. -/
def uncutEfficiency : SearchOptions :=
  { uncutSearch with objective := .efficiency }

/-- A layer with rows and channels is charged, whichever way it is spread over two tiles. -/
theorem layerCost_of_evenLayer :
    uncutEfficiency.objective ≠ .power ∧
      ∃ cycles,
        initial.layerCost evenLayer uncutEfficiency .channels 2 .initial = .ok cycles ∧
          0 < cycles ∧ cycles ≤ Cycles.limit := by
  have notPower : uncutEfficiency.objective ≠ .power := by decide
  refine ⟨notPower, ?_⟩
  have costs :
      (initial.layerCost evenLayer uncutEfficiency .channels 2 .initial).toOption.isSome := by
    decide +kernel
  cases cost : initial.layerCost evenLayer uncutEfficiency .channels 2 .initial with
  | error failure =>
      rw [cost] at costs
      contradiction
  | ok cycles =>
      obtain ⟨each, _⟩ := layerCost_charged initial evenLayer 2 .initial notPower
      obtain ⟨within, isFree⟩ := each .channels cycles cost
      refine ⟨cycles, rfl, Nat.pos_of_ne_zero fun free => ?_, within⟩
      rcases (isFree.mp free).1 with ⟨isRows, _⟩ | ⟨_, noShare⟩
      · contradiction
      · exact absurd noShare (by decide)

/-- A layer that computes no rows. -/
def rowlessLayer : Layer :=
  .ofWorkload (.plain .vpu27 .convolution (.dense ⟨16, 16, 64, 1⟩ .uint8)
    (.dense ⟨16, 0, 64, 1⟩ .uint8) .cuboid16x16)

/--
Replicated or spread by channels, a layer without rows is refused.  Spread by rows
it is free, and that is taken for its cost.
-/
theorem rowlessLayer_free :
    SearchOptions.initial.objective = .latency ∧
      (initial.layerCost rowlessLayer .initial .whole 2 .initial).toOption = none ∧
      (initial.layerCost rowlessLayer .initial .channels 2 .initial).toOption = none ∧
      (initial.layerCost rowlessLayer .initial .rows 2 .initial).toOption = some 0 ∧
      (initial.bestLayerCost rowlessLayer .initial 2 .initial).toOption = some (.rows, 0) := by
  refine ⟨rfl, ?_, ?_, ?_, ?_⟩
  · decide +kernel
  · decide +kernel
  · decide +kernel
  · decide +kernel

end CostModel

end DpuCycles
