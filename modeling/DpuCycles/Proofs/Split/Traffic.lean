import DpuCycles.Proofs.Estimate.Transfers
import DpuCycles.Proofs.Split.Charges

namespace DpuCycles

/-!
# Transfers of a layer

The hardware of a generation makes every transfer, so a layer fails only where one of
its tiles has no split.  What a placement transfers is added to the time of the slowest
tile, and the weights bound it from below.  So a layer costs no less when more has to be
transferred, and a tensor that leaves the local memory costs what fetching it costs.
-/

namespace Placement

/-- Whatever one placement has to transfer, another one has to transfer as well. -/
structure Within (placement heavier : Placement) : Prop where
  input : placement.inputInDram = true → heavier.inputInDram = true
  output : placement.outputInDram = true → heavier.outputInDram = true
  weights : placement.prefetching = false → heavier.prefetching = false

end Placement

namespace CostModel

variable
  {model : CostModel}
  {layer : Layer}
  {options : SearchOptions}
  {strategy : TileStrategy}
  {tiles : Nat}
  {placement heavier : Placement}

/-- The cost of a transfer is the time the hardware of its generation takes for it. -/
theorem exists_transferCost
    (model : CostModel)
    (transfer : Transfer) :
    let hardware := Hardware.ofDevice transfer.device
    ∃ cycles,
      transfer.cycles hardware = .ok cycles ∧
        model.transferCost transfer = cycles ∧
        max (hardware.transferLatency transfer.source)
            (hardware.transferLatency transfer.destination) ≤ cycles ∧
        cycles ≤ Cycles.limit := by
  obtain ⟨cycles, made, least, within⟩ := transfer.exists_cycles_ofDevice
  refine ⟨cycles, made, ?_, least, within⟩
  rw [transferCost, made]
  exact Nat.min_eq_left within

theorem isError_transferCost
    (model : CostModel)
    (transfer : Transfer) :
    Cycles.isError (model.transferCost transfer) = false := by
  obtain ⟨cycles, _, isCost, _, within⟩ := model.exists_transferCost transfer
  rw [isCost]
  exact Cycles.isError_eq_false_iff.mpr within

/-- Cycles of a transfer if it is needed, none otherwise. -/
def chargedIf
    (needed : Bool)
    (cycles : Nat) : Nat :=
  if needed then cycles else 0

theorem chargedIf_mono
    {needed needed' : Bool}
    (cycles : Nat)
    (implies : needed = true → needed' = true) :
    chargedIf needed cycles ≤ chargedIf needed' cycles := by
  cases needed with
  | false =>
      exact Nat.zero_le _
  | true =>
      obtain rfl := implies rfl
      exact Nat.le_refl _

/-- A transfer is charged if it is needed, and never refused. -/
theorem transferIf_transferCost
    (model : CostModel)
    (needed : Bool)
    (transfer : Transfer) :
    transferIf needed (model.transferCost transfer) =
      .ok (chargedIf needed (model.transferCost transfer)) := by
  cases needed with
  | false =>
      rfl
  | true =>
      exact if_neg (Bool.eq_false_iff.mp (model.isError_transferCost transfer))

/-- Cycles of a layer whose slowest tile takes some time, with its transfers. -/
def placedCycles
    (model : CostModel)
    (layer : Layer)
    (strategy : TileStrategy)
    (tiles : Nat)
    (placement : Placement)
    (slowest : Nat) : Nat :=
  Cycles.clamp
    (max slowest (chargedIf (!placement.prefetching) (model.weightsCost layer strategy tiles)) +
      chargedIf placement.inputInDram (model.fetchCost layer.device layer.input 1) +
      chargedIf placement.outputInDram (model.fetchCost layer.device layer.output 1))

/-- A layer costs what its tiles and its transfers take, and fails where its tiles do. -/
theorem layerCost_eq_map
    (model : CostModel)
    (layer : Layer)
    (options : SearchOptions)
    (strategy : TileStrategy)
    (tiles : Nat)
    (placement : Placement) :
    model.layerCost layer options strategy tiles placement =
      (model.splitLayer layer options strategy tiles).map fun splits =>
        model.placedCycles layer strategy tiles placement
          ((splits.map fun split => split.best.cost).foldl max 0) := by
  unfold layerCost
  cases model.splitLayer layer options strategy tiles with
  | error failure =>
      rfl
  | ok splits =>
      simp only [weightsCost, fetchCost, transferIf_transferCost]
      rfl

section Outcomes

theorem eq_ok_of_toOption
    {outcome : Except ε α}
    {value : α}
    (answered : outcome.toOption = some value) :
    outcome = .ok value := by
  cases outcome with
  | error failure =>
      cases answered
  | ok result =>
      exact congrArg Except.ok (Option.some.inj answered)

/-- What ends a run over items is the failure of one of them. -/
theorem exists_of_mapM_eq_error
    {run : α → Except ε β}
    {items : List α}
    {failure : ε}
    (failed : items.mapM run = .error failure) :
    ∃ item ∈ items, run item = .error failure := by
  induction items with
  | nil =>
      cases failed
  | cons item rest inductionHypothesis =>
      rw [List.mapM_cons] at failed
      cases first : run item with
      | error firstFailure =>
          rw [first] at failed
          cases failed
          exact ⟨item, List.mem_cons_self, first⟩
      | ok result =>
          cases others : rest.mapM run with
          | error otherFailure =>
              rw [first, others] at failed
              cases failed
              obtain ⟨other, member, isFailure⟩ := inductionHypothesis others
              exact ⟨other, List.mem_cons_of_mem item member, isFailure⟩
          | ok results =>
              rw [first, others] at failed
              cases failed

/-- A search makes no transfers, so it does not fail with one. -/
theorem search_best_ne_transfer
    (model : CostModel)
    (layer : Layer)
    (options : SearchOptions)
    (code : Nat) :
    (model.search layer options).best ≠ .error (.transfer code) := by
  intro failed
  unfold search at failed
  split at failed
  · cases failed
  · unfold SearchOutcome.ofCandidates at failed
    dsimp only at failed
    split at failed <;> cases failed

theorem layerCost_ne_transfer
    (model : CostModel)
    (layer : Layer)
    (options : SearchOptions)
    (strategy : TileStrategy)
    (tiles : Nat)
    (placement : Placement)
    (code : Nat) :
    model.layerCost layer options strategy tiles placement ≠ .error (.transfer code) := by
  intro failed
  rw [layerCost_eq_map] at failed
  cases outcome : model.splitLayer layer options strategy tiles with
  | ok splits =>
      rw [outcome] at failed
      cases failed
  | error failure =>
      rw [outcome] at failed
      cases failed
      obtain ⟨tile, _, tileFailed⟩ := exists_of_mapM_eq_error outcome
      unfold splitTile at tileFailed
      dsimp only at tileFailed
      split at tileFailed
      · cases tileFailed
      · rename_i searchFailed
        cases tileFailed
        exact model.search_best_ne_transfer tile options code searchFailed

theorem bestLayerCost_ne_transfer
    (model : CostModel)
    (layer : Layer)
    (options : SearchOptions)
    (tiles : Nat)
    (placement : Placement)
    (code : Nat) :
    model.bestLayerCost layer options tiles placement ≠ .error (.transfer code) := by
  intro failed
  by_cases power : options.objective = .power
  · rw [bestLayerCost, if_pos power] at failed
    cases failed
  · rcases model.bestLayerCost_spec layer tiles placement power with
      ⟨strategy, cycles, _, answered, _⟩ | ⟨_, failure, wholeFailed, answered⟩
    · cases answered.symm.trans failed
    · cases answered.symm.trans failed
      exact model.layerCost_ne_transfer layer options .whole tiles placement code wholeFailed

end Outcomes

section Order

/-- More transfers take no less time. -/
theorem placedCycles_mono
    (within : placement.Within heavier)
    (slowest : Nat) :
    model.placedCycles layer strategy tiles placement slowest ≤
      model.placedCycles layer strategy tiles heavier slowest := by
  have weights :
      chargedIf (!placement.prefetching) (model.weightsCost layer strategy tiles) ≤
        chargedIf (!heavier.prefetching) (model.weightsCost layer strategy tiles) :=
    chargedIf_mono _ fun needed => by
      rw [Bool.not_eq_true'] at needed ⊢
      exact within.weights needed
  have input := chargedIf_mono (model.fetchCost layer.device layer.input 1) within.input
  have output := chargedIf_mono (model.fetchCost layer.device layer.output 1) within.output
  unfold placedCycles Cycles.clamp
  omega

/-- More transfers do not change whether a layer has a cost, and do not lower it. -/
theorem layerCost_of_within
    (model : CostModel)
    (layer : Layer)
    (options : SearchOptions)
    (strategy : TileStrategy)
    (tiles : Nat)
    (within : placement.Within heavier) :
    (∃ failure,
        model.layerCost layer options strategy tiles placement = .error failure ∧
          model.layerCost layer options strategy tiles heavier = .error failure) ∨
      ∃ cycles more,
        model.layerCost layer options strategy tiles placement = .ok cycles ∧
          model.layerCost layer options strategy tiles heavier = .ok more ∧ cycles ≤ more := by
  rw [layerCost_eq_map, layerCost_eq_map]
  cases model.splitLayer layer options strategy tiles with
  | error failure =>
      exact .inl ⟨failure, rfl, rfl⟩
  | ok splits =>
      exact .inr ⟨_, _, rfl, rfl, placedCycles_mono within _⟩

/-- With more transfers a layer still has a cost, and no smaller one. -/
theorem exists_layerCost_le
    {cycles : Nat}
    (within : placement.Within heavier)
    (cost : model.layerCost layer options strategy tiles placement = .ok cycles) :
    ∃ more,
      model.layerCost layer options strategy tiles heavier = .ok more ∧ cycles ≤ more := by
  rcases model.layerCost_of_within layer options strategy tiles within with
    ⟨failure, failed, _⟩ | ⟨fewer, more, isCost, isMore, atMost⟩
  · cases failed.symm.trans cost
  · cases isCost.symm.trans cost
    exact ⟨more, isMore, atMost⟩

/-- The cheapest strategy with more transfers is no cheaper than the one with fewer. -/
theorem exists_bestLayerCost_le
    {cycles : Nat}
    (within : placement.Within heavier)
    (answered : model.bestLayerCost layer options tiles placement = .ok (strategy, cycles)) :
    ∃ chosen more,
      model.bestLayerCost layer options tiles heavier = .ok (chosen, more) ∧ cycles ≤ more := by
  have notPower : options.objective ≠ .power := by
    intro power
    rw [bestLayerCost, if_pos power] at answered
    cases answered
  rcases model.bestLayerCost_spec layer tiles placement notPower with
    ⟨cheapest, least, position, isAnswer, cost, first⟩ | ⟨_, failure, _, isFailure⟩
  · cases isAnswer.symm.trans answered
    rcases model.bestLayerCost_spec layer tiles heavier notPower with
      ⟨chosen, more, position', isAnswer', cost', first'⟩ | ⟨noCosts, _⟩
    · refine ⟨chosen, more, isAnswer', ?_⟩
      -- The strategy chosen for more transfers has a cost with fewer as well.
      rcases model.layerCost_of_within layer options chosen tiles within with
        ⟨failure, _, failed⟩ | ⟨fewer, its, isFewer, isIts, atMost⟩
      · cases failed.symm.trans cost'
      · cases isIts.symm.trans cost'
        have noMore := first.least chosen (List.mem_of_getElem? first'.found) ⟨fewer, isFewer⟩
        rw [strategyCost, strategyCost, cost, isFewer] at noMore
        exact Nat.le_trans noMore atMost
    · obtain ⟨more, isMore, _⟩ := exists_layerCost_le within cost
      exact absurd ⟨more, isMore⟩ (noCosts strategy (List.mem_of_getElem? first.found))
  · cases isFailure.symm.trans answered

end Order

/--
Hardware makes every transfer of its generation.  It takes no less than either of its
latencies, and no more than the limit of counts.  So neither the cost of a layer nor the
cheapest one fails with a transfer.  When more has to be transferred, a layer that has a
cost still has one, and neither cost gets smaller.
-/
theorem transfers_accepted (model : CostModel) :
    (∀ transfer : Transfer,
        let hardware := Hardware.ofDevice transfer.device
        ∃ cycles,
          transfer.cycles hardware = .ok cycles ∧
            model.transferCost transfer = cycles ∧
            max (hardware.transferLatency transfer.source)
                (hardware.transferLatency transfer.destination) ≤ cycles ∧
            cycles ≤ Cycles.limit) ∧
      (∀ layer options strategy tiles placement code,
        model.layerCost layer options strategy tiles placement ≠ .error (.transfer code) ∧
          model.bestLayerCost layer options tiles placement ≠ .error (.transfer code)) ∧
      ∀ layer options tiles placement heavier,
        placement.Within heavier →
          (∀ strategy cycles,
            model.layerCost layer options strategy tiles placement = .ok cycles →
              ∃ more,
                model.layerCost layer options strategy tiles heavier = .ok more ∧
                  cycles ≤ more) ∧
            ∀ strategy cycles,
              model.bestLayerCost layer options tiles placement = .ok (strategy, cycles) →
                ∃ chosen more,
                  model.bestLayerCost layer options tiles heavier = .ok (chosen, more) ∧
                    cycles ≤ more := by
  refine ⟨model.exists_transferCost, ?_, ?_⟩
  · intro layer options strategy tiles placement code
    exact ⟨model.layerCost_ne_transfer layer options strategy tiles placement code,
      model.bestLayerCost_ne_transfer layer options tiles placement code⟩
  · intro layer options tiles placement heavier within
    exact ⟨fun strategy cycles cost => exists_layerCost_le within cost,
      fun strategy cycles answered => exists_bestLayerCost_le within answered⟩

/-- An even layer costs no less when its tensors and weights come from the external memory. -/
theorem transfers_accepted_of_evenLayer :
    Placement.initial.Within ⟨true, true, false⟩ ∧
      initial.layerCost evenLayer uncutSearch .rows 2 .initial = .ok 256 ∧
      initial.bestLayerCost evenLayer uncutSearch 2 .initial = .ok (.rows, 256) ∧
      (∃ more,
        initial.layerCost evenLayer uncutSearch .rows 2 ⟨true, true, false⟩ = .ok more ∧
          256 ≤ more) ∧
      ∃ chosen more,
        initial.bestLayerCost evenLayer uncutSearch 2 ⟨true, true, false⟩ = .ok (chosen, more) ∧
          256 ≤ more := by
  have within : Placement.initial.Within ⟨true, true, false⟩ := by
    constructor <;> decide
  have cost : initial.layerCost evenLayer uncutSearch .rows 2 .initial = .ok 256 :=
    eq_ok_of_toOption (by decide +kernel)
  have cheapest : initial.bestLayerCost evenLayer uncutSearch 2 .initial = .ok (.rows, 256) :=
    eq_ok_of_toOption (by decide +kernel)
  obtain ⟨ofStrategy, ofCheapest⟩ :=
    (transfers_accepted initial).2.2 evenLayer uncutSearch 2 .initial ⟨true, true, false⟩ within
  exact ⟨within, cost, cheapest, ofStrategy .rows 256 cost, ofCheapest .rows 256 cheapest⟩

section Spills

/-- Cycles of writing a tensor to the external memory. -/
def spillCost
    (model : CostModel)
    (device : Device)
    (tensor : Tensor) : Nat :=
  model.transferCost ⟨device, tensor, tensor, .cmx, .dram, 1⟩

/-- Writing a tensor costs what fetching it costs. -/
theorem fetchCost_eq_spillCost
    (model : CostModel)
    (device : Device)
    (tensor : Tensor) :
    model.fetchCost device tensor 1 = model.spillCost device tensor :=
  congrArg Cycles.toScalar (Transfer.cycles_reverse ⟨device, tensor, tensor, .cmx, .dram, 1⟩ _)

/-- An output that leaves the local memory is added to what a layer takes without it. -/
theorem placedCycles_spilled
    (model : CostModel)
    (layer : Layer)
    (strategy : TileStrategy)
    (tiles : Nat)
    (placement : Placement)
    (slowest : Nat) :
    model.placedCycles layer strategy tiles { placement with outputInDram := true } slowest =
      Cycles.add
        (model.placedCycles layer strategy tiles { placement with outputInDram := false } slowest)
        (model.spillCost layer.device layer.output) := by
  have spillCounts : Cycles.isError (model.spillCost layer.device layer.output) = false :=
    model.isError_transferCost _
  unfold placedCycles
  rw [Cycles.add_of_counts (Cycles.isError_clamp _) spillCounts, Cycles.clamp_clamp_add,
    ← fetchCost_eq_spillCost]
  rfl

/--
The copy back takes as long as a transfer on any hardware, and is refused where the
transfer is.  In particular an output that leaves the local memory adds the time of that
very transfer, although it is priced as one that fetches the output.
-/
theorem transfers_directionless :
    (∀ (transfer : Transfer) (hardware : Hardware),
        transfer.reverse.cycles hardware = transfer.cycles hardware) ∧
      ∀ (model : CostModel) (layer : Layer) (options : SearchOptions) (strategy : TileStrategy)
        (tiles : Nat) (placement : Placement),
        model.layerCost layer options strategy tiles { placement with outputInDram := true } =
          (model.layerCost layer options strategy tiles
            { placement with outputInDram := false }).map fun cycles =>
              Cycles.add cycles (model.spillCost layer.device layer.output) := by
  refine ⟨Transfer.cycles_reverse, ?_⟩
  intro model layer options strategy tiles placement
  rw [layerCost_eq_map, layerCost_eq_map]
  cases model.splitLayer layer options strategy tiles with
  | error failure =>
      rfl
  | ok splits =>
      exact congrArg Except.ok (placedCycles_spilled ..)

end Spills

end CostModel

end DpuCycles
