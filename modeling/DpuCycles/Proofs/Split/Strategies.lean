import DpuCycles.Proofs.Split.Selection
import DpuCycles.Split.LayerCost

namespace DpuCycles

/-!
# The cheapest strategy

The strategies of a generation are tried in order, and a later one replaces the
one kept so far only when it is strictly cheaper.  Strategies without a cut of
their own cost what replication costs.  Replication is tried before all of them,
so none of them is ever the answer.
-/

namespace CostModel

/-- Costs of strategies, in the order they are tried. -/
abbrev StrategyCosts := List (TileStrategy × Except SearchFailure Nat)

/-- A strategy with a cost. -/
def HasCost (entry : TileStrategy × Except SearchFailure Nat) : Prop :=
  ∃ cycles, entry.2 = .ok cycles

/-- The cost of a strategy that has one. -/
def costOf (entry : TileStrategy × Except SearchFailure Nat) : Nat :=
  entry.2.toOption.getD 0

/-- The cheapest strategy so far after one more. -/
def cheaper
    (best : Option (TileStrategy × Nat))
    (entry : TileStrategy × Except SearchFailure Nat) : Option (TileStrategy × Nat) :=
  match entry.2, best with
  | .ok cycles, none => some (entry.1, cycles)
  | .ok cycles, some (_, least) => if cycles < least then some (entry.1, cycles) else best
  | .error _, _ => best

/-- What the cheapest strategy so far is among those that were seen. -/
def CheapestOf (seen : StrategyCosts) : Option (TileStrategy × Nat) → Prop
  | none => ∀ entry ∈ seen, ¬HasCost entry
  | some (strategy, cycles) =>
      ∃ position, FirstLeast HasCost costOf seen position (strategy, .ok cycles)

variable
  {seen costs : StrategyCosts}
  {best : Option (TileStrategy × Nat)}

/-- One more strategy is kept exactly when it is the new first one of the least cost. -/
theorem cheapestOf_cheaper
    (entry : TileStrategy × Except SearchFailure Nat)
    (cheapest : CheapestOf seen best) :
    CheapestOf (seen ++ [entry]) (cheaper best entry) := by
  obtain ⟨strategy, outcome⟩ := entry
  cases outcome with
  | error failure =>
      have noCost : ¬HasCost (strategy, .error failure) := by
        rintro ⟨cycles, isOk⟩
        cases isOk
      cases best with
      | none =>
          intro other member
          rcases List.mem_append.mp member with old | new
          · exact cheapest other old
          · rwa [List.mem_singleton.mp new]
      | some known =>
          obtain ⟨position, first⟩ := cheapest
          exact ⟨position, first.keep fun hasCost => absurd hasCost noCost⟩
  | ok cycles =>
      have hasCost : HasCost (strategy, .ok cycles) := ⟨cycles, rfl⟩
      cases best with
      | none =>
          exact ⟨seen.length, .replace hasCost fun other member otherCost =>
            absurd otherCost (cheapest other member)⟩
      | some known =>
          obtain ⟨kept, least⟩ := known
          obtain ⟨position, first⟩ := cheapest
          -- Only a strictly smaller cost replaces, so the earliest of equals stays.
          by_cases less : cycles < least
          · simp only [cheaper, if_pos less]
            exact ⟨seen.length, .replace hasCost fun other member otherCost =>
              Nat.lt_of_lt_of_le less (first.least other member otherCost)⟩
          · simp only [cheaper, if_neg less]
            exact ⟨position, first.keep fun _ => Nat.not_lt.mp less⟩

/-- Going through strategies keeps the cheapest of all that were seen. -/
theorem cheapestOf_foldl
    (cheapest : CheapestOf seen best) :
    CheapestOf (seen ++ costs) (costs.foldl cheaper best) := by
  induction costs generalizing seen best with
  | nil =>
      rwa [List.append_nil]
  | cons entry rest inductionHypothesis =>
      have next := inductionHypothesis (cheapestOf_cheaper entry cheapest)
      rwa [List.append_assoc] at next

/-- What is answered once the cheapest strategy is known. -/
theorem cheapest_eq
    (costs : StrategyCosts) :
    cheapest costs =
      match costs.foldl cheaper none with
      | some best => .ok best
      | none =>
          match costs with
          | (_, .error failure) :: _ => .error failure
          | _ => .error (.noSplit false) :=
  rfl

/-- The answer is the first strategy of the least cost, or the failure of the first one. -/
theorem cheapest_spec
    (costs : StrategyCosts)
    (tried : costs ≠ []) :
    (∃ strategy cycles position,
        cheapest costs = .ok (strategy, cycles) ∧
          FirstLeast HasCost costOf costs position (strategy, .ok cycles)) ∨
      (∀ entry ∈ costs, ¬HasCost entry) ∧
        ∃ strategy failure,
          costs.head? = some (strategy, .error failure) ∧ cheapest costs = .error failure := by
  have nothingSeen : CheapestOf [] none := fun _ member => (List.not_mem_nil member).elim
  have selected : CheapestOf costs (costs.foldl cheaper none) := cheapestOf_foldl nothingSeen
  rw [cheapest_eq]
  cases best : costs.foldl cheaper none with
  | some known =>
      obtain ⟨strategy, cycles⟩ := known
      rw [best] at selected
      obtain ⟨position, first⟩ := selected
      exact .inl ⟨strategy, cycles, position, rfl, first⟩
  | none =>
      rw [best] at selected
      cases costs with
      | nil =>
          exact absurd rfl tried
      | cons entry rest =>
          obtain ⟨strategy, outcome⟩ := entry
          cases outcome with
          | error failure =>
              exact .inr ⟨selected, strategy, failure, rfl, rfl⟩
          | ok cycles =>
              exact absurd ⟨cycles, rfl⟩ (selected (strategy, .ok cycles) List.mem_cons_self)

variable
  {options : SearchOptions}

/-- Whether a strategy has a cost, and which, for layers on tiles. -/
def StrategyHasCost
    (model : CostModel)
    (layer : Layer)
    (options : SearchOptions)
    (tiles : Nat)
    (placement : Placement)
    (strategy : TileStrategy) : Prop :=
  ∃ cycles, model.layerCost layer options strategy tiles placement = .ok cycles

/-- The cost of a strategy that has one, for layers on tiles. -/
def strategyCost
    (model : CostModel)
    (layer : Layer)
    (options : SearchOptions)
    (tiles : Nat)
    (placement : Placement)
    (strategy : TileStrategy) : Nat :=
  (model.layerCost layer options strategy tiles placement).toOption.getD 0

/-- Replication is the first strategy of every generation. -/
theorem head?_ofDevice
    (device : Device) :
    (TileStrategy.ofDevice device).head? = some .whole := by
  cases device <;> rfl

/-- The first strategy of the least cost is answered, or all fail and the first one's failure is. -/
theorem bestLayerCost_spec
    (model : CostModel)
    (layer : Layer)
    (tiles : Nat)
    (placement : Placement)
    (notPower : options.objective ≠ .power) :
    (∃ strategy cycles position,
        model.bestLayerCost layer options tiles placement = .ok (strategy, cycles) ∧
          model.layerCost layer options strategy tiles placement = .ok cycles ∧
          FirstLeast (model.StrategyHasCost layer options tiles placement)
            (model.strategyCost layer options tiles placement)
            (TileStrategy.ofDevice layer.device) position strategy) ∨
      (∀ strategy ∈ TileStrategy.ofDevice layer.device,
          ¬model.StrategyHasCost layer options tiles placement strategy) ∧
        ∃ failure,
          model.layerCost layer options .whole tiles placement = .error failure ∧
            model.bestLayerCost layer options tiles placement = .error failure := by
  have first := head?_ofDevice layer.device
  have tried : TileStrategy.ofDevice layer.device ≠ [] := by
    intro nothing
    simp [nothing] at first
  rw [bestLayerCost, if_neg notPower]
  rcases cheapest_spec _ (mt List.map_eq_nil_iff.mp tried) with
    ⟨strategy, cycles, position, answer, least⟩ | ⟨noCosts, strategy, failure, head, answer⟩
  · obtain ⟨original, isOriginal, leastOriginal⟩ := FirstLeast.of_map least
    obtain ⟨rfl, cost⟩ := Prod.mk.inj isOriginal
    exact .inl ⟨original, cycles, position, answer, cost, leastOriginal⟩
  · refine .inr ⟨fun other member => noCosts _ (List.mem_map_of_mem member), failure, ?_, answer⟩
    rw [List.head?_map, first, Option.map_some, Option.some.injEq, Prod.mk.injEq] at head
    exact head.2

/-- A layer of 16 by 16 points, on the generation with all strategies. -/
def evenLayer : Layer :=
  let tensor := Tensor.dense ⟨16, 16, 64, 1⟩ .uint8
  .ofWorkload (.plain .vpu40 .convolution tensor tensor .cuboid16x16)

/-- A search that cuts nothing. -/
def uncutSearch : SearchOptions :=
  { SearchOptions.initial with maxWorkloads := 1, cuts := [.channels] }

end CostModel

end DpuCycles
