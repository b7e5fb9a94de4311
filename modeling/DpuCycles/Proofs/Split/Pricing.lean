import DpuCycles.Proofs.Estimate.Batch
import DpuCycles.Split.Search

namespace DpuCycles

open Network

/-!
# Candidates are priced alike in any order

A model keeps contexts for later, so what a candidate is priced in depends on those that
were priced before it, or on those that are priced at the same time.  The invariant along
the candidates is that all contexts kept are ones the model may have used: in any of them
a candidate has the price it has in a new context.

Cuts are made before the first of them is priced, so that a search has no outcome where one
of them cannot be made.
-/

namespace CostModel

variable
  {model : CostModel}
  {kept : List Context}
  {workloads : List Workload}
  {candidates : List (List Workload)}

/-- Contexts that a search may find kept. -/
structure Offers
    (model : CostModel)
    (kept : KeptContexts) : Prop where
  first : model.Keeps kept.first
  each : ∀ position, model.Keeps (kept.each position)

theorem offers_none (model : CostModel) : model.Offers .none :=
  ⟨model.keeps_nil, fun _ => model.keeps_nil⟩

/-- A candidate with its price. -/
def priced
    (model : CostModel)
    (layer : Layer)
    (options : SearchOptions)
    (workloads : List Workload) : Candidate :=
  ⟨workloads, model.price options (options.processorsFor layer) workloads⟩

/-- Whatever contexts are kept, a candidate that can be priced has its price. -/
theorem priceKept_eq
    (fits : model.Fits)
    (keeps : model.Keeps kept)
    (priceable : model.canPrice workloads)
    (layer : Layer)
    (options : SearchOptions) :
    (model.priceKept layer options kept workloads).2 =
        some (model.priced layer options workloads) ∧
      model.Keeps (model.priceKept layer options kept workloads).1 := by
  obtain ⟨costs, keepsNext⟩ := costsKept_eq fits keeps priceable
  refine ⟨?_, keepsNext⟩
  unfold priceKept priced price
  dsimp only
  rw [costs, costs_eq_map fits, Option.map_some]

variable
  {layer : Layer}
  {options : SearchOptions}

/-- One after another, candidates have their prices. -/
theorem priceInTurn_eq
    (fits : model.Fits)
    (keeps : model.Keeps kept)
    (priceable : ∀ workloads ∈ candidates, model.canPrice workloads) :
    model.priceInTurn layer options kept candidates =
      some (candidates.map (model.priced layer options)) := by
  induction candidates generalizing kept with
  | nil =>
      rfl
  | cons workloads rest inductionHypothesis =>
      obtain ⟨first, others⟩ := List.forall_mem_cons.mp priceable
      obtain ⟨price, keepsNext⟩ := priceKept_eq fits keeps first layer options
      unfold priceInTurn
      split
      · rename_i next candidate taken
        rw [taken] at price keepsNext
        rw [inductionHypothesis keepsNext others, Option.some.inj price]
        rfl
      · rename_i taken
        rw [taken] at price
        contradiction

/-- At the same time, candidates have their prices. -/
theorem priceTogether_eq
    {handed : Nat → List Context}
    (fits : model.Fits)
    (keeps : ∀ position, model.Keeps (handed position))
    (priceable : ∀ workloads ∈ candidates, model.canPrice workloads) :
    model.priceTogether layer options handed candidates =
      some (candidates.map (model.priced layer options)) := by
  unfold priceTogether
  generalize 0 = start
  induction candidates generalizing start with
  | nil =>
      rfl
  | cons workloads rest inductionHypothesis =>
      obtain ⟨first, others⟩ := List.forall_mem_cons.mp priceable
      rw [List.zipIdx_cons, List.mapM_cons]
      dsimp only
      rw [(priceKept_eq fits (keeps start) first layer options).1, inductionHypothesis others]
      rfl

/-- A search that can be made has the outcome of one that keeps no contexts. -/
theorem searchKept_eq_search
    {kept : KeptContexts}
    (fits : model.Fits)
    (offers : model.Offers kept)
    (searchable : model.canSearch options layer) :
    model.searchKept layer options kept = some (model.search layer options) := by
  unfold searchKept search
  dsimp only
  split
  · rfl
  · rename_i notPower
    rw [canSearch, beq_false_of_ne notPower, Bool.false_or, Bool.and_eq_true,
      List.all_eq_true] at searchable
    rw [if_pos searchable.1, priceTogether_eq fits offers.each searchable.2,
      priceInTurn_eq fits offers.first searchable.2, ite_self]
    rfl

/-- A search has no outcome where a cut cannot be made. -/
theorem searchKept_of_uncut
    (notPower : options.objective ≠ .power)
    (uncut : layer.canCut options = false)
    (kept : KeptContexts) :
    model.searchKept layer options kept = none := by
  unfold searchKept
  dsimp only
  rw [if_neg notPower, uncut, if_neg Bool.false_ne_true]

end CostModel

end DpuCycles
