import DpuCycles.Estimate.CostModel
import DpuCycles.Split.Options
import DpuCycles.Split.Schedule

namespace DpuCycles

open Network

/-!
# Searching for the best cut

All cuts are tried in all execution modes with all numbers of workloads, in a
fixed order.  A candidate counts when each of its workloads has a cost and its
schedule takes time; the first one with the least score is the answer.
-/

/-- A list of workloads with its cost. -/
structure Split where
  cost : Nat
  workloads : List Workload
  deriving Repr, DecidableEq

/-- Why there is no answer. -/
inductive SearchFailure where
  /-- The objective has no cost function. -/
  | noObjective
  | noSplit (allZero : Bool)
  | transfer (code : Nat)
  deriving Repr, DecidableEq

namespace SearchFailure

/-- Text of a failure. -/
def message : SearchFailure → String
  | .noObjective => "the power optimization target has no cost function"
  | .noSplit allZero =>
      "no valid split found (all candidates zero: " ++ (if allZero then "true" else "false") ++
        ")"
  | .transfer code => "DMA transfer rejected with code " ++ toString code

/-- Scalar of a failure; a missing objective has none. -/
def code? : SearchFailure → Option Nat
  | .noObjective => none
  | .noSplit true => some CostError.tileSplitZeroCycles.code
  | .noSplit false => some CostError.tileOutput.code
  | .transfer code => some code

end SearchFailure

/-- The price of one candidate. -/
inductive Price where
  /-- The schedule takes some cycles, and scores by the objective. -/
  | feasible (cycles : Nat) (score : Rounded)
  | zero
  /-- A workload has no cost. -/
  | rejected (code : Nat)
  deriving Repr, DecidableEq

namespace Price

/-- The scalar a price is reported as. -/
def scalar : Price → Nat
  | .feasible cycles _ => cycles
  | .zero => 0
  | .rejected code => code

/-- Whether a price is zero. -/
def isZero : Price → Bool
  | .zero => true
  | _ => false

end Price

/-- A cut of a layer that was tried. -/
structure Candidate where
  workloads : List Workload
  price : Price
  deriving Repr, DecidableEq

namespace Candidate

/-- The candidate with its reported cost. -/
def split (candidate : Candidate) : Split :=
  ⟨candidate.price.scalar, candidate.workloads⟩

/-- The feasible candidate with the least score, the earliest of equals, with its score. -/
def best? : List Candidate → Option (Rounded × Candidate)
  | candidates =>
      candidates.foldl
        (fun best candidate =>
          match candidate.price with
          | .feasible _ score =>
              match best with
              | none => some (score, candidate)
              | some (least, _) => if score.lt least then some (score, candidate) else best
          | _ => best)
        none

end Candidate

/-- The outcome of a search, with everything that was tried in order. -/
structure SearchOutcome where
  best : Except SearchFailure Split
  tried : List Split

/-- The outcome of a search that tried some candidates. -/
def SearchOutcome.ofCandidates (candidates : List Candidate) : SearchOutcome :=
  let best :=
    match Candidate.best? candidates with
    | some (_, candidate) => .ok candidate.split
    | none =>
        .error (.noSplit (!candidates.isEmpty && candidates.all fun candidate =>
          candidate.price.isZero))
  ⟨best, candidates.map Candidate.split⟩

namespace Layer

/-- The cuts that are tried: processors that work alone and limited channels rule some out. -/
def cutsFor
    (layer : Layer)
    (options : SearchOptions)
    (processors : Nat) : List Cut :=
  let alone := processors == 1 && options.cuts.contains .channels
  let allowsPlane := !layer.limitsChannels && !alone
  options.cuts.filter fun cut => cut == .channels || allowsPlane

/-- All cuts of a layer in the order they are tried. -/
def candidates
    (layer : Layer)
    (options : SearchOptions)
    (processors limit : Nat) : List (List Workload) :=
  (layer.cutsFor options processors).flatMap fun cut =>
    layer.modes.flatMap fun mode =>
      (cut.pool layer processors mode limit).flatMap fun count =>
        (cut.boxes? layer mode count).getD []

/-- Whether every cut of a layer that is tried can be made. -/
def canCut
    (layer : Layer)
    (options : SearchOptions) : Bool :=
  let processors := options.processorsFor layer
  let limit := options.workloadLimit (Hardware.ofDevice layer.device).dpuClock
  (layer.cutsFor options processors).all fun cut =>
    layer.modes.all fun mode =>
      (cut.pool layer processors mode limit).all fun count =>
        (cut.boxes? layer mode count).isSome

end Layer

namespace CostModel

/-- Ideal cycles of a workload, zeros multiplied; nothing for a refused one. -/
def efficiencyCycles
    (model : CostModel)
    (workload : Workload) : Nat :=
  match model.gate.accept workload with
  | .ok job => (job.idealCycles (.ofDevice job.device)).efficiencyCycles
  | .error _ => 0

/--
The score of a schedule.  For efficiency the cycles are weighed by how many times
the ideal cycles fit the time of all processors.
-/
def score
    (model : CostModel)
    (objective : Objective)
    (processors makespan : Nat)
    (workloads : List Workload) : Rounded :=
  let cycles := Rounded.ofNat makespan
  match objective with
  | .efficiency =>
      let ideal := workloads.foldl (fun sum workload => sum + model.efficiencyCycles workload) 0
      if ideal = 0 then
        cycles
      else
        cycles * (cycles * .ofNat processors) / .ofNat ideal
  | _ => cycles

/-- The price of a candidate by the costs of its workloads. -/
def priceOf
    (model : CostModel)
    (options : SearchOptions)
    (processors : Nat)
    (workloads : List Workload)
    (costs : List Nat) : Price :=
  match costs.find? Cycles.isError with
  | some code => .rejected code
  | none =>
      let makespan := Schedule.makespan processors costs options.overhead
      if makespan = 0 then
        .zero
      else
        .feasible makespan (model.score options.objective processors makespan workloads)

/-- The price of a candidate. -/
def price
    (model : CostModel)
    (options : SearchOptions)
    (processors : Nat)
    (workloads : List Workload) : Price :=
  model.priceOf options processors workloads (model.costs workloads)

/-- The candidates of a layer, in the order they are tried. -/
def candidatesOf
    (layer : Layer)
    (options : SearchOptions) : List (List Workload) :=
  layer.candidates options (options.processorsFor layer)
    (options.workloadLimit (Hardware.ofDevice layer.device).dpuClock)

/-- All cuts of a layer with their prices. -/
def pricedCandidates
    (model : CostModel)
    (layer : Layer)
    (options : SearchOptions) : List Candidate :=
  (candidatesOf layer options).map fun workloads =>
    ⟨workloads, model.price options (options.processorsFor layer) workloads⟩

/-- The best cut of a layer on one tile. -/
def search
    (model : CostModel)
    (layer : Layer)
    (options : SearchOptions) : SearchOutcome :=
  if options.objective = .power then
    ⟨.error .noObjective, []⟩
  else
    .ofCandidates (model.pricedCandidates layer options)

/-- Price a candidate in a context that is kept; there is no price without room for that. -/
def priceKept
    (model : CostModel)
    (layer : Layer)
    (options : SearchOptions)
    (kept : List Context)
    (workloads : List Workload) : List Context × Option Candidate :=
  let (next, costs?) := model.costsKept kept workloads
  (next, costs?.map fun costs =>
    ⟨workloads, model.priceOf options (options.processorsFor layer) workloads costs⟩)

/-- Price candidates one after another, each in what those before it have kept. -/
def priceInTurn
    (model : CostModel)
    (layer : Layer)
    (options : SearchOptions) :
    List Context → List (List Workload) → Option (List Candidate)
  | _, [] => some []
  | kept, workloads :: rest =>
      match model.priceKept layer options kept workloads with
      | (next, some candidate) =>
          (priceInTurn model layer options next rest).map (candidate :: ·)
      | (_, none) => none

/-- Price candidates at the same time, each in what is kept when its turn comes. -/
def priceTogether
    (model : CostModel)
    (layer : Layer)
    (options : SearchOptions)
    (kept : Nat → List Context)
    (candidates : List (List Workload)) : Option (List Candidate) :=
  candidates.zipIdx.mapM fun (workloads, position) =>
    (model.priceKept layer options (kept position) workloads).2

/--
Contexts that a search finds kept: at its start, and, when candidates are priced at the
same time, at the start of each of them.  These depend on which others are under way.
-/
structure KeptContexts where
  first : List Context
  each : Nat → List Context

namespace KeptContexts

/-- No contexts are kept. -/
def none : KeptContexts :=
  ⟨[], fun _ => []⟩

end KeptContexts

/-- The best cut of a layer, none where a cut cannot be made or cannot be priced. -/
def searchKept
    (model : CostModel)
    (layer : Layer)
    (options : SearchOptions)
    (kept : KeptContexts) : Option SearchOutcome :=
  let candidates := candidatesOf layer options
  if options.objective = .power then
    some ⟨.error .noObjective, []⟩
  else if layer.canCut options then
    let priced? :=
      if options.parallel then
        model.priceTogether layer options kept.each candidates
      else
        model.priceInTurn layer options kept.first candidates
    priced?.map .ofCandidates
  else
    none

/-- Whether a layer can be searched: every cut can be made and can be priced. -/
def canSearch
    (model : CostModel)
    (options : SearchOptions)
    (layer : Layer) : Bool :=
  options.objective == .power ||
    layer.canCut options && (candidatesOf layer options).all model.canPrice

/-- The best cut of a layer; everything that was tried is appended to a store. -/
def searchInto
    (model : CostModel)
    (layer : Layer)
    (options : SearchOptions)
    (store : List Split) : Except SearchFailure Split × List Split :=
  let outcome := model.search layer options
  (outcome.best, store ++ outcome.tried)

/-- The best cut of a layer; everything that was tried is appended to a store, if there is one. -/
def searchStoring
    (model : CostModel)
    (layer : Layer)
    (options : SearchOptions)
    (kept : KeptContexts)
    (store? : Option (List Split)) : Option (Except SearchFailure Split × Option (List Split)) :=
  (model.searchKept layer options kept).map fun outcome =>
    (outcome.best, store?.map (· ++ outcome.tried))

end CostModel

end DpuCycles
