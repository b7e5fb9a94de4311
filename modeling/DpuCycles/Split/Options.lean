import DpuCycles.Record.Form
import DpuCycles.Split.Cut

namespace DpuCycles

/-!
# Options of the search for a cut

Options are read from a JSON record; a field that is absent has its default.
-/

/-- What a search minimises. -/
inductive Objective where
  | latency
  | power
  | efficiency
  deriving Repr, DecidableEq

instance : Enumerated Objective where
  domain := "VPUOptimizationTarget"
  values := [.latency, .power, .efficiency]
  label
    | .latency => "Latency"
    | .power => "Power"
    | .efficiency => "Efficiency"

/-- Options of a search. -/
structure SearchOptions where
  maxWorkloads : Nat
  /-- Microseconds a cut may take to run; zero does not limit it. -/
  maxLatency : Nat
  /-- Processors that share the tile; zero takes those of the layer. -/
  processors : Nat
  /-- Cycles added to each workload. -/
  overhead : Nat
  objective : Objective
  /-- Cuts to try, in order. -/
  cuts : List Cut
  /-- Candidates may be priced at the same time, which changes no result. -/
  parallel : Bool
  /-- Keep every candidate of every tile. -/
  keepCandidates : Bool
  deriving Repr, DecidableEq

namespace SearchOptions

/-- The options nobody changed. -/
def initial : SearchOptions :=
  ⟨128, 0, 0, 0, .latency, [.plane, .channels], false, false⟩

/-- Members of the options, in order. -/
def record : Record SearchOptions :=
  [.of "max_workloads" .count (·.maxWorkloads)
      fun maxWorkloads options => { options with maxWorkloads },
    .of "max_latency_us" .count (·.maxLatency)
      fun maxLatency options => { options with maxLatency },
    .of "n_dpu" .count (·.processors) fun processors options => { options with processors },
    .of "runtime_overhead" .count (·.overhead) fun overhead options => { options with overhead },
    .of "target" .named (·.objective) fun objective options => { options with objective },
    .of "strategies" (.list .named) (·.cuts) fun cuts options => { options with cuts },
    .of "parallel" .truth (·.parallel) fun parallel options => { options with parallel },
    .of "keep_all_candidates" .truth (·.keepCandidates)
      fun keepCandidates options => { options with keepCandidates }]

/-- A 32-bit count. -/
def count? : Json → Option Nat :=
  Json.natural? Text.greatest32

/-- The value of an enumerated domain that a JSON value names. -/
def named?
    [DecidableEq α]
    [Enumerated α]
    (value : Json) : Option α :=
  value.alternative?.bind Enumerated.ofLabel?

/-- A list of cuts. -/
def cuts? (value : Json) : Option (List Cut) :=
  value.items?.bind fun items => items.mapM named?

/-- The options a JSON value writes. -/
def ofJson? (value : Json) : Option SearchOptions :=
  match Json.record? (record.map (·.label)) value with
  | some [workloads, latency, processors, overhead, objective, cuts, parallel, keep] => do
      let workloads ← Json.given initial.maxWorkloads count? workloads
      let latency ← Json.given initial.maxLatency count? latency
      let processors ← Json.given initial.processors count? processors
      let overhead ← Json.given initial.overhead count? overhead
      let objective ← Json.given initial.objective named? objective
      let cuts ← Json.given initial.cuts cuts? cuts
      let parallel ← Json.given initial.parallel Json.bool? parallel
      let keep ← Json.given initial.keepCandidates Json.bool? keep
      return ⟨workloads, latency, processors, overhead, objective, cuts, parallel, keep⟩
  | _ => none

/-- Read options from a text. -/
def load? (text : String) : Option SearchOptions :=
  (Json.read? text.toList).bind ofJson?

/-- Processors that share the tile of a layer. -/
def processorsFor
    (options : SearchOptions)
    (layer : Layer) : Nat :=
  if 0 < options.processors then options.processors else max layer.processors 1

/-- The greatest number of workloads, bounded by what can start in time at a clock. -/
def workloadLimit
    (options : SearchOptions)
    (clock : Nat) : Nat :=
  if options.maxLatency = 0 then
    options.maxWorkloads
  else
    let started := options.maxLatency * clock / (options.overhead + 1)
    min options.maxWorkloads (min (max started 1) Text.greatest32)

end SearchOptions

end DpuCycles
