import DpuCycles.Record.Workload
import DpuCycles.Split.LayerCost

namespace DpuCycles

/-! # Records of layers and of their cuts -/

namespace Layer

/-- The JSON object of a layer. -/
def toJson (layer : Layer) : Json :=
  .ofMembers
    [("workload", Workload.record.write layer.workload), ("name", .ofString layer.name),
      ("compiler_pass", .ofString layer.compilerPass),
      ("strategy", Form.named.write layer.strategy), ("n_tiles", .ofNat layer.tiles),
      ("n_dpu", .ofNat layer.processors)]

/-- The shapes of a layer and the processors that share it. -/
def outline (layer : Layer) : Json :=
  .ofMembers
    [("in", Shape.form.write layer.input.shape), ("out", Shape.form.write layer.output.shape),
      ("pad", Padding.form.write layer.workload.padding), ("tiles", .ofNat layer.tiles),
      ("dpu", .ofNat layer.processors)]

end Layer

namespace Split

/-- The cost of a cut and the number of its workloads. -/
def counted (split : Split) : Json :=
  .array [.ofNat split.cost, .ofNat split.workloads.length]

/-- The cost of a cut and its workloads. -/
def outline (split : Split) : Json :=
  .array [.ofNat split.cost, Workload.outlines split.workloads]

end Split

/-- Members of a placement. -/
def Placement.record : Record Placement :=
  [.of "input_in_ddr" .truth (·.inputInDram)
      fun inputInDram placement => { placement with inputInDram },
    .of "output_in_ddr" .truth (·.outputInDram)
      fun outputInDram placement => { placement with outputInDram },
    .of "prefetching" .truth (·.prefetching)
      fun prefetching placement => { placement with prefetching }]

/-- The JSON object of a failure: its kind, and its text with its scalar where it has one. -/
def SearchFailure.toJson (failure : SearchFailure) : Json :=
  let written (kind text : String) : Json :=
    .ofMembers [("error", .ofString kind), ("message", .ofString text)]
  let coded := failure.message ++ " [" ++ toString (failure.code?.getD 0) ++ "]"
  match failure with
  | .noObjective => written "panic" failure.message
  | .noSplit _ => written "NoValidSplit" coded
  | .transfer _ => written "Transfer" coded

end DpuCycles
