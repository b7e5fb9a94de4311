import DpuCycles.Estimate.CostModel
import DpuCycles.Record.Cost

namespace DpuCycles

/-!
# Facts about networks and cost models

Networks are too large to be written in full; what is written tells them apart.
-/

namespace Network

/-- The JSON object of a version. -/
def Version.toJson (version : Version) : Json :=
  .ofMembers
    [("name", .ofString version.name), ("input_version", .ofNat version.input),
      ("output_version", .ofNat version.output)]

/-- Each kernel with the width it reads, where that is fixed, and the width it leaves. -/
def Trained.outline (network : Trained) : Json :=
  .array ((network.kernels.zip (widths network.inputSize network.kernels)).map
    fun (kernel, width) =>
      .array
        [.ofString kernel.label, (Form.option .count).write kernel.inputWidth?, .ofNat width])

/-- Version and sizes of a network. -/
def Trained.facts (network : Trained) : List (String × Json) :=
  [("initialized", .bool network.isPresent), ("version", network.version.toJson),
    ("input_size", .ofNat network.inputSize), ("output_size", .ofNat network.outputSize),
    ("max_width", .ofNat network.maxWidth), ("blob_len", .ofNat network.fileLength),
    ("layers", network.outline)]

end Network

/-- How a cost model was set up. -/
def CostModel.facts (model : CostModel) : Json :=
  let devices : List Device := Enumerated.values
  let settings := model.settings
  .ofMembers
    [("nn", .bool model.predictor?.isSome), ("version", model.network.version.toJson),
      ("batch", .ofNat settings.batch),
      ("flags", (Form.list .truth).write
        [settings.profiling, settings.ignoreOverhead, settings.closedFormFallback]),
      ("supports", (Form.list .truth).write
        (devices.map fun device => (Capability.ofDevice? model.gate.tables device).isSome)),
      ("ignore_overhead", .bool model.gate.ignoreOverhead)]

end DpuCycles
