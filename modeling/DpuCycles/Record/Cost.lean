import DpuCycles.Estimate.Ideal
import DpuCycles.Record.Form

namespace DpuCycles

/-!
# Records of costs

An error stands as its label; a code without a name stands in an object under
`Other`.
-/

namespace CostError

/-- Label of an error. -/
def label : CostError → String
  | .inputTooBig => "InputTooBig"
  | .invalidInputConfiguration => "InvalidInputConfiguration"
  | .invalidInputDevice => "InvalidInputDevice"
  | .invalidInputOperation => "InvalidInputOperation"
  | .invalidOutputRange => "InvalidOutputRange"
  | .tileOutput => "TileOutput"
  | .tileSplitZeroCycles => "TileSplitZeroCycOutput"
  | .tileSplitException => "TileSplitException"
  | .invalidLayerConfiguration => "InvalidLayerConfiguration"
  | .other _ => "Other"

/-- Errors by their labels. -/
def form : Form CostError where
  write
    | .other code => .ofMembers [("Other", .ofNat code)]
    | error => .ofString error.label
  read?
    | .string text => text.bind fun text => named.find? fun error => error.label == text
    | value => (Form.count.read? (value.member "Other")).map .other

end CostError

/-- Members of ideal cycles. -/
def IdealCycles.record : Record IdealCycles :=
  [.of "sparse_mac_operations" .count (·.sparseMacs)
      fun sparseMacs ideal => { ideal with sparseMacs },
    .of "dense_mac_operations" .count (·.denseMacs)
      fun denseMacs ideal => { ideal with denseMacs },
    .of "power_ideal_cycles" .count (·.powerCycles)
      fun powerCycles ideal => { ideal with powerCycles },
    .of "efficiency_ideal_cycles" .count (·.efficiencyCycles)
      fun efficiencyCycles ideal => { ideal with efficiencyCycles }]

/-- The JSON object of a report, with everything that follows from it. -/
def CostReport.toJson (report : CostReport) : Json :=
  .ofMembers
    [("dpu_cycles", .ofNat report.scalar), ("err_info", .ofString report.info),
      ("raw_cycles", Form.float32.write report.raw),
      ("power_ideal_cycles", .ofNat report.ideal.powerCycles),
      ("efficiency_ideal_cycles", .ofNat report.ideal.efficiencyCycles),
      ("hw_theoretical_cycles", .ofNat report.closedForm),
      ("sparse_mac_operations", .ofNat report.ideal.sparseMacs),
      ("dense_mac_operations", .ofNat report.ideal.denseMacs),
      ("mac_utilization", Form.float32.write report.macUtilization),
      ("power_activity_factor", Form.float32.write report.macUtilization),
      ("efficiency_activity_factor", Form.float32.write report.efficiency),
      ("energy", Form.float32.write report.energy)]

end DpuCycles
