import DpuCycles.Record.Tensor
import DpuCycles.Workload

namespace DpuCycles

/-!
# Records of workloads

Halos and the pointer table are records inside the record, so one amount can be
replaced alone.
-/

/-- Members of the amounts exchanged along each edge. -/
def Halo.record : Record Halo :=
  [.of "top" .integer (·.top) fun top halo => { halo with top },
    .of "bottom" .integer (·.bottom) fun bottom halo => { halo with bottom },
    .of "left" .integer (·.left) fun left halo => { halo with left },
    .of "right" .integer (·.right) fun right halo => { halo with right },
    .of "front" .integer (·.front) fun front halo => { halo with front },
    .of "back" .integer (·.back) fun back halo => { halo with back }]

/-- Members of the halos of a workload. -/
def HaloExchange.record : Record HaloExchange :=
  [.within "input_0_halo" Halo.record (·.input) fun input halo => { halo with input },
    .within "output_0_halo" Halo.record (·.output) fun output halo => { halo with output },
    .within "output_0_halo_broadcast_cnt" Halo.record (·.outputBroadcast)
      fun outputBroadcast halo => { halo with outputBroadcast },
    .within "output_0_inbound_halo" Halo.record (·.inbound)
      fun inbound halo => { halo with inbound }]

/-- Members of a pointer table. -/
def PointerTable.record : Record PointerTable :=
  [.of "sep_activators" .truth (·.active) fun active table => { table with active },
    .of "storage_elements_pointers" Shape.form (·.pointers)
      fun pointers table => { table with pointers },
    .of "actual_activators_input" Shape.form (·.activators)
      fun activators table => { table with activators },
    .of "no_sparse_map" .truth (·.noSparseMap) fun noSparseMap table =>
      { table with noSparseMap }]

/-- Members of a workload. -/
def Workload.record : Record Workload :=
  [.of "device" .named (·.device) fun device workload => { workload with device },
    .of "op" .named (·.operation) fun operation workload => { workload with operation },
    .of "inputs" (.alone Tensor.form) (·.input) fun input workload => { workload with input },
    .of "outputs" (.alone Tensor.form) (·.output)
      fun output workload => { workload with output },
    .of "kernels" Extent.form (·.kernel) fun kernel workload => { workload with kernel },
    .of "strides" Extent.form (·.stride) fun stride workload => { workload with stride },
    .of "padding" Padding.form (·.padding) fun padding workload => { workload with padding },
    .of "execution_order" .named (·.mode) fun mode workload => { workload with mode },
    .of "activation_function" .named (·.activation)
      fun activation workload => { workload with activation },
    .of "act_sparsity" .float32 (·.inputSparsity)
      fun inputSparsity workload => { workload with inputSparsity },
    .of "weight_sparsity" .float32 (·.weightSparsity)
      fun weightSparsity workload => { workload with weightSparsity },
    .of "input_swizzling" (.pair .named)
      (fun workload => (workload.inputSwizzling, workload.weightSwizzling))
      fun (inputSwizzling, weightSwizzling) workload =>
        { workload with inputSwizzling, weightSwizzling },
    .of "output_swizzling" (.alone .named) (·.outputSwizzling)
      fun outputSwizzling workload => { workload with outputSwizzling },
    .of "output_write_tiles" .count (·.writeTiles)
      fun writeTiles workload => { workload with writeTiles },
    .of "offsets" Offset.form (·.offset) fun offset workload => { workload with offset },
    .of "isi_strategy" .named (·.isiStrategy)
      fun isiStrategy workload => { workload with isiStrategy },
    .of "weight_sparsity_enabled" .truth (·.sparseWeights)
      fun sparseWeights workload => { workload with sparseWeights },
    .within "halo" HaloExchange.record (·.halo) fun halo workload => { workload with halo },
    .within "sep_activators" PointerTable.record (·.pointerTable)
      fun pointerTable workload => { workload with pointerTable },
    .of "weight_type" (.option .named) (·.weightType?)
      fun weightType? workload => { workload with weightType? },
    .of "in_place_output_memory" (.option .truth) (·.inPlace?)
      fun inPlace? workload => { workload with inPlace? },
    .of "weightless_operation" (.option .truth) (·.weightless?)
      fun weightless? workload => { workload with weightless? },
    .of "layer_info" .text (·.layerInfo) fun layerInfo workload => { workload with layerInfo }]

/-- A workload and what follows from it. -/
def Workload.facts (workload : Workload) : Json :=
  .ofMembers
    [("wl", Workload.record.write workload),
      ("weight_type", Form.named.write workload.weightType),
      ("act", .bool workload.input.sparse), ("both", .bool workload.isDual),
      ("halo_empty", .bool workload.halo.isEmpty),
      ("in_halo", (Form.list .integer).write workload.halo.input.toList)]

/-- The shapes of a workload, its place in its layer and how it is executed. -/
def Workload.outline (workload : Workload) : Json :=
  .ofMembers
    [("in", Shape.form.write workload.input.shape),
      ("out", Shape.form.write workload.output.shape),
      ("off", Offset.form.write workload.offset),
      ("pad", Padding.form.write workload.padding),
      ("mode", Form.named.write workload.mode)]

/-- Several workloads in outline. -/
def Workload.outlines (workloads : List Workload) : Json :=
  .array (workloads.map outline)

end DpuCycles
