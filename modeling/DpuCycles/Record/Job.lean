import DpuCycles.Legality.Footprint
import DpuCycles.Record.Workload

namespace DpuCycles

/-!
# Records of jobs

Jobs and their footprints are made from workloads, so they are only written.
-/

namespace Job

/-- Kernel, stride and padding in one object. -/
def kernelJson (job : Job) : Json :=
  .ofMembers
    [("width", .ofNat job.kernel.width), ("height", .ofNat job.kernel.height),
      ("stride_w", .ofNat job.stride.width), ("stride_h", .ofNat job.stride.height),
      ("pad_top", .ofNat job.padding.top), ("pad_bottom", .ofNat job.padding.bottom),
      ("pad_left", .ofNat job.padding.left), ("pad_right", .ofNat job.padding.right)]

/-- The JSON object of a job. -/
def toJson (job : Job) : Json :=
  .ofMembers
    [("device", Form.named.write job.device), ("operation", Form.named.write job.operation),
      ("behaviour", Form.named.write job.family), ("input_0", Tensor.form.write job.input),
      ("input_1", Tensor.form.write job.weights), ("output_0", Tensor.form.write job.output),
      ("kernel", job.kernelJson), ("execution_order", Form.named.write job.mode),
      ("activation_function", Form.named.write job.activation),
      ("act_sparsity", Form.float32.write job.inputSparsity),
      ("weight_sparsity", Form.float32.write job.weightSparsity),
      ("input_swizzling",
        (Form.pair .named).write (job.inputSwizzling, job.weightSwizzling)),
      ("output_swizzling", Form.named.write job.outputSwizzling),
      ("output_write_tiles", .ofNat job.writeTiles),
      ("isi_strategy", Form.named.write job.isiStrategy),
      ("offsets", Offset.form.write job.offset),
      ("halo", HaloExchange.record.write job.halo),
      ("sep", PointerTable.record.write job.pointerTable),
      ("in_place_output_memory", (Form.option .truth).write job.inPlace?),
      ("weightless_operation", (Form.option .truth).write job.weightless?)]

end Job

/-- The JSON object of a footprint. -/
def Footprint.toJson (footprint : Footprint) : Json :=
  .ofMembers
    [("cmx", .ofNat footprint.total), ("input_0", .ofNat footprint.input),
      ("input_1", .ofNat footprint.weights), ("output_0", .ofNat footprint.output),
      ("inplace_output", .bool footprint.inPlace),
      ("cmx_overhead", .ofNat footprint.overhead),
      ("ignore_overhead", .bool footprint.ignoreOverhead)]

end DpuCycles
