import DpuCycles.Cycles
import DpuCycles.Legality.Rules

namespace DpuCycles

/-!
# Admission of workloads

A workload is admitted in four stages: its generation has a table, its operation
is executed, it fits the local memory, and it breaks no rule.  The first stage
that fails refuses it.  On the way the workload is brought into canonical form:
operations, types and layouts that the hardware treats alike become one.
-/

/-- Why a workload is refused. -/
inductive Refusal where
  | unsupportedDevice (device : Device)
  | unsupportedOperation (operation : Operation) (device : Device)
  | tooBig (needed available : Nat)
  | brokenRules (findings : List Finding)
  deriving Repr, DecidableEq

namespace Refusal

/-- The error a refused workload costs. -/
def error : Refusal → CostError
  | .unsupportedDevice _ => .invalidInputDevice
  | .unsupportedOperation _ _ => .invalidInputOperation
  | .tooBig _ _ => .inputTooBig
  | .brokenRules _ => .invalidInputConfiguration

/-- Text of a refusal; findings take a line each. -/
def message : Refusal → String
  | .unsupportedDevice device => "device " ++ Enumerated.label device ++ " is not supported"
  | .unsupportedOperation operation device =>
      "operation " ++ Enumerated.label operation ++ " is not supported on " ++
        Enumerated.label device
  | .tooBig needed available =>
      "needs " ++ toString needed ++ " bytes of CMX, " ++ toString available ++ " available"
  | .brokenRules findings => String.join (findings.map fun finding => finding.message ++ "\n")

end Refusal

namespace Workload

/-- Pooling by average is a depthwise convolution; few input channels need the channel-major one. -/
def canonicalOperation (workload : Workload) : Operation :=
  match workload.operation with
  | .avePool => .depthwise
  | .convolution =>
      if 1 ≤ workload.input.shape.channels ∧ workload.input.shape.channels < 16 then
        .channelMajor
      else
        .convolution
  | operation => operation

/--
The workload with its canonical operation.  Where channels are kept, the output
decides how many there are.
-/
def canonicalize (workload : Workload) : Workload :=
  let operation := workload.canonicalOperation
  if operation.keepsChannels then
    { workload with
      operation := operation
      input := workload.input.withChannels workload.output.shape.channels }
  else
    { workload with operation := operation }

/-- A tensor with the type and layout the hardware treats it as. -/
def foldTensor
    (table : Capability)
    (tensor : Tensor) : Tensor :=
  { tensor with
    dtype := table.foldType tensor.dtype
    layout := table.foldLayout tensor.layout }

/-- The workload with the options the hardware treats its options as. -/
def fold
    (table : Capability)
    (workload : Workload) : Workload :=
  { workload with
    input := foldTensor table workload.input
    output := foldTensor table workload.output
    weightType? := workload.weightType?.map table.foldType
    inputSwizzling := table.foldSwizzling workload.inputSwizzling
    weightSwizzling := table.foldSwizzling workload.weightSwizzling
    outputSwizzling := table.foldSwizzling workload.outputSwizzling }

end Workload

/-- Tables that workloads are admitted by, and whether the fixed share of memory counts. -/
structure Gate where
  tables : List Capability
  ignoreOverhead : Bool
  deriving Repr, DecidableEq

namespace Gate

/-- The gate with the standard tables. -/
def standard : Gate := ⟨Capability.standard, true⟩

/-- Family of an operation that a table executes. -/
def family?
    (table : Capability)
    (operation : Operation) : Option Family :=
  if table.executes operation then Family.ofOperation? operation else none

/-- A job that fits the local memory and breaks no rule. -/
def inspect
    (gate : Gate)
    (table : Capability)
    (job : Job) : Except Refusal Job :=
  let needed := (Footprint.ofJob table gate.ignoreOverhead job).total
  if table.cmxBytes < needed then
    .error (.tooBig needed table.cmxBytes)
  else
    match Rules.findings table job with
    | [] => .ok job
    | findings => .error (.brokenRules findings)

/--
Admit a workload.  The first component is the workload as far as it was brought
into canonical form before it was admitted or refused.
-/
def settle
    (gate : Gate)
    (workload : Workload) : Workload × Except Refusal Job :=
  match Capability.ofDevice? gate.tables workload.device with
  | none => (workload, .error (.unsupportedDevice workload.device))
  | some table =>
      let canonical := workload.canonicalize
      match family? table canonical.operation with
      | none => (canonical, .error (.unsupportedOperation canonical.operation canonical.device))
      | some family =>
          let folded := canonical.fold table
          (folded, gate.inspect table (Job.ofWorkload folded family))

/-- The job of an admitted workload. -/
def accept
    (gate : Gate)
    (workload : Workload) : Except Refusal Job :=
  (gate.settle workload).2

/-- Local memory of a job, `none` without a table for its generation. -/
def footprint?
    (gate : Gate)
    (job : Job) : Option Footprint :=
  (Capability.ofDevice? gate.tables job.device).map fun table =>
    Footprint.ofJob table gate.ignoreOverhead job

end Gate

end DpuCycles
