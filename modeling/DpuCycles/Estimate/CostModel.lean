import DpuCycles.Descriptor.Writing
import DpuCycles.Estimate.ClosedForm
import DpuCycles.Estimate.Ideal
import DpuCycles.Estimate.Predictor
import DpuCycles.Estimate.TransferCycles
import DpuCycles.Legality.Admission
import DpuCycles.Settings
import DpuCycles.Transfer

namespace DpuCycles

open Network

/-!
# Cost models

A cost model admits workloads and prices them: by a network where there is one,
in closed form otherwise.  A workload with two sparse operands is priced as the
cheaper of its two variants with one sparse operand each.

Any number of workloads is priced at once.  The jobs of all admitted variants go
through the network in one run, and the outputs are handed back in order.
-/

/-- A model of the cost of workloads. -/
structure CostModel where
  settings : Settings
  network : Trained
  predictor? : Option Predictor

/-- The cost of one workload with its explanation. -/
structure Evaluation where
  cost : Except CostError Nat
  info : String
  /-- Output of the network, or the cycles in closed form. -/
  raw : Float32

namespace Evaluation

/-- The cost as a scalar. -/
def scalar (evaluation : Evaluation) : Nat :=
  Cycles.toScalar evaluation.cost

/-- No cost, for a reason. -/
def failed
    (error : CostError)
    (info : String) : Evaluation :=
  ⟨.error error, info, 0⟩

/-- The evaluation of a refused workload. -/
def ofRefusal (refusal : Refusal) : Evaluation :=
  failed refusal.error refusal.message

/-- The cheapest of several evaluations, the earliest of equals. -/
def cheapest : List Evaluation → Evaluation
  | [] => failed .invalidInputConfiguration ""
  | first :: rest =>
      rest.foldl (fun best next => if best.scalar ≤ next.scalar then best else next) first

end Evaluation

namespace CostModel

/-- A model of a network, or without one. -/
def ofNetwork
    (settings : Settings)
    (network : Trained) : Except PredictorFault CostModel :=
  if network.isPresent then
    match Predictor.ofNetwork network with
    | .ok predictor => .ok ⟨settings, network, some predictor⟩
    | .error fault => .error fault
  else
    .ok ⟨settings, network, none⟩

/-- The model with the initial settings and no network. -/
def initial : CostModel := ⟨.initial, .absent, none⟩

/-- What admits workloads. -/
def gate (model : CostModel) : Gate :=
  ⟨Capability.standard, model.settings.ignoreOverhead⟩

/-- A runner for the rows of the model. -/
def runner (model : CostModel) : Runner :=
  .make model.network model.settings.batch

/-- Whether there can be a context for the rows of the model. -/
def hasContext (model : CostModel) : Bool :=
  model.runner.hasContext model.runner.batch

/-- A context for the rows of the model. -/
def newContext (model : CostModel) : Context :=
  model.runner.defaultContext

/-- Cycles of a job in closed form on the hardware of its generation. -/
def closedForm (job : Job) : Nat :=
  job.closedFormCycles (.ofDevice job.device)

/-- The evaluation of a job without a network. -/
def evaluateJob
    (model : CostModel)
    (job : Job) : Evaluation :=
  if model.settings.closedFormFallback then
    ⟨.ok (closedForm job), "", float32OfNat (closedForm job)⟩
  else
    ⟨.ok 0, "no NN loaded and theoretical fallback disabled", 0⟩

/-- The greatest output of a network that is believed. -/
def greatestOutput : Float32 := 4000000000

/-- The evaluation of a job from the output of a network. -/
def evaluateOutput
    (reading : OutputReading)
    (job : Job)
    (raw : Float32) : Evaluation :=
  if 0 ≤ raw ∧ raw ≤ greatestOutput then
    let base := if reading.isOverhead then closedForm job else 0
    let cycles := reading.toCycles raw base (job.input.sparse || job.weights.sparse)
    ⟨.ok (Cycles.ofPrediction cycles), "", raw⟩
  else
    ⟨.error .invalidOutputRange, "NN output " ++ float32Text raw ++ " out of range", raw⟩

/-- Hand one output to each admitted job. -/
def distribute
    (reading : OutputReading) :
    List (Except Refusal Job) → List Float32 → List Evaluation
  | [], _ => []
  | .error refusal :: rest, outputs => .ofRefusal refusal :: distribute reading rest outputs
  | .ok job :: rest, raw :: outputs =>
      evaluateOutput reading job raw :: distribute reading rest outputs
  | .ok _ :: rest, [] =>
      .failed .invalidOutputRange "NN produced no output" :: distribute reading rest []

/-- Evaluate workloads as they are, all in one run of the network. -/
def evaluatePlain
    (model : CostModel)
    (context : Context)
    (workloads : List Workload) : Context × List Evaluation :=
  let admitted := workloads.map model.gate.accept
  match model.predictor? with
  | none =>
      (context, admitted.map fun
        | .ok job => model.evaluateJob job
        | .error refusal => .ofRefusal refusal)
  | some predictor =>
      let jobs := admitted.filterMap Except.toOption
      let (next, outputs) := predictor.outputs context jobs
      (next, distribute predictor.reading admitted outputs)

/--
The workloads that price a workload: two variants when both operands are sparse,
the workload itself otherwise.  With both operands sparse it must be admitted.
-/
def variants
    (model : CostModel)
    (workload : Workload) : Except Refusal (List Workload) :=
  if workload.isDual then
    match model.gate.accept workload with
    | .ok _ => .ok [workload.withoutInputSparsity, workload.withoutWeightSparsity]
    | .error refusal => .error refusal
  else
    .ok [workload]

/-- Hand the evaluations of variants back to the workloads they came from. -/
def regroup :
    List (Except Refusal (List Workload)) → List Evaluation → List Evaluation
  | [], _ => []
  | .error refusal :: rest, evaluations => .ofRefusal refusal :: regroup rest evaluations
  | .ok group :: rest, evaluations =>
      .cheapest (evaluations.take group.length) ::
        regroup rest (evaluations.drop group.length)

/-- The workloads that price the admitted ones of some workloads. -/
def allVariants
    (model : CostModel)
    (workloads : List Workload) : List Workload :=
  (workloads.map model.variants).flatMap fun group => group.toOption.getD []

/-- Evaluate workloads in a context. -/
def evaluateIn
    (model : CostModel)
    (context : Context)
    (workloads : List Workload) : Context × List Evaluation :=
  let (next, evaluations) := model.evaluatePlain context (model.allVariants workloads)
  (next, regroup (workloads.map model.variants) evaluations)

/-- Evaluate one workload in a new context. -/
def evaluate
    (model : CostModel)
    (workload : Workload) : Evaluation :=
  (model.evaluateIn model.newContext [workload]).2.headD
    (.failed .invalidInputConfiguration "")

/-- Cost of one workload. -/
def cost
    (model : CostModel)
    (workload : Workload) : Nat :=
  (model.evaluate workload).scalar

/-- Costs of workloads, in a new context. -/
def costs
    (model : CostModel)
    (workloads : List Workload) : List Nat :=
  (model.evaluateIn model.newContext workloads).2.map Evaluation.scalar

/-- Costs of workloads, in a given context. -/
def costsIn
    (model : CostModel)
    (context : Context)
    (workloads : List Workload) : Context × List Nat :=
  let (next, evaluations) := model.evaluateIn context workloads
  (next, evaluations.map Evaluation.scalar)

/-- The jobs of workloads that go through the network together. -/
def jobsOf
    (model : CostModel)
    (workloads : List Workload) : List Job :=
  ((model.allVariants workloads).map model.gate.accept).filterMap Except.toOption

/-- Whether workloads can be priced in a context: without a network they always can. -/
def canPriceIn
    (model : CostModel)
    (context : Context)
    (workloads : List Workload) : Bool :=
  model.predictor?.all fun predictor =>
    predictor.network.canPredict context (predictor.descriptors (model.jobsOf workloads))

/-- Whether workloads can be priced in a new context: a network cannot run without one. -/
def canPrice
    (model : CostModel)
    (workloads : List Workload) : Bool :=
  model.predictor?.isNone || (model.hasContext && model.canPriceIn model.newContext workloads)

/-- Costs of workloads in a given context, none when there is no room for the run. -/
def costsWithin
    (model : CostModel)
    (context : Context)
    (workloads : List Workload) : Context × Option (List Nat) :=
  match model.predictor? with
  | none => (context, some (model.costsIn context workloads).2)
  | some predictor =>
      let input := predictor.descriptors (model.jobsOf workloads)
      if predictor.network.canPredict context input then
        let (next, costs) := model.costsIn context workloads
        (next, some costs)
      else
        ((predictor.network.predictWithin context input).1, none)

/-- The greatest number of contexts a model keeps for later. -/
def keptContexts : Nat := 16

/--
Costs of workloads in a context that was taken out of those that are kept.  Afterwards it
is kept again, unless there are enough others; one in which the run stopped is not.
-/
def costsBeside
    (model : CostModel)
    (others : List Context)
    (context : Context)
    (workloads : List Workload) : List Context × Option (List Nat) :=
  match model.costsWithin context workloads with
  | (next, some costs) =>
      (if others.length < keptContexts then next :: others else others, some costs)
  | (_, none) => (others, none)

/-- Costs of workloads in the context that was kept last, or in a new one. -/
def costsKept
    (model : CostModel)
    (kept : List Context)
    (workloads : List Workload) : List Context × Option (List Nat) :=
  match model.predictor?, kept with
  | none, kept => (kept, some (model.costs workloads))
  | some _, context :: others => model.costsBeside others context workloads
  | some _, [] =>
      if model.hasContext then model.costsBeside [] model.newContext workloads else ([], none)

/-- Costs of workloads as a model gives them that has kept no context. -/
def costs?
    (model : CostModel)
    (workloads : List Workload) : Option (List Nat) :=
  (model.costsKept [] workloads).2

/-- Cost of one workload as a model gives it that has kept no context. -/
def cost?
    (model : CostModel)
    (workload : Workload) : Option Nat :=
  (model.costs? [workload]).bind List.head?

/-- Everything known about the cost of a workload. -/
def report
    (model : CostModel)
    (workload : Workload) : CostReport :=
  let evaluation := model.evaluate workload
  match model.gate.accept workload with
  | .ok job =>
      ⟨evaluation.scalar, evaluation.info, evaluation.raw, closedForm job,
        job.idealCycles (.ofDevice job.device)⟩
  | .error _ => ⟨evaluation.scalar, evaluation.info, evaluation.raw, 0, .zero⟩

/-- Cost of a workload in closed form, whether or not there is a network. -/
def closedFormCost
    (model : CostModel)
    (workload : Workload) : Nat :=
  match model.gate.accept workload with
  | .ok job => closedForm job
  | .error refusal => refusal.error.code

/-- Cost of a transfer. -/
def transferCost
    (_model : CostModel)
    (transfer : Transfer) : Nat :=
  Cycles.toScalar (transfer.cycles (.ofDevice transfer.device))

end CostModel

end DpuCycles
