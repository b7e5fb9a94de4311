import DpuCycles.Proofs.Descriptor.Encoding
import DpuCycles.Proofs.Estimate.Variants
import DpuCycles.Proofs.Legality.Aliases

namespace DpuCycles

open Network

/-!
# What alike workloads cost

Jobs with the same representative cost the same.  The closed form asks an operation
for its kind only, and the descriptors of all layouts give both elementwise
operations one slot; neither reads the position of a job in its layer.  The cost of
a workload is therefore a function of the verdict about it, and alike workloads have
the same verdict, as do their variants.
-/

namespace Descriptor.JobLayout

/-- The elementwise operations share a slot. -/
theorem flatMap_headFields_representative
    (job : Job) :
    headFields.flatMap (fun field => field.block job.representative) =
      headFields.flatMap fun field => field.block job := by
  induction job using Job.of_operation with
  | each operation =>
      cases operation <;> rfl

/-- Behind its head no layout reads the operation, and none reads the offset. -/
theorem flatMap_fields_representative
    (layout : JobLayout)
    (job : Job) :
    layout.fields.flatMap (fun field => field.block job.representative) =
      layout.fields.flatMap fun field => field.block job := by
  have sameHead := flatMap_headFields_representative job
  cases layout with
  | v01 | v10 =>
      simp only [fields, earlyFields, List.flatMap_append, sameHead]
      rfl
  | v11 | v12 =>
      simp only [fields, laterHead, List.flatMap_append, sameHead]
      rfl

end Descriptor.JobLayout

namespace Predictor

/-- A predictor reads descriptors of a known layout. -/
def Registered (predictor : Predictor) : Prop :=
  ∃ layout : Descriptor.JobLayout, layout.schema = .ok predictor.schema

theorem registered_of_ofNetwork
    {network : Trained}
    {predictor : Predictor}
    (made : ofNetwork network = .ok predictor) :
    predictor.Registered := by
  simp only [ofNetwork, bind, Except.bind] at made
  split at made
  · contradiction
  · rename_i layout _
    split at made
    · contradiction
    · split at made
      · contradiction
      · rename_i schema isSchema
        split at made
        · rw [Except.ok.injEq] at made
          subst made
          exact ⟨layout, isSchema⟩
        · contradiction

variable {predictor : Predictor}

theorem output?_representative
    (registered : predictor.Registered)
    (job : Job) :
    predictor.output? job.representative = predictor.output? job := by
  obtain ⟨layout, isSchema⟩ := registered
  have sameRow : predictor.row job.representative = predictor.row job := by
    have isFields := (Descriptor.Schema.register_eq_ok isSchema).1
    rw [row, row, Descriptor.Schema.vector, Descriptor.Schema.vector, isFields]
    rw [layout.flatMap_fields_representative job]
  rw [output?, output?, sameRow]

end Predictor

namespace CostModel

/-- A model whose predictor, if there is one, reads descriptors of a known layout. -/
def Registered (model : CostModel) : Prop :=
  ∀ predictor, model.predictor? = some predictor → predictor.Registered

theorem registered_of_ofNetwork
    {settings : Settings}
    {network : Trained}
    {model : CostModel}
    (made : ofNetwork settings network = .ok model) :
    model.Registered := by
  intro predictor isPredictor
  unfold ofNetwork at made
  split at made
  · split at made
    · rename_i known ofThis
      rw [Except.ok.injEq] at made
      subst made
      obtain rfl := Option.some.inj isPredictor
      exact Predictor.registered_of_ofNetwork ofThis
    · contradiction
  · rw [Except.ok.injEq] at made
    subst made
    contradiction

theorem closedForm_representative
    (job : Job) :
    closedForm job.representative = closedForm job := by
  induction job using Job.of_operation with
  | each operation =>
      cases operation <;> rfl

variable
  {model : CostModel}
  {one other : Workload}

theorem evaluateOutput_representative
    (reading : OutputReading)
    (job : Job)
    (raw : Float32) :
    evaluateOutput reading job.representative raw = evaluateOutput reading job raw := by
  simp only [evaluateOutput, closedForm_representative]
  rfl

/-- A job is evaluated like its representative. -/
theorem evaluateAdmitted_representative
    (registered : model.Registered)
    (job : Job) :
    model.evaluateAdmitted (.ok job.representative) = model.evaluateAdmitted (.ok job) := by
  cases isPredictor : model.predictor? with
  | none =>
      simp only [evaluateAdmitted, isPredictor, evaluateJob, closedForm_representative]
  | some predictor =>
      simp only [evaluateAdmitted, isPredictor, evaluateOutput_representative,
        predictor.output?_representative (registered predictor isPredictor)]

/-- The scalar of an evaluation, by the verdict of admission. -/
def scalarOf
    (model : CostModel) :
    Except CostError Job → Nat
  | .ok job => (model.evaluateAdmitted (.ok job)).scalar
  | .error error => error.code

/-- Admitted and refused workloads are evaluated by their verdict. -/
theorem scalar_evaluateAdmitted_eq
    (registered : model.Registered)
    (admitted : Except Refusal Job) :
    (model.evaluateAdmitted admitted).scalar = model.scalarOf (Gate.verdict admitted) := by
  cases admitted with
  | error refusal =>
      rfl
  | ok job =>
      exact congrArg Evaluation.scalar (evaluateAdmitted_representative registered job).symm

/-- Workloads with one sparse operand at most cost the same when they agree. -/
theorem cost_congr_of_not_dual
    (fits : model.Fits)
    (registered : model.Registered)
    (agrees : one.Agrees other)
    (plain : one.isDual = false) :
    model.cost one = model.cost other := by
  have otherPlain : other.isDual = false := agrees.isDual ▸ plain
  rw [cost_of_not_dual fits plain, cost_of_not_dual fits otherPlain,
    scalar_evaluateAdmitted_eq registered, scalar_evaluateAdmitted_eq registered,
    Gate.verdict_congr rfl agrees]

/-- The cost of a workload with two sparse operands, by its verdict. -/
theorem dualCost_eq
    (model : CostModel)
    (workload : Workload) :
    model.dualCost workload =
      match Gate.verdict (model.gate.accept workload) with
      | .error error => error.code
      | .ok _ =>
          min (model.cost workload.withoutInputSparsity)
            (model.cost workload.withoutWeightSparsity) := by
  unfold dualCost
  cases model.gate.accept workload <;> rfl

/-- Workloads cost the same when they agree. -/
theorem cost_congr
    (fits : model.Fits)
    (registered : model.Registered)
    (agrees : one.Agrees other) :
    model.cost one = model.cost other := by
  cases dual : one.isDual with
  | false =>
      exact cost_congr_of_not_dual fits registered agrees dual
  | true =>
      have otherDual : other.isDual = true := agrees.isDual ▸ dual
      have sameDenseInput :=
        cost_congr_of_not_dual fits registered agrees.withoutInputSparsity
          one.isDual_withoutInputSparsity
      have sameDenseWeights :=
        cost_congr_of_not_dual fits registered agrees.withoutWeightSparsity
          one.isDual_withoutWeightSparsity
      rw [cost_eq_dualCost fits dual, cost_eq_dualCost fits otherDual, dualCost_eq, dualCost_eq,
        Gate.verdict_congr rfl agrees, sameDenseInput, sameDenseWeights]

/-- The closed form of a workload, by its verdict. -/
theorem closedFormCost_eq
    (model : CostModel)
    (workload : Workload) :
    model.closedFormCost workload =
      match Gate.verdict (model.gate.accept workload) with
      | .error error => error.code
      | .ok job => closedForm job := by
  unfold closedFormCost
  cases model.gate.accept workload with
  | error refusal =>
      rfl
  | ok job =>
      exact (closedForm_representative job).symm

/--
Workloads that are alike cost the same, as numbers of cycles and as error codes, by
any network that is loaded, without one, and in closed form.
-/
theorem cost_of_alike
    {settings : Settings}
    {network : Trained}
    (loaded : network = .absent ∨ ∃ bytes, network = .ofBytes bytes)
    (made : ofNetwork settings network = .ok model)
    (alike : one.Alike other) :
    model.cost one = model.cost other ∧ model.closedFormCost one = model.closedFormCost other := by
  have agrees := alike.agrees
  refine ⟨cost_congr (fits_of_ofNetwork loaded made) (registered_of_ofNetwork made) agrees, ?_⟩
  rw [closedFormCost_eq, closedFormCost_eq, Gate.verdict_congr rfl agrees]

/-- An average over few bits, with input channels that nobody asks for. -/
def averaged : Workload :=
  let input : Tensor := ⟨⟨16, 16, 1, 1⟩, .int8, .zMajor, false⟩
  .plain .vpu27 .avePool input (.dense ⟨16, 16, 64, 1⟩ .int4) .cuboid16x16

/--
The same as a depthwise convolution of bytes with weights of their own, in the middle of
a layer.
-/
def filtered : Workload :=
  { averaged with
    operation := .depthwise
    input := .dense ⟨16, 16, 64, 1⟩ .uint8
    weightType? := some .int2
    offset := ⟨0, 8, 0, 0⟩
    layerInfo := "middle" }

theorem averaged_alike :
    averaged.Alike filtered := by
  refine .trans (.step (.average averaged rfl)) ?_
  refine .trans (.step (.inputType _ .uint8 rfl)) ?_
  refine .trans (.step (.inputLayout _ .zxy .channelsFirst)) ?_
  refine .trans (.step (.inputChannels _ 64 rfl)) ?_
  refine .trans (.step (.weightType _ .int2 rfl)) ?_
  refine .trans (.step (.offset _ ⟨0, 8, 0, 0⟩)) ?_
  exact .step (.layerInfo _ "middle")

/-- Both are admitted, and both cost the same by a network and in closed form. -/
theorem cost_of_averaged :
    averaged.Alike filtered ∧
      ∃ model,
        ofNetwork .initial (.ofBytes reluFile) = .ok model ∧
          model.cost averaged = model.cost filtered ∧
          model.closedFormCost averaged = model.closedFormCost filtered ∧
          Cycles.isError (initial.closedFormCost averaged) = false := by
  obtain ⟨model, made, _⟩ := exists_model_of_reluFile
  obtain ⟨cost, closedFormCost⟩ := cost_of_alike (.inr ⟨reluFile, rfl⟩) made averaged_alike
  exact ⟨averaged_alike, model, made, cost, closedFormCost, by decide +kernel⟩

end CostModel

end DpuCycles
