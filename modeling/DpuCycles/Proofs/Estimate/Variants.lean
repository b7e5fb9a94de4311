import DpuCycles.Proofs.Estimate.Batch
import DpuCycles.Proofs.Estimate.Scalars
import DpuCycles.Proofs.Legality.Sparsity

namespace DpuCycles

open Network

/-!
# What variants cost

A workload without two sparse operands costs what its job costs.  With two sparse
operands it costs as much as the cheaper of its variants, provided that it is
admitted itself; error codes are greater than all counts, so a variant without a
cost never hides the other one.

The closed form does not read sparsity.  Without a network both variants of an
admitted workload therefore cost what the workload costs in closed form, unless
the one with dense weights is refused, and then the other one decides.
-/

namespace Cycles

/-- The lesser of two scalars is an error only when both are. -/
theorem isError_min
    (left right : Nat) :
    isError (min left right) = (isError left && isError right) := by
  simp only [isError, ← Bool.decide_and, Nat.lt_min]

end Cycles

theorem Refusal.limit_lt_code (refusal : Refusal) :
    Cycles.limit < refusal.error.code := by
  refine CostError.limit_lt_code_of_mem_named refusal.error ?_
  cases refusal <;> simp [error, CostError.named]

/-- The cheapest of two evaluations has the lesser scalar. -/
theorem Evaluation.scalar_cheapest_pair
    (first second : Evaluation) :
    (cheapest [first, second]).scalar = min first.scalar second.scalar := by
  simp only [cheapest, List.foldl_cons, List.foldl_nil]
  split
  · rename_i firstIsLess
    exact (Nat.min_eq_left firstIsLess).symm
  · rename_i secondIsLess
    exact (Nat.min_eq_right (Nat.le_of_not_le secondIsLess)).symm

namespace Workload

theorem isDual_withoutInputSparsity (workload : Workload) :
    workload.withoutInputSparsity.isDual = false :=
  rfl

theorem isDual_withoutWeightSparsity (workload : Workload) :
    workload.withoutWeightSparsity.isDual = false :=
  Bool.and_false workload.input.sparse

end Workload

namespace CostModel

variable
  {model : CostModel}
  {workload : Workload}
  {job : Job}
  {refusal : Refusal}

/-- A workload without two sparse operands costs what its job or its refusal costs. -/
theorem cost_of_not_dual
    (fits : model.Fits)
    (plain : workload.isDual = false) :
    model.cost workload = (model.evaluateAdmitted (model.gate.accept workload)).scalar := by
  rw [cost, evaluate_eq_evaluateAlone fits, evaluateAlone, variants, plain]
  rfl

theorem cost_of_refused
    (fits : model.Fits)
    (refused : model.gate.accept workload = .error refusal) :
    model.cost workload = refusal.error.code := by
  cases dual : workload.isDual with
  | false =>
      rw [cost_of_not_dual fits dual, refused]
      rfl
  | true =>
      rw [cost, evaluate_eq_evaluateAlone fits, evaluateAlone, variants, dual, refused]
      rfl

/-- An admitted workload with two sparse operands costs what its cheaper variant costs. -/
theorem cost_of_dual
    (fits : model.Fits)
    (dual : workload.isDual = true)
    (accepted : model.gate.accept workload = .ok job) :
    model.cost workload =
      min (model.cost workload.withoutInputSparsity)
        (model.cost workload.withoutWeightSparsity) := by
  rw [cost_of_not_dual fits workload.isDual_withoutInputSparsity,
    cost_of_not_dual fits workload.isDual_withoutWeightSparsity,
    ← Evaluation.scalar_cheapest_pair,
    cost, evaluate_eq_evaluateAlone fits, evaluateAlone, variants, dual, accepted]
  rfl

/--
The cost of a workload with two sparse operands, by itself when it is refused and
by its variants otherwise.
-/
def dualCost
    (model : CostModel)
    (workload : Workload) : Nat :=
  match model.gate.accept workload with
  | .error refusal => refusal.error.code
  | .ok _ =>
      min (model.cost workload.withoutInputSparsity) (model.cost workload.withoutWeightSparsity)

theorem cost_eq_dualCost
    (fits : model.Fits)
    (dual : workload.isDual = true) :
    model.cost workload = model.dualCost workload := by
  unfold dualCost
  cases accepted : model.gate.accept workload with
  | error refusal =>
      exact cost_of_refused fits accepted
  | ok job =>
      exact cost_of_dual fits dual accepted

/--
Alone and at any position among other workloads, in a new context or in one that was used
before, a workload with two sparse operands costs the code of its refusal, or else the
lesser of the costs of its variants.  It has a cost as soon as one of them has.  These
are the costs that are given wherever there is room to price the workloads.
-/
theorem costs_getElem?_of_dual
    {settings : Settings}
    {network : Trained}
    {context : Context}
    {workloads : List Workload}
    {position : Nat}
    (loaded : network = .absent ∨ ∃ bytes, network = .ofBytes bytes)
    (made : ofNetwork settings network = .ok model)
    (valid : context.Valid)
    (found : workloads[position]? = some workload)
    (dual : workload.isDual = true) :
    model.cost workload = model.dualCost workload ∧
      (model.costs workloads)[position]? = some (model.dualCost workload) ∧
      (model.canPrice workloads → model.costs? workloads = some (model.costs workloads)) ∧
      (model.costsIn context workloads).2[position]? = some (model.dualCost workload) ∧
      (model.canPriceIn context workloads →
        (model.costsWithin context workloads).2 = some (model.costsIn context workloads).2) ∧
      ∀ job, model.gate.accept workload = .ok job →
        Cycles.isError (model.cost workload) =
          (Cycles.isError (model.cost workload.withoutInputSparsity) &&
            Cycles.isError (model.cost workload.withoutWeightSparsity)) := by
  have fits := fits_of_ofNetwork loaded made
  have costHere : (workloads.map model.cost)[position]? = some (model.dualCost workload) := by
    rw [List.getElem?_map, found, Option.map_some, cost_eq_dualCost fits dual]
  refine ⟨cost_eq_dualCost fits dual, ?_, fun priceable => ?_, ?_, costsWithin_of_canPriceIn, ?_⟩
  · rw [costs_eq_map fits, costHere]
  · rw [costs_eq_map fits]
    exact (costsKept_eq fits model.keeps_nil priceable).1
  · rw [costsIn_eq_map fits valid, costHere]
  · intro job accepted
    rw [cost_of_dual fits dual accepted, Cycles.isError_min]

/-- The last of the mixed workloads, a convolution with two sparse operands. -/
def mixedDual : Workload :=
  let tensor := Tensor.dense ⟨16, 16, 64, 1⟩ .uint8
  let plain := Workload.plain .vpu27 .convolution tensor tensor .cuboid16x16
  (plain.withInputSparsity 0).withWeightSparsity 0

/-- Among the others it is priced by its variants, in a context that already ran a network. -/
theorem costs_getElem?_of_mixedDual :
    mixedWorkloads[2]? = some mixedDual ∧
      mixedDual.isDual = true ∧
      reluContext.Valid ∧
      ∃ model,
        ofNetwork .initial (.ofBytes reluFile) = .ok model ∧
          model.costs? mixedWorkloads = some (model.costs mixedWorkloads) ∧
          (model.costs mixedWorkloads)[2]? = some (model.dualCost mixedDual) ∧
          (model.costsWithin reluContext mixedWorkloads).2 =
            some (model.costsIn reluContext mixedWorkloads).2 ∧
          (model.costsIn reluContext mixedWorkloads).2[2]? = some (model.dualCost mixedDual) := by
  have found : mixedWorkloads[2]? = some mixedDual := rfl
  have valid := reachable_reluContext.valid
  obtain ⟨model, made, priceable, room⟩ := exists_model_of_reluFile
  obtain ⟨_, own, priced, used, pricedIn, _⟩ :=
    costs_getElem?_of_dual (.inr ⟨reluFile, rfl⟩) made valid found rfl
  exact ⟨found, rfl, valid, model, made, priced priceable, own, pricedIn room, used⟩

theorem closedForm_withoutInputSparsity (job : Job) :
    closedForm job.withoutInputSparsity = closedForm job :=
  rfl

theorem closedForm_withoutWeightSparsity (job : Job) :
    closedForm job.withoutWeightSparsity = closedForm job :=
  rfl

theorem closedForm_le_limit (job : Job) :
    closedForm job ≤ Cycles.limit :=
  Nat.min_le_right _ _

/-- Without a network an evaluation falls back to the closed form. -/
theorem scalar_evaluateAdmitted
    (noNetwork : model.predictor? = none)
    (fallback : model.settings.closedFormFallback = true)
    (admitted : Except Refusal Job) :
    (model.evaluateAdmitted admitted).scalar =
      match admitted with
      | .ok job => closedForm job
      | .error refusal => refusal.error.code := by
  cases admitted with
  | error refusal =>
      rfl
  | ok job =>
      simp only [evaluateAdmitted, noNetwork, evaluateJob, fallback, if_true]
      exact Nat.min_eq_left (closedForm_le_limit job)

theorem fits_of_noNetwork
    (noNetwork : model.predictor? = none) :
    model.Fits := by
  intro predictor isPredictor
  rw [noNetwork] at isPredictor
  contradiction

theorem cost_eq_closedFormCost_of_not_dual
    (noNetwork : model.predictor? = none)
    (fallback : model.settings.closedFormFallback = true)
    (plain : workload.isDual = false) :
    model.cost workload = model.closedFormCost workload := by
  rw [cost_of_not_dual (fits_of_noNetwork noNetwork) plain,
    scalar_evaluateAdmitted noNetwork fallback]
  rfl

theorem closedFormCost_withoutInputSparsity
    (inWords : model.gate.InWords workload)
    (accepted : model.gate.accept workload = .ok job) :
    model.closedFormCost workload.withoutInputSparsity = closedForm job := by
  rw [closedFormCost, Gate.accept_withoutInputSparsity inWords accepted]
  exact closedForm_withoutInputSparsity job

/-- With dense weights an admitted workload costs the same in closed form, or it is refused. -/
theorem closedForm_le_closedFormCost_withoutWeightSparsity
    (accepted : model.gate.accept workload = .ok job) :
    closedForm job ≤ model.closedFormCost workload.withoutWeightSparsity := by
  unfold closedFormCost
  cases variant : model.gate.accept workload.withoutWeightSparsity with
  | error refusal =>
      exact Nat.le_of_lt (Nat.lt_of_le_of_lt (closedForm_le_limit job) refusal.limit_lt_code)
  | ok variantJob =>
      rw [Gate.eq_of_accept_withoutWeightSparsity accepted variant]
      exact Nat.le_of_eq (closedForm_withoutWeightSparsity job).symm

/--
Without a network, and unless the fallback is switched off, every workload costs
its closed form: refused ones their code, and those with two sparse operands what
they cost without looking at their variants, if nothing is lost where their memory
is counted.
-/
theorem cost_eq_closedFormCost
    (noNetwork : model.predictor? = none)
    (fallback : model.settings.closedFormFallback = true)
    (workload : Workload)
    (inWords : workload.isDual = true → model.gate.InWords workload) :
    model.cost workload = model.closedFormCost workload := by
  have fits := fits_of_noNetwork noNetwork
  have ofVariant {variant : Workload} (plain : variant.isDual = false) :=
    cost_eq_closedFormCost_of_not_dual noNetwork fallback plain
  cases dual : workload.isDual with
  | false =>
      exact ofVariant dual
  | true =>
      cases accepted : model.gate.accept workload with
      | error refusal =>
          rw [cost_of_refused fits accepted, closedFormCost, accepted]
      | ok job =>
          -- The variant with a dense input costs as much, the other one no less.
          calc model.cost workload
              = min (model.closedFormCost workload.withoutInputSparsity)
                  (model.closedFormCost workload.withoutWeightSparsity) := by
                rw [cost_of_dual fits dual accepted,
                  ofVariant workload.isDual_withoutInputSparsity,
                  ofVariant workload.isDual_withoutWeightSparsity]
            _ = closedForm job := by
                rw [closedFormCost_withoutInputSparsity (inWords dual) accepted]
                exact Nat.min_eq_left
                  (closedForm_le_closedFormCost_withoutWeightSparsity accepted)
            _ = model.closedFormCost workload := by
                rw [closedFormCost, accepted]

/-- A convolution with two sparse operands that fits only as long as its weights are sparse. -/
def barelyFitting : Workload :=
  let input : Tensor := ⟨⟨64, 108, 256, 1⟩, .uint8, .zxy, true⟩
  let output : Tensor := ⟨⟨21, 36, 32, 1⟩, .uint8, .zxy, true⟩
  let dense := Workload.plain .vpu27 .convolution input output .cuboid16x16
  ((dense.withKernel ⟨3, 3⟩ ⟨3, 3⟩ ⟨0, 0, 0, 0⟩).withInputSparsity 0).withWeightSparsity 1

/-- One of its variants is refused, and it still costs its closed form. -/
theorem cost_of_barelyFitting :
    initial.predictor? = none ∧
      initial.settings.closedFormFallback = true ∧
      barelyFitting.isDual = true ∧
      initial.gate.InWords barelyFitting ∧
      initial.cost barelyFitting.withoutWeightSparsity = CostError.inputTooBig.code ∧
      initial.cost barelyFitting = initial.closedFormCost barelyFitting ∧
      Cycles.isError (initial.closedFormCost barelyFitting) = false := by
  have inWords : initial.gate.InWords barelyFitting :=
    Gate.inWords_of_family rfl rfl (by decide +kernel)
  have variant : initial.cost barelyFitting.withoutWeightSparsity =
      initial.closedFormCost barelyFitting.withoutWeightSparsity :=
    cost_eq_closedFormCost rfl rfl _ nofun
  refine ⟨rfl, rfl, rfl, inWords, ?_, cost_eq_closedFormCost rfl rfl _ fun _ => inWords,
    by decide +kernel⟩
  rw [variant]
  decide +kernel

/--
A workload that counts too little memory is admitted although none of its variants is,
so it has no cost, and its closed form has.
-/
theorem cost_ne_closedFormCost_of_farReaching :
    initial.cost Gate.farReaching = CostError.inputTooBig.code ∧
      initial.closedFormCost Gate.farReaching = 16384 := by
  have accepted : (initial.gate.accept Gate.farReaching).toOption.isSome := by
    decide +kernel
  have noInputSparsity :
      initial.closedFormCost Gate.farReaching.withoutInputSparsity =
        CostError.inputTooBig.code := by
    decide +kernel
  have noWeightSparsity :
      initial.closedFormCost Gate.farReaching.withoutWeightSparsity =
        CostError.inputTooBig.code := by
    decide +kernel
  refine ⟨?_, by decide +kernel⟩
  cases isAccepted : initial.gate.accept Gate.farReaching with
  | error refusal =>
      rw [isAccepted] at accepted
      contradiction
  | ok job =>
      rw [cost_of_dual (fits_of_noNetwork rfl) rfl isAccepted,
        cost_eq_closedFormCost_of_not_dual rfl rfl
          Gate.farReaching.isDual_withoutInputSparsity,
        cost_eq_closedFormCost_of_not_dual rfl rfl
          Gate.farReaching.isDual_withoutWeightSparsity,
        noInputSparsity, noWeightSparsity, Nat.min_self]

end CostModel

end DpuCycles
