import DpuCycles.Proofs.Legality.Sparsity

namespace DpuCycles

/-!
# Workloads that are treated alike

Two workloads are alike when one becomes the other by changes that nothing behind
admission can tell apart.  Most of them vanish in canonical form: names of one
operation, types of one family, names of one layout, input channels where the
output decides on them.  What canonical form leaves is a second elementwise
operation, the position of a workload in its layer, and a text.

A workload is therefore compared by its representative, which is its canonical form
without these.  Every change leaves the representative as it is, and admission is a
function of it, up to a representative of the job and the error of a refusal.
-/

namespace Operation

/-- The operation that stands for both elementwise ones. -/
def representative : Operation → Operation
  | .eltwiseMul => .eltwise
  | operation => operation

end Operation

/-- Two names of one layout. -/
inductive Layout.Alias : Layout → Layout → Prop where
  | channelsFirst : Alias .zMajor .zxy
  | widthFirst : Alias .cMajor .xyz

namespace Workload

/-- One change of a workload that nothing behind admission can tell. -/
inductive Alias : Workload → Workload → Prop where
  | average
      (workload : Workload)
      (isAverage : workload.operation = .avePool) :
      Alias workload { workload with operation := .depthwise }
  | product
      (workload : Workload)
      (isProduct : workload.operation = .eltwiseMul) :
      Alias workload { workload with operation := .eltwise }
  | fewChannels
      (workload : Workload)
      (isConvolution : workload.operation = .convolution)
      (few : 1 ≤ workload.input.shape.channels ∧ workload.input.shape.channels < 16) :
      Alias workload { workload with operation := .channelMajor }
  | inputType
      (workload : Workload)
      (dtype : DataType)
      (sameFamily : dtype.isFloat = workload.input.dtype.isFloat) :
      Alias workload { workload with input := { workload.input with dtype := dtype } }
  | outputType
      (workload : Workload)
      (dtype : DataType)
      (sameFamily : dtype.isFloat = workload.output.dtype.isFloat) :
      Alias workload { workload with output := { workload.output with dtype := dtype } }
  /-- Weights without a type have that of the input. -/
  | weightType
      (workload : Workload)
      (dtype : DataType)
      (sameFamily : dtype.isFloat = workload.weightType.isFloat) :
      Alias workload { workload with weightType? := some dtype }
  | inputLayout
      (workload : Workload)
      (layout : Layout)
      (same : workload.input.layout.Alias layout) :
      Alias workload { workload with input := { workload.input with layout := layout } }
  | outputLayout
      (workload : Workload)
      (layout : Layout)
      (same : workload.output.layout.Alias layout) :
      Alias workload { workload with output := { workload.output with layout := layout } }
  | inputChannels
      (workload : Workload)
      (count : Nat)
      (keeps : workload.operation.keepsChannels = true) :
      Alias workload { workload with input := workload.input.withChannels count }
  | offset
      (workload : Workload)
      (offset : Offset) :
      Alias workload { workload with offset := offset }
  | layerInfo
      (workload : Workload)
      (text : String) :
      Alias workload { workload with layerInfo := text }

/-- Workloads of which one becomes the other by any number of such changes, made or undone. -/
inductive Alike : Workload → Workload → Prop where
  | step
      {one other : Workload}
      (step : Alias one other) :
      Alike one other
  | refl (workload : Workload) :
      Alike workload workload
  | symm
      {one other : Workload}
      (alike : Alike one other) :
      Alike other one
  | trans
      {one middle other : Workload}
      (toMiddle : Alike one middle)
      (fromMiddle : Alike middle other) :
      Alike one other

/-- The canonical form without what is never looked at behind admission. -/
def representative
    (table : Capability)
    (workload : Workload) : Workload :=
  let folded := workload.canonicalize.fold table
  { folded with
    operation := folded.operation.representative
    weightType? := some folded.weightType
    offset := ⟨0, 0, 0, 0⟩
    layerInfo := "" }

theorem representative_eq
    (table : Capability)
    (workload : Workload) :
    workload.representative table =
      { workload with
        operation := workload.canonicalOperation.representative
        input :=
          (foldTensor table workload.input).withChannels
            (if workload.canonicalOperation.keepsChannels then
              workload.output.shape.channels
            else
              workload.input.shape.channels)
        output := foldTensor table workload.output
        weightType? := some (table.foldType workload.weightType)
        offset := ⟨0, 0, 0, 0⟩
        layerInfo := "" } := by
  unfold representative
  dsimp only
  rw [weightType_canonicalize_fold, canonicalize_eq]
  rfl

theorem foldLayout_alias
    {layout other : Layout}
    (table : Capability)
    (same : layout.Alias other) :
    table.foldLayout other = table.foldLayout layout := by
  cases same <;> rfl

theorem foldType_eq_of_isFloat
    {dtype other : DataType}
    (table : Capability)
    (sameFamily : other.isFloat = dtype.isFloat) :
    table.foldType other = table.foldType dtype := by
  rw [Capability.foldType, sameFamily]
  rfl

/-- Workloads with the same canonical parts have the same representative. -/
theorem representative_congr
    {one other : Workload}
    (table : Capability)
    (operation : other.canonicalOperation.representative = one.canonicalOperation.representative)
    (input :
      (foldTensor table other.input).withChannels
          (if other.canonicalOperation.keepsChannels then
            other.output.shape.channels
          else
            other.input.shape.channels) =
        (foldTensor table one.input).withChannels
          (if one.canonicalOperation.keepsChannels then
            one.output.shape.channels
          else
            one.input.shape.channels))
    (output : foldTensor table other.output = foldTensor table one.output)
    (weights : table.foldType other.weightType = table.foldType one.weightType)
    (rest :
      { other with
        operation := one.operation
        input := one.input
        output := one.output
        weightType? := one.weightType?
        offset := one.offset
        layerInfo := one.layerInfo } = one) :
    other.representative table = one.representative table := by
  rw [representative_eq, representative_eq, operation, input, output, weights]
  exact congrArg
    (fun workload : Workload =>
      { workload with
        operation := one.canonicalOperation.representative
        input :=
          (foldTensor table one.input).withChannels
            (if one.canonicalOperation.keepsChannels then
              one.output.shape.channels
            else
              one.input.shape.channels)
        output := foldTensor table one.output
        weightType? := some (table.foldType one.weightType)
        offset := ⟨0, 0, 0, 0⟩
        layerInfo := "" })
    rest

/-- No change is seen in the representative. -/
theorem Alias.representative_eq
    {one other : Workload}
    (table : Capability)
    (step : Alias one other) :
    other.representative table = one.representative table := by
  cases step with
  | average isAverage =>
      have same :
          canonicalOperation { one with operation := .depthwise } = one.canonicalOperation := by
        simp [canonicalOperation, isAverage]
      exact representative_congr table (congrArg _ same) (by rw [same]) rfl rfl rfl
  | product isProduct =>
      have isCanonical : one.canonicalOperation = .eltwiseMul := by
        simp [canonicalOperation, isProduct]
      refine representative_congr table ?_ ?_ rfl rfl rfl
      · rw [isCanonical]
        rfl
      · rw [isCanonical]
        rfl
  | fewChannels isConvolution few =>
      have same :
          canonicalOperation { one with operation := .channelMajor } = one.canonicalOperation := by
        simp [canonicalOperation, isConvolution, few]
      exact representative_congr table (congrArg _ same) (by rw [same]) rfl rfl rfl
  | inputType dtype sameFamily =>
      have sameInput :
          foldTensor table { one.input with dtype := dtype } = foldTensor table one.input := by
        rw [foldTensor, foldType_eq_of_isFloat table sameFamily]
        rfl
      have sameWeights :
          table.foldType
              (Workload.weightType { one with input := { one.input with dtype := dtype } }) =
            table.foldType one.weightType := by
        cases given : one.weightType? with
        | none =>
            simpa [Workload.weightType, given] using foldType_eq_of_isFloat table sameFamily
        | some own =>
            simp [Workload.weightType, given]
      exact representative_congr table rfl (congrArg (Tensor.withChannels · _) sameInput) rfl
        sameWeights rfl
  | outputType dtype sameFamily =>
      have sameOutput :
          foldTensor table { one.output with dtype := dtype } = foldTensor table one.output := by
        rw [foldTensor, foldType_eq_of_isFloat table sameFamily]
        rfl
      exact representative_congr table rfl rfl sameOutput rfl rfl
  | weightType dtype sameFamily =>
      exact representative_congr table rfl rfl rfl (foldType_eq_of_isFloat table sameFamily) rfl
  | inputLayout layout same =>
      have sameInput :
          foldTensor table { one.input with layout := layout } = foldTensor table one.input := by
        rw [foldTensor, foldLayout_alias table same]
        rfl
      exact representative_congr table rfl (congrArg (Tensor.withChannels · _) sameInput) rfl rfl
        rfl
  | outputLayout layout same =>
      have sameOutput :
          foldTensor table { one.output with layout := layout } = foldTensor table one.output := by
        rw [foldTensor, foldLayout_alias table same]
        rfl
      exact representative_congr table rfl rfl sameOutput rfl rfl
  | inputChannels count keeps =>
      have canonical :
          canonicalOperation { one with input := one.input.withChannels count } =
              one.canonicalOperation ∧
            one.canonicalOperation.keepsChannels = true := by
        cases isOperation : one.operation with
        | depthwise | eltwise | maxPool | avePool | eltwiseMul =>
            simp [canonicalOperation, isOperation, Operation.keepsChannels]
        | convolution | channelMajor | layerNorm =>
            rw [isOperation] at keeps
            contradiction
      obtain ⟨same, keepsCanonical⟩ := canonical
      refine representative_congr table (congrArg _ same) ?_ rfl rfl rfl
      rw [same, if_pos keepsCanonical, if_pos keepsCanonical]
      rfl
  | offset offset =>
      exact representative_congr table rfl rfl rfl rfl rfl
  | layerInfo text =>
      exact representative_congr table rfl rfl rfl rfl rfl

/-- Workloads with the same representative, whatever table it is made by. -/
def Agrees (one other : Workload) : Prop :=
  ∀ table, one.representative table = other.representative table

/-- Workloads that are alike have the same representative. -/
theorem Alike.agrees
    {one other : Workload}
    (alike : Alike one other) :
    one.Agrees other := by
  intro table
  induction alike with
  | step step =>
      exact (step.representative_eq table).symm
  | refl workload =>
      rfl
  | symm _ inductionHypothesis =>
      exact inductionHypothesis.symm
  | trans _ _ toMiddle fromMiddle =>
      exact toMiddle.trans fromMiddle

section Agreement

variable {one other : Workload}

theorem Agrees.device
    (agrees : one.Agrees other) :
    one.device = other.device := by
  have same := congrArg Workload.device (agrees .vpu27)
  rw [representative_eq, representative_eq] at same
  exact same

theorem Agrees.isDual
    (agrees : one.Agrees other) :
    one.isDual = other.isDual := by
  have same := congrArg Workload.isDual (agrees .vpu27)
  rw [representative_eq, representative_eq] at same
  exact same

theorem Agrees.withoutInputSparsity
    (agrees : one.Agrees other) :
    one.withoutInputSparsity.Agrees other.withoutInputSparsity := by
  intro table
  have same := congrArg Workload.withoutInputSparsity (agrees table)
  rw [representative_eq, representative_eq] at same ⊢
  exact same

theorem Agrees.withoutWeightSparsity
    (agrees : one.Agrees other) :
    one.withoutWeightSparsity.Agrees other.withoutWeightSparsity := by
  intro table
  have same := congrArg Workload.withoutWeightSparsity (agrees table)
  rw [representative_eq, representative_eq] at same ⊢
  exact same

end Agreement

end Workload

namespace Job

/-- The job with the operation that stands for it, at the start of its layer. -/
def representative (job : Job) : Job :=
  { job with
    operation := job.operation.representative
    offset := ⟨0, 0, 0, 0⟩ }

theorem representative_ofWorkload
    (workload : Workload)
    (table : Capability)
    (family : Family) :
    (ofWorkload (workload.canonicalize.fold table) family).representative =
      ofWorkload (workload.representative table) family := by
  cases family <;> rfl

/-- What holds of a job with each operation holds of the job. -/
theorem of_operation
    {motive : Job → Prop}
    (job : Job)
    (each : ∀ operation, motive { job with operation := operation }) :
    motive job :=
  each job.operation

end Job

section Representative

variable {table : Capability}

theorem Footprint.ofJob_representative
    (ignoreOverhead : Bool)
    (job : Job) :
    ofJob table ignoreOverhead job.representative = ofJob table ignoreOverhead job := by
  induction job using Job.of_operation with
  | each operation =>
      cases operation <;> rfl

namespace Rules

variable (job : Job)

/-- An elementwise job breaks rules of sparsity by either operation or by none. -/
theorem sparsity_product_eq_nil :
    sparsity { job with operation := .eltwise } = [] ↔
      sparsity { job with operation := .eltwiseMul } = [] := by
  simp only [sparsity, List.append_eq_nil_iff, require_eq_nil]
  cases job.weights.sparse <;> cases job.input.sparse <;>
    simp only [if_true, Bool.false_eq_true, if_false, require_eq_nil]

theorem pointerTable_product_eq_nil :
    pointerTable { job with operation := .eltwise } = [] ↔
      pointerTable { job with operation := .eltwiseMul } = [] := by
  unfold pointerTable
  dsimp only
  split
  · simp only [List.append_eq_nil_iff, require_eq_nil]
    rfl
  · rfl

theorem findings_product_eq_nil :
    findings table { job with operation := .eltwise } = [] ↔
      findings table { job with operation := .eltwiseMul } = [] := by
  have sameOptions :
      deviceOptions table { job with operation := .eltwise } = [] ↔
        deviceOptions table { job with operation := .eltwiseMul } = [] := by
    simp only [deviceOptions, List.append_eq_nil_iff, require_eq_nil]
  have sameTensors :
      tensors table { job with operation := .eltwise } = [] ↔
        tensors table { job with operation := .eltwiseMul } = [] := by
    simp only [tensors, List.append_eq_nil_iff, require_eq_nil]
    rfl
  rw [findings_eq_nil, findings_eq_nil, sameOptions, sameTensors, sparsity_product_eq_nil,
    pointerTable_product_eq_nil]
  rfl

/-- A job breaks rules exactly when its representative does. -/
theorem findings_representative_eq_nil :
    findings table job.representative = [] ↔ findings table job = [] := by
  induction job using Job.of_operation with
  | each operation =>
      cases operation with
      | eltwiseMul =>
          exact findings_product_eq_nil { job with offset := ⟨0, 0, 0, 0⟩ }
      | convolution | depthwise | eltwise | maxPool | avePool | channelMajor | layerNorm =>
          rfl

end Rules

end Representative

namespace Gate

variable
  {gate : Gate}
  {table : Capability}

/-- What admission comes to: the representative of a job, or the error of a refusal. -/
def verdict : Except Refusal Job → Except CostError Job
  | .ok job => .ok job.representative
  | .error refusal => .error refusal.error

theorem verdict_inspect
    (gate : Gate)
    (table : Capability)
    (job : Job) :
    verdict (gate.inspect table job) = gate.judge table job.representative := by
  have isVerdict (outcome : Except Refusal Job) :
      verdict outcome = (outcome.mapError Refusal.error).map Job.representative := by
    cases outcome <;> rfl
  rw [isVerdict, mapError_inspect]
  simp only [judge, Footprint.ofJob_representative, Rules.findings_representative_eq_nil]
  split
  · rfl
  · split <;> rfl

/-- The standard tables execute both elementwise operations, as one family. -/
theorem family?_representative
    (known : table ∈ Capability.standard)
    (operation : Operation) :
    family? table operation.representative = family? table operation := by
  rcases Capability.eq_of_mem_standard known with rfl | rfl <;> cases operation <;> rfl

/-- The verdict about a workload is one about its representative. -/
theorem verdict_accept
    (standard : gate.tables = Capability.standard)
    (workload : Workload) :
    verdict (gate.accept workload) =
      match Capability.ofDevice? gate.tables workload.device with
      | none => .error .invalidInputDevice
      | some table =>
          match family? table (workload.representative table).operation with
          | none => .error .invalidInputOperation
          | some family =>
              gate.judge table (.ofWorkload (workload.representative table) family) := by
  cases isTable : Capability.ofDevice? gate.tables workload.device with
  | none =>
      simp only [accept, settle, isTable]
      rfl
  | some table =>
      have known : table ∈ Capability.standard := standard ▸ List.mem_of_find?_eq_some isTable
      have sameFamily :
          family? table (workload.representative table).operation =
            family? table workload.canonicalize.operation :=
        family?_representative known workload.canonicalize.operation
      dsimp only
      rw [sameFamily]
      cases isFamily : family? table workload.canonicalize.operation with
      | none =>
          simp only [accept, settle, isTable, isFamily]
          rfl
      | some family =>
          rw [accept_of_family isTable isFamily, verdict_inspect, Job.representative_ofWorkload]

/-- Workloads with the same representative are admitted alike. -/
theorem verdict_congr
    {one other : Workload}
    (standard : gate.tables = Capability.standard)
    (agrees : one.Agrees other) :
    verdict (gate.accept one) = verdict (gate.accept other) := by
  rw [verdict_accept standard, verdict_accept standard, agrees.device]
  cases Capability.ofDevice? gate.tables other.device with
  | none =>
      rfl
  | some table =>
      simp only [agrees table]

end Gate

end DpuCycles
