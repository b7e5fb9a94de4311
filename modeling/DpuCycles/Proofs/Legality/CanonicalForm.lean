import DpuCycles.Proofs.Legality.Admission

namespace DpuCycles

/-!
# Canonical form is kept

On its way to a verdict a workload is rewritten: first its operation and its input
channels, then the types and layouts of its tensors.  A workload that was rewritten
once is not rewritten again, wherever the first run stopped.  Folding types and
layouts changes nothing that the choice of the operation reads, so the two steps can
be exchanged, and either of them twice is the same as once.
-/

namespace Capability

theorem foldType_foldType
    (table : Capability)
    (dtype : DataType) :
    table.foldType (table.foldType dtype) = table.foldType dtype := by
  rcases table.foldType_eq dtype with isInteger | isFloat
  · rw [isInteger]
    rfl
  · rw [isFloat]
    rfl

theorem foldLayout_foldLayout
    (table : Capability)
    (layout : Layout) :
    table.foldLayout (table.foldLayout layout) = table.foldLayout layout := by
  cases layout <;> rfl

end Capability

/-- The parts of a workload that its canonical form may have others for. -/
structure Rewriting where
  operation : Operation
  inputChannels : Nat
  inputType : DataType
  inputLayout : Layout
  outputType : DataType
  outputLayout : Layout
  weightType : DataType

namespace Workload

/-- These parts of a workload. -/
def rewriting (workload : Workload) : Rewriting where
  operation := workload.operation
  inputChannels := workload.input.shape.channels
  inputType := workload.input.dtype
  inputLayout := workload.input.layout
  outputType := workload.output.dtype
  outputLayout := workload.output.layout
  weightType := workload.weightType

/-- The workload with other such parts.  Weights without a type of their own get none. -/
def rewrite
    (workload : Workload)
    (parts : Rewriting) : Workload :=
  { workload with
    operation := parts.operation
    input :=
      { workload.input.withChannels parts.inputChannels with
        dtype := parts.inputType
        layout := parts.inputLayout }
    output :=
      { workload.output with
        dtype := parts.outputType
        layout := parts.outputLayout }
    weightType? := workload.weightType?.map fun _ => parts.weightType }

section Rewriting

variable (workload : Workload)

theorem rewrite_rewriting : workload.rewrite workload.rewriting = workload := by
  obtain ⟨_, _, _, _, _, _, _, _, _, _, _, _, _, _, _, _, _, _, _, _, weightType?, _, _, _⟩ :=
    workload
  cases weightType? <;> rfl

theorem canonicalize_eq_rewrite :
    workload.canonicalize = workload.rewrite workload.canonicalize.rewriting := by
  rw [canonicalize_eq]
  cases given : workload.weightType? <;>
    simp [rewrite, rewriting, Tensor.withChannels, weightType, given]

theorem canonicalize_fold_eq_rewrite (table : Capability) :
    workload.canonicalize.fold table =
      workload.rewrite (workload.canonicalize.fold table).rewriting := by
  rw [canonicalize_eq]
  cases given : workload.weightType? <;>
    simp [rewrite, rewriting, Tensor.withChannels, weightType, fold, foldTensor,
      Capability.foldSwizzling, given]

end Rewriting

variable {workload : Workload}

/-- The canonical operation stands for itself, on channels that a convolution finds unchanged. -/
theorem canonicalOperation_of_canonical
    {canonical : Workload}
    (operation : canonical.operation = workload.canonicalOperation)
    (channels :
      workload.canonicalOperation = .convolution →
        canonical.input.shape.channels = workload.input.shape.channels) :
    canonical.canonicalOperation = workload.canonicalOperation := by
  cases isOperation : workload.operation with
  | convolution =>
      by_cases few : 1 ≤ workload.input.shape.channels ∧ workload.input.shape.channels < 16
      · have isChannelMajor : workload.canonicalOperation = .channelMajor := by
          simp [canonicalOperation, isOperation, few]
        rw [isChannelMajor] at operation ⊢
        simp only [canonicalOperation, operation]
      · have isConvolution : workload.canonicalOperation = .convolution := by
          simp [canonicalOperation, isOperation, few]
        rw [isConvolution] at operation ⊢
        simp only [canonicalOperation, operation, channels isConvolution, if_neg few]
  | depthwise | eltwise | maxPool | avePool | channelMajor | layerNorm | eltwiseMul =>
      simp only [canonicalOperation, isOperation] at operation ⊢
      simp only [operation]

theorem canonicalOperation_canonicalize (workload : Workload) :
    workload.canonicalize.canonicalOperation = workload.canonicalOperation := by
  refine canonicalOperation_of_canonical (by rw [canonicalize_eq]) ?_
  intro isConvolution
  rw [canonicalize_eq, isConvolution]
  rfl

theorem canonicalize_canonicalize (workload : Workload) :
    workload.canonicalize.canonicalize = workload.canonicalize := by
  rw [canonicalize_eq workload.canonicalize, canonicalOperation_canonicalize, canonicalize_eq]
  split <;> rfl

/-- Types and layouts are not read by the choice of the operation. -/
theorem canonicalize_fold
    (table : Capability)
    (workload : Workload) :
    (workload.fold table).canonicalize = workload.canonicalize.fold table := by
  have sameOperation :
      (workload.fold table).canonicalOperation = workload.canonicalOperation := rfl
  rw [canonicalize_eq, canonicalize_eq, sameOperation]
  rfl

theorem foldTensor_foldTensor
    (table : Capability)
    (tensor : Tensor) :
    foldTensor table (foldTensor table tensor) = foldTensor table tensor := by
  simp only [foldTensor, Capability.foldType_foldType, Capability.foldLayout_foldLayout]

theorem fold_fold
    (table : Capability)
    (workload : Workload) :
    (workload.fold table).fold table = workload.fold table := by
  have sameWeights :
      (workload.weightType?.map table.foldType).map table.foldType =
        workload.weightType?.map table.foldType := by
    rw [Option.map_map]
    exact congrArg (workload.weightType?.map ·) (funext table.foldType_foldType)
  simp only [fold, foldTensor_foldTensor, sameWeights, Capability.foldSwizzling]

end Workload

namespace Gate

section Stages

variable
  {gate : Gate}
  {workload : Workload}
  {table : Capability}
  {family : Family}

/-- Without a table a workload is refused untouched. -/
theorem settle_of_noTable
    (noTable : Capability.ofDevice? gate.tables workload.device = none) :
    gate.settle workload = (workload, .error (.unsupportedDevice workload.device)) := by
  simp only [settle, noTable]

/-- Without a family a workload is refused with its canonical operation. -/
theorem settle_of_noFamily
    (isTable : Capability.ofDevice? gate.tables workload.device = some table)
    (noFamily : family? table workload.canonicalize.operation = none) :
    gate.settle workload =
      (workload.canonicalize,
        .error
          (.unsupportedOperation workload.canonicalize.operation
            workload.canonicalize.device)) := by
  simp only [settle, isTable, noFamily]

/-- With a table and a family a workload is folded before its job is inspected. -/
theorem settle_of_family
    (isTable : Capability.ofDevice? gate.tables workload.device = some table)
    (isFamily : family? table workload.canonicalize.operation = some family) :
    gate.settle workload =
      (workload.canonicalize.fold table,
        gate.inspect table (.ofWorkload (workload.canonicalize.fold table) family)) := by
  simp only [settle, isTable, isFamily]

end Stages

/--
Whatever the tables are, and wherever a workload is refused: what it was rewritten
to by then gets the same verdict, down to the findings, and is left as it is.  The
operation, the input channels and the types and layouts of the tensors are all that
is rewritten, and weights without a type of their own are not given one.
-/
theorem settle_settled
    (gate : Gate)
    (workload : Workload) :
    gate.settle (gate.settle workload).1 = gate.settle workload ∧
      (gate.settle workload).1 = workload.rewrite (gate.settle workload).1.rewriting := by
  cases isTable : Capability.ofDevice? gate.tables workload.device with
  | none =>
      have refused := settle_of_noTable isTable
      rw [refused]
      exact ⟨refused, workload.rewrite_rewriting.symm⟩
  | some table =>
      have canonicalTable :
          Capability.ofDevice? gate.tables workload.canonicalize.device = some table := by
        rw [Workload.canonicalize_eq]
        exact isTable
      cases isFamily : family? table workload.canonicalize.operation with
      | none =>
          have again :=
            settle_of_noFamily canonicalTable
              (by rw [Workload.canonicalize_canonicalize]; exact isFamily)
          rw [Workload.canonicalize_canonicalize] at again
          rw [settle_of_noFamily isTable isFamily]
          exact ⟨again, workload.canonicalize_eq_rewrite⟩
      | some family =>
          have canonicalAgain :
              (workload.canonicalize.fold table).canonicalize =
                workload.canonicalize.fold table := by
            rw [Workload.canonicalize_fold, Workload.canonicalize_canonicalize]
          have foldedTable :
              Capability.ofDevice? gate.tables (workload.canonicalize.fold table).device =
                some table :=
            canonicalTable
          have foldedFamily :
              family? table (workload.canonicalize.fold table).canonicalize.operation =
                some family := by
            rw [canonicalAgain]
            exact isFamily
          have again := settle_of_family foldedTable foldedFamily
          rw [canonicalAgain, Workload.fold_fold] at again
          rw [settle_of_family isTable isFamily]
          exact ⟨again, workload.canonicalize_fold_eq_rewrite table⟩

end Gate

end DpuCycles
