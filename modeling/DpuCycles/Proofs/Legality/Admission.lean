import DpuCycles.Legality.Admission

namespace DpuCycles

/-!
# What an admitted workload has passed

Admission is read backwards here: an admitted workload has a table and a family,
its job is that of its canonical form, it fits the memory, and no rule has a
finding about it.
-/

namespace Capability

variable {table : Capability}

theorem eq_of_mem_standard
    (known : table ∈ standard) :
    table = vpu27 ∨ table = vpu40 := by
  simpa [standard] using known

/-- The standard tables bound planes and kernels alike. -/
theorem limits_of_mem_standard
    (known : table ∈ standard) :
    table.spatialMax = 8192 ∧ table.kernelMax = 11 := by
  rcases eq_of_mem_standard known with rfl | rfl <;> exact ⟨rfl, rfl⟩

theorem foldType_eq
    (table : Capability)
    (dtype : DataType) :
    table.foldType dtype = .uint8 ∨ table.foldType dtype = .float16 := by
  cases dtype <;> simp [foldType, DataType.isFloat]

theorem foldLayout_ne
    (table : Capability)
    (layout : Layout) :
    table.foldLayout layout ≠ .zMajor ∧ table.foldLayout layout ≠ .cMajor := by
  cases layout <;> simp [foldLayout]

theorem modes_of_mem_standard
    (known : table ∈ standard) :
    table.modes = [.cuboid4x16, .cuboid8x16, .cuboid16x16] := by
  rcases eq_of_mem_standard known with rfl | rfl <;> rfl

/-- Output channels are accepted in whole steps up to the limit. -/
theorem contains_outputChannels_iff
    {count : Nat} :
    table.outputChannels.contains count = true ↔
      16 ≤ count ∧ count ≤ table.channelsMax ∧ 16 ∣ count := by
  simp [outputChannels, ChannelRange.contains, and_assoc, Nat.dvd_iff_mod_eq_zero]

end Capability

namespace Rules

/-- A rule without a finding holds. -/
@[simp] theorem require_eq_nil
    {holds : Bool}
    {finding : Finding} :
    require holds finding = [] ↔ holds = true := by
  cases holds <;> simp [require]

variable {table : Capability} {job : Job}

@[simp] theorem extent_eq_nil
    {side : Side}
    {axis : Axis}
    {value : Nat} :
    extent table side axis value = [] ↔ 1 ≤ value ∧ value ≤ table.spatialMax := by
  simp [extent]

@[simp] theorem padding_eq_nil
    {edge : Edge}
    {value extent : Nat} :
    padding edge value extent = [] ↔ value ≤ extent / 2 := by
  simp [padding]

@[simp] theorem stride_eq_nil
    {limit value input : Nat}
    {axis : Axis} :
    stride limit axis value input = [] ↔ (1 ≤ value ∧ value ≤ limit) ∧ value ≤ max input 1 := by
  simp [stride]

@[simp] theorem outputExtent_eq_nil
    {axis : Axis}
    {value : Nat}
    {expected : Option Nat} :
    outputExtent axis value expected = [] ↔ expected = some value := by
  simp [outputExtent]

/-- Tensors without findings are of one image and have channels, and their planes are bounded. -/
theorem planes_of_tensors
    (legal : tensors table job = []) :
    (1 ≤ job.input.shape.width ∧ job.input.shape.width ≤ table.spatialMax) ∧
      (1 ≤ job.input.shape.height ∧ job.input.shape.height ≤ table.spatialMax) ∧
      1 ≤ job.output.shape.channels ∧ job.output.shape.batch = 1 := by
  simp only [tensors, List.append_eq_nil_iff, require_eq_nil, extent_eq_nil, beq_iff_eq,
    and_assoc] at legal
  obtain ⟨_, _, _, _, _, _, channels, _, width, widthMax, height, heightMax, _, _, _, _,
    sameBatch, oneImage⟩ := legal
  simp only [Capability.outputChannels, ChannelRange.contains, Bool.and_eq_true,
    decide_eq_true_eq] at channels
  exact ⟨⟨width, widthMax⟩, ⟨height, heightMax⟩, by omega, sameBatch ▸ oneImage⟩

/-- Tensors without findings have accepted channels, and the planes of their output are bounded. -/
theorem outputs_of_tensors
    (legal : tensors table job = []) :
    (table.inputChannels job.operation).contains job.input.shape.channels = true ∧
      table.outputChannels.contains job.output.shape.channels = true ∧
      job.output.shape.width ≤ table.spatialMax ∧ job.output.shape.height ≤ table.spatialMax := by
  simp only [tensors, List.append_eq_nil_iff, require_eq_nil, extent_eq_nil, and_assoc] at legal
  obtain ⟨_, _, _, _, _, inputChannels, outputChannels, _, _, _, _, _, _, width, _, height, _⟩ :=
    legal
  exact ⟨inputChannels, outputChannels, width, height⟩

/-- A kernel without findings is bounded and bounds the padding, and its output is the given one. -/
theorem planes_of_kernel
    (legal : kernel table job = []) :
    (job.kernel.width ≤ job.family.kernelMax table ∧
        job.padding.left ≤ job.kernel.width / 2 ∧ job.padding.right ≤ job.kernel.width / 2 ∧
        outputExtent? job.input.shape.width job.padding.left job.padding.right
          job.kernel.width job.stride.width = some job.output.shape.width) ∧
      job.kernel.height ≤ job.family.kernelMax table ∧
        job.padding.top ≤ job.kernel.height / 2 ∧ job.padding.bottom ≤ job.kernel.height / 2 ∧
        outputExtent? job.input.shape.height job.padding.top job.padding.bottom
          job.kernel.height job.stride.height = some job.output.shape.height := by
  simp only [kernel, List.append_eq_nil_iff, require_eq_nil, padding_eq_nil,
    outputExtent_eq_nil, decide_eq_true_eq, and_assoc] at legal
  obtain ⟨_, width, _, height, _, _, top, bottom, left, right, outputWidth, outputHeight⟩ := legal
  exact ⟨⟨width, left, right, outputWidth⟩, height, top, bottom, outputHeight⟩

/-- A kernel without findings steps within the input. -/
theorem strides_of_kernel
    (legal : kernel table job = []) :
    job.stride.width ≤ max job.input.shape.width 1 ∧
      job.stride.height ≤ max job.input.shape.height 1 := by
  simp only [kernel, List.append_eq_nil_iff, stride_eq_nil, and_assoc] at legal
  obtain ⟨_, _, _, _, width, _, _, height, _⟩ := legal
  exact ⟨width, height⟩

theorem findings_eq_nil :
    findings table job = [] ↔
      deviceOptions table job = [] ∧ tensors table job = [] ∧ kernel table job = [] ∧
        sparsity job = [] ∧ halo table job = [] ∧ pointerTable job = [] := by
  simp only [findings, List.append_eq_nil_iff, and_assoc]

/-- Jobs without findings are executed in a mode of their table. -/
theorem mode_mem_of_findings
    (legal : findings table job = []) :
    job.mode ∈ table.modes := by
  have options := (findings_eq_nil.mp legal).1
  simp only [deviceOptions, List.append_eq_nil_iff, and_assoc] at options
  simpa using options.1

end Rules

/-- A sum over channels stays one in canonical form, and nothing else becomes one. -/
theorem Workload.isConvolution_canonicalOperation (workload : Workload) :
    workload.canonicalOperation.isConvolution = workload.operation.isConvolution := by
  cases isOperation : workload.operation with
  | convolution =>
      simp only [canonicalOperation, isOperation]
      split <;> rfl
  | avePool =>
      simp only [canonicalOperation, isOperation, Operation.isConvolution]
  | depthwise | eltwise | maxPool | channelMajor | layerNorm | eltwiseMul =>
      simp only [canonicalOperation, isOperation]

/-- Canonical form changes the operation of a workload and its input channels at most. -/
theorem Workload.canonicalize_eq (workload : Workload) :
    workload.canonicalize =
      { workload with
        operation := workload.canonicalOperation
        input :=
          workload.input.withChannels
            (if workload.canonicalOperation.keepsChannels then
              workload.output.shape.channels
            else
              workload.input.shape.channels) } := by
  unfold canonicalize
  dsimp only
  split <;> rfl

/-- The canonical weights are of the folded type of the weights. -/
theorem Workload.weightType_canonicalize_fold
    (table : Capability)
    (workload : Workload) :
    (workload.canonicalize.fold table).weightType = table.foldType workload.weightType := by
  rw [canonicalize_eq]
  cases given : workload.weightType? with
  | none =>
      simp [weightType, fold, foldTensor, Tensor.withChannels, given]
  | some dtype =>
      simp [weightType, fold, given]

namespace Gate

/-- The stages that a workload passes on its way to a job. -/
structure Admits
    (gate : Gate)
    (workload : Workload)
    (table : Capability)
    (family : Family)
    (job : Job) : Prop where
  isTable : Capability.ofDevice? gate.tables workload.device = some table
  isFamily : family? table workload.canonicalize.operation = some family
  isJob : Job.ofWorkload (workload.canonicalize.fold table) family = job
  fits : (Footprint.ofJob table gate.ignoreOverhead job).total ≤ table.cmxBytes
  legal : Rules.findings table job = []

/-- The operations of a family do not include normalization. -/
theorem ne_layerNorm_of_family?
    {table : Capability}
    {operation : Operation}
    {family : Family}
    (isFamily : family? table operation = some family) :
    operation ≠ .layerNorm := by
  rintro rfl
  simp [family?, Family.ofOperation?] at isFamily

/-- A job that is inspected with success fits and breaks no rule. -/
theorem inspect_eq_ok_iff
    {gate : Gate}
    {table : Capability}
    {inspected job : Job} :
    gate.inspect table inspected = .ok job ↔
      inspected = job ∧
        (Footprint.ofJob table gate.ignoreOverhead job).total ≤ table.cmxBytes ∧
        Rules.findings table job = [] := by
  unfold inspect
  dsimp only
  constructor
  · intro passed
    split at passed
    · cases passed
    · rename_i fits
      split at passed
      · rename_i legal
        obtain rfl := Except.ok.inj passed
        exact ⟨rfl, Nat.not_lt.mp fits, legal⟩
      · cases passed
  · rintro ⟨rfl, fits, legal⟩
    rw [if_neg (Nat.not_lt.mpr fits), legal]

/-- A job that is inspected without success needs too much memory, or rules are broken. -/
theorem inspect_eq_error_iff
    {gate : Gate}
    {table : Capability}
    {job : Job}
    {refusal : Refusal} :
    gate.inspect table job = .error refusal ↔
      let needed := (Footprint.ofJob table gate.ignoreOverhead job).total
      table.cmxBytes < needed ∧ refusal = .tooBig needed table.cmxBytes ∨
        needed ≤ table.cmxBytes ∧ Rules.findings table job ≠ [] ∧
          refusal = .brokenRules (Rules.findings table job) := by
  unfold inspect
  dsimp only
  split
  · rename_i tooBig
    constructor
    · intro refused
      exact .inl ⟨tooBig, (Except.error.inj refused).symm⟩
    · rintro (⟨_, rfl⟩ | ⟨fits, _⟩)
      · rfl
      · exact absurd fits (Nat.not_le.mpr tooBig)
  · rename_i fits
    split
    · rename_i legal
      constructor
      · intro refused
        contradiction
      · rintro (⟨tooBig, _⟩ | ⟨_, broken, _⟩)
        · exact absurd tooBig fits
        · exact absurd legal broken
    · rename_i broken
      constructor
      · intro refused
        exact .inr ⟨Nat.not_lt.mp fits, broken, (Except.error.inj refused).symm⟩
      · rintro (⟨tooBig, _⟩ | ⟨_, _, rfl⟩)
        · exact absurd tooBig fits
        · rfl

/-- What the inspection of a job comes to: the job, or the error of the refusal. -/
def judge
    (gate : Gate)
    (table : Capability)
    (job : Job) : Except CostError Job :=
  if table.cmxBytes < (Footprint.ofJob table gate.ignoreOverhead job).total then
    .error .inputTooBig
  else if Rules.findings table job = [] then
    .ok job
  else
    .error .invalidInputConfiguration

theorem mapError_inspect
    (gate : Gate)
    (table : Capability)
    (job : Job) :
    (gate.inspect table job).mapError Refusal.error = gate.judge table job := by
  unfold inspect judge
  dsimp only
  split
  · rfl
  · split
    · rename_i legal
      rw [if_pos legal]
      rfl
    · rename_i broken
      rw [if_neg broken]
      rfl

/-- With a table and a family a workload is admitted when its job is. -/
theorem accept_of_family
    {gate : Gate}
    {workload : Workload}
    {table : Capability}
    {family : Family}
    (isTable : Capability.ofDevice? gate.tables workload.device = some table)
    (isFamily : family? table workload.canonicalize.operation = some family) :
    gate.accept workload =
      gate.inspect table (.ofWorkload (workload.canonicalize.fold table) family) := by
  simp only [accept, settle, isTable, isFamily]

/-- A workload is admitted exactly when it passes all stages. -/
theorem accept_eq_ok_iff
    {gate : Gate}
    {workload : Workload}
    {job : Job} :
    gate.accept workload = .ok job ↔ ∃ table family, gate.Admits workload table family job := by
  constructor
  · intro accepted
    cases isTable : Capability.ofDevice? gate.tables workload.device with
    | none =>
        simp [accept, settle, isTable] at accepted
    | some table =>
        cases isFamily : family? table workload.canonicalize.operation with
        | none =>
            simp [accept, settle, isTable, isFamily] at accepted
        | some family =>
            rw [accept_of_family isTable isFamily] at accepted
            obtain ⟨isJob, fits, legal⟩ := inspect_eq_ok_iff.mp accepted
            exact ⟨table, family, isTable, isFamily, isJob, fits, legal⟩
  · rintro ⟨table, family, isTable, isFamily, isJob, fits, legal⟩
    rw [accept_of_family isTable isFamily]
    exact inspect_eq_ok_iff.mpr ⟨isJob, fits, legal⟩

end Gate

end DpuCycles
