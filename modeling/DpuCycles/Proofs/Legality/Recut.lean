import DpuCycles.Proofs.Legality.Admission

namespace DpuCycles

/-!
# Rules of a job that is cut smaller

A part of a layer is executed by a job like that of the layer: other are the extents
of the tensors, the padding, of which some is dropped, the mode and the offset.
Group by group, a job without findings has none either when it is recut to extents
that are accepted and that give each other.  Only one rule says more about the
extents: a stride must not be larger than the input, and a smaller input can break
it.
-/

namespace Padding

/-- Padding that is kept or dropped edge by edge. -/
structure KeptFrom (kept whole : Padding) : Prop where
  top : kept.top = 0 ∨ kept.top = whole.top
  bottom : kept.bottom = 0 ∨ kept.bottom = whole.bottom
  left : kept.left = 0 ∨ kept.left = whole.left
  right : kept.right = 0 ∨ kept.right = whole.right

end Padding

/-- What is other in the job of a part of a layer. -/
structure Recut where
  input : Shape
  weights : Shape
  output : Shape
  padding : Padding
  mode : ExecutionMode
  offset : Offset

/-- The job with what is other in the job of a part. -/
def Job.recut
    (job : Job)
    (cut : Recut) : Job :=
  { job with
    input := { job.input with shape := cut.input }
    weights := { job.weights with shape := cut.weights }
    output := { job.output with shape := cut.output }
    padding := cut.padding
    mode := cut.mode
    offset := cut.offset }

namespace Rules

/-- The finding of a stride that is larger than the input. -/
def overstep
    (axis : Axis)
    (value input : Nat) : List Finding :=
  require (decide (value ≤ max input 1)) (.strideBeyondInput axis value input)

@[simp] theorem overstep_eq_nil
    {axis : Axis}
    {value input : Nat} :
    overstep axis value input = [] ↔ value ≤ max input 1 := by
  simp [overstep]

end Rules

/--
Extents of one image that a table accepts for a job, that give each other, and of
which the padding is that of the job where it is kept.
-/
structure Recut.Suits
    (cut : Recut)
    (table : Capability)
    (job : Job) : Prop where
  mode : cut.mode ∈ table.modes
  inputChannels : (table.inputChannels job.operation).contains cut.input.channels = true
  outputChannels : table.outputChannels.contains cut.output.channels = true
  sameChannels : job.operation.keepsChannels = true → cut.input.channels = cut.output.channels
  inputWidth : 1 ≤ cut.input.width ∧ cut.input.width ≤ table.spatialMax
  inputHeight : 1 ≤ cut.input.height ∧ cut.input.height ≤ table.spatialMax
  outputWidth : 1 ≤ cut.output.width ∧ cut.output.width ≤ table.spatialMax
  outputHeight : 1 ≤ cut.output.height ∧ cut.output.height ≤ table.spatialMax
  oneInput : cut.input.batch = 1
  oneOutput : cut.output.batch = 1
  keeps : cut.padding.KeptFrom job.padding
  givesWidth :
    outputExtent? cut.input.width cut.padding.left cut.padding.right job.kernel.width
      job.stride.width = some cut.output.width
  givesHeight :
    outputExtent? cut.input.height cut.padding.top cut.padding.bottom job.kernel.height
      job.stride.height = some cut.output.height

namespace Rules

variable
  {table : Capability}
  {job : Job}
  {cut : Recut}

theorem deviceOptions_recut
    (suits : cut.Suits table job)
    (legal : deviceOptions table job = []) :
    deviceOptions table (job.recut cut) = [] := by
  have isMode : require (table.modes.contains cut.mode) (.mode cut.mode table.modes) = [] := by
    simpa using suits.mode
  simp only [deviceOptions, List.append_eq_nil_iff, and_assoc] at legal ⊢
  exact ⟨isMode, legal.2⟩

theorem tensors_recut
    (suits : cut.Suits table job)
    (legal : tensors table job = []) :
    tensors table (job.recut cut) = [] := by
  have sameChannels :
      (!job.operation.keepsChannels || cut.input.channels == cut.output.channels) = true := by
    cases keeps : job.operation.keepsChannels with
    | false => rfl
    | true => exact beq_iff_eq.mpr (suits.sameChannels keeps)
  simp only [tensors, List.append_eq_nil_iff, require_eq_nil, extent_eq_nil, beq_iff_eq,
    and_assoc] at legal ⊢
  obtain ⟨inputType, outputType, weightType, inputLayout, outputLayout, _⟩ := legal
  exact ⟨inputType, outputType, weightType, inputLayout, outputLayout, suits.inputChannels,
    suits.outputChannels, sameChannels, suits.inputWidth.1, suits.inputWidth.2,
    suits.inputHeight.1, suits.inputHeight.2, suits.outputWidth.1, suits.outputWidth.2,
    suits.outputHeight.1, suits.outputHeight.2, suits.oneInput.trans suits.oneOutput.symm,
    suits.oneInput⟩

theorem paddingOrHalo_of_kept
    {edge : Edge}
    {whole kept : Nat}
    {halo : Int}
    (legal : paddingOrHalo edge whole halo = [])
    (keeps : kept = 0 ∨ kept = whole) :
    paddingOrHalo edge kept halo = [] := by
  rcases keeps with rfl | rfl
  · rfl
  · exact legal

theorem padding_of_kept
    {edge : Edge}
    {whole kept kernel : Nat}
    (legal : Rules.padding edge whole kernel = [])
    (keeps : kept = 0 ∨ kept = whole) :
    Rules.padding edge kept kernel = [] := by
  rcases keeps with rfl | rfl
  · exact padding_eq_nil.mpr (Nat.zero_le _)
  · exact legal

/-- Padding that is dropped is not in the way of a halo. -/
theorem halo_recut
    (suits : cut.Suits table job)
    (legal : halo table job = []) :
    halo table (job.recut cut) = [] := by
  simp only [halo, List.append_eq_nil_iff, and_assoc] at legal ⊢
  obtain ⟨negative, top, bottom, left, right, outputs⟩ := legal
  exact ⟨negative, paddingOrHalo_of_kept top suits.keeps.top,
    paddingOrHalo_of_kept bottom suits.keeps.bottom, paddingOrHalo_of_kept left suits.keeps.left,
    paddingOrHalo_of_kept right suits.keeps.right, outputs⟩

/-- A stride within its bound is at most larger than the input. -/
theorem stride_eq_overstep
    {limit value input : Nat}
    {axis : Axis}
    (within : 1 ≤ value ∧ value ≤ limit) :
    stride limit axis value input = overstep axis value input := by
  have bounded : require (decide (1 ≤ value ∧ value ≤ limit)) (.stride axis value limit) = [] := by
    simpa using within
  rw [stride, bounded]
  rfl

/-- The kernel breaks no rule in a part, unless a stride is larger than the input of the part. -/
theorem kernel_recut
    (suits : cut.Suits table job)
    (legal : kernel table job = []) :
    kernel table (job.recut cut) =
      overstep .width job.stride.width cut.input.width ++
        overstep .height job.stride.height cut.input.height := by
  have passed {finding : Finding} : require true finding = [] := rfl
  simp only [kernel, List.append_eq_nil_iff, require_eq_nil, decide_eq_true_eq, stride_eq_nil,
    and_assoc] at legal
  obtain ⟨kernelWidthLeast, kernelWidthMost, kernelHeightLeast, kernelHeightMost, widthLeast,
    widthMost, _, heightLeast, heightMost, _, top, bottom, left, right, _⟩ := legal
  simp only [kernel, Job.recut, kernelWidthLeast, kernelWidthMost, kernelHeightLeast,
    kernelHeightMost, and_self, decide_true, passed,
    stride_eq_overstep ⟨widthLeast, widthMost⟩, stride_eq_overstep ⟨heightLeast, heightMost⟩,
    padding_of_kept top suits.keeps.top, padding_of_kept bottom suits.keeps.bottom,
    padding_of_kept left suits.keeps.left, padding_of_kept right suits.keeps.right,
    outputExtent_eq_nil.mpr suits.givesWidth, outputExtent_eq_nil.mpr suits.givesHeight,
    List.nil_append, List.append_nil]

/-- All that can be found about a part of a legal job are strides larger than its input. -/
theorem findings_recut
    (suits : cut.Suits table job)
    (legal : findings table job = []) :
    findings table (job.recut cut) =
      overstep .width job.stride.width cut.input.width ++
        overstep .height job.stride.height cut.input.height := by
  obtain ⟨options, tensors, kernel, sparsity, halo, pointers⟩ := findings_eq_nil.mp legal
  have sameSparsity : Rules.sparsity (job.recut cut) = [] := sparsity
  have samePointers : Rules.pointerTable (job.recut cut) = [] := pointers
  rw [findings, deviceOptions_recut suits options, tensors_recut suits tensors,
    kernel_recut suits kernel, sameSparsity, halo_recut suits halo, samePointers,
    List.nil_append, List.nil_append, List.append_nil, List.append_nil, List.append_nil]

end Rules

end DpuCycles
