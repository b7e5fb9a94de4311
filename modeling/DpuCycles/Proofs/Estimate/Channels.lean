import DpuCycles.Proofs.Estimate.SkippedWork
import DpuCycles.Proofs.Number.Rounding

namespace DpuCycles

/-!
# More channels take no less time

Work and reads of a sum over channels both grow with its channels.  What is skipped
grows as well, but in proportion: for each input channel and each output channel the
same points of the plane are left, and there may be none.

A few input channels make the canonical operation channel-major.  The closed form
knows no difference between the two, so that the channels may pass sixteen.
-/

/-- A tensor that differs in nothing but in having no fewer channels. -/
structure Tensor.WidenedBy
    (tensor wide : Tensor) : Prop where
  channels : tensor.shape.channels ≤ wide.shape.channels
  same : wide = tensor.withChannels wide.shape.channels

namespace Tensor

variable {tensor wide : Tensor}

theorem WidenedBy.refl (tensor : Tensor) : tensor.WidenedBy tensor :=
  ⟨Nat.le_refl _, rfl⟩

theorem WidenedBy.width (widened : tensor.WidenedBy wide) :
    wide.shape.width = tensor.shape.width := by
  rw [widened.same]
  rfl

theorem WidenedBy.height (widened : tensor.WidenedBy wide) :
    wide.shape.height = tensor.shape.height := by
  rw [widened.same]
  rfl

theorem WidenedBy.dtype (widened : tensor.WidenedBy wide) :
    wide.dtype = tensor.dtype := by
  rw [widened.same]
  rfl

end Tensor

/-- A job with the plane, the kernel and the types of another, and no fewer channels. -/
structure Job.WidenedBy
    (job wide : Job) : Prop where
  device : wide.device = job.device
  mode : wide.mode = job.mode
  kernel : wide.kernel = job.kernel
  stride : wide.stride = job.stride
  padding : wide.padding = job.padding
  asFloat : wide.multipliesAsFloat = job.multipliesAsFloat
  input : job.input.WidenedBy wide.input
  output : job.output.WidenedBy wide.output

namespace Job.WidenedBy

variable
  {job wide : Job}
  {hardware : Hardware}

theorem edgeZeros_eq (widened : job.WidenedBy wide) :
    wide.edgeZeros = job.edgeZeros := by
  simp only [edgeZeros, coveredPadding, positiveStride, widened.kernel, widened.stride,
    widened.padding, widened.input.width, widened.input.height]

theorem cornerZeros_eq (widened : job.WidenedBy wide) :
    wide.cornerZeros = job.cornerZeros := by
  simp only [cornerZeros, coveredPadding, positiveStride, widened.stride, widened.padding,
    widened.input.width, widened.input.height]

/-- The same points are left for more pairs of channels. -/
theorem closedFormWork_le
    (widened : job.WidenedBy wide)
    (isSum : job.IsSum)
    (wideIsSum : wide.IsSum) :
    job.closedFormWork hardware ≤ wide.closedFormWork hardware := by
  have input := widened.input.channels
  have output := widened.output.channels
  rw [isSum.closedFormWork_eq_mul, wideIsSum.closedFormWork_eq_mul, widened.edgeZeros_eq,
    widened.cornerZeros_eq, widened.kernel, widened.output.width, widened.output.height]
  gcongr

theorem computeCycles_le
    (widened : job.WidenedBy wide)
    (isSum : job.IsSum)
    (wideIsSum : wide.IsSum) :
    job.computeCycles hardware ≤ wide.computeCycles hardware := by
  have cycles :
      ceilDiv (job.closedFormWork hardware) hardware.macs ≤
        ceilDiv (wide.closedFormWork hardware) hardware.macs :=
    ceilDiv_mono hardware.macs (widened.closedFormWork_le isSum wideIsSum)
  rw [computeCycles, computeCycles, closedFormMacs_eq hardware isSum.sums,
    closedFormMacs_eq hardware wideIsSum.sums, widened.asFloat]
  split
  · exact Nat.mul_le_mul_right _ cycles
  · exact cycles

/-- No operand is read less often. -/
theorem elementsRead_atMost (widened : job.WidenedBy wide) :
    job.elementsRead.AtMost wide.elementsRead := by
  have inputChannels := Rounded.ofNat_atMost widened.input.channels
  have outputChannels := Rounded.ofNat_atMost widened.output.channels
  have channelBlocks :=
    Rounded.ofNat_atMost (ceilDiv_mono job.mode.cuboid.channels widened.output.channels)
  have same := Rounded.ofNat_atMost_self
  simp only [elementsRead, widened.mode, widened.kernel, widened.output.width,
    widened.output.height]
  refine Rounded.AtMost.add ?activations ?weights
  case activations =>
    exact (((channelBlocks.mul (same _)).mul (same _)).mul inputChannels).mul (same _)
  case weights =>
    exact ((((same _).mul (same _)).mul outputChannels).mul inputChannels).mul (same _)

theorem readCycles_le
    (widened : job.WidenedBy wide)
    (words : 0 < hardware.cmxWordBytes)
    (ports : 0 < hardware.cmxReadPorts)
    (clock : 0 < hardware.dpuClock) :
    job.readCycles hardware ≤ wide.readCycles hardware := by
  have bytes := widened.elementsRead_atMost.mul (Rounded.ofNat_atMost_self job.input.dtype.bytes)
  have reads :=
    bytes.div ((Rounded.isPositive_ofNat words).mul (Rounded.isPositive_ofNat ports))
  have cycles :=
    (reads.mul (Rounded.ofNat_atMost_self hardware.cmxClock)).div (Rounded.isPositive_ofNat clock)
  rw [readCycles, readCycles, widened.device]
  split
  · rw [widened.input.dtype]
    exact cycles.ceil.toNat_le
  · exact Nat.le_refl 0

theorem closedForm_le
    (widened : job.WidenedBy wide)
    (isSum : job.IsSum)
    (wideIsSum : wide.IsSum) :
    CostModel.closedForm job ≤ CostModel.closedForm wide := by
  rw [CostModel.closedForm, CostModel.closedForm, widened.device, closedFormCycles,
    closedFormCycles]
  refine min_le_min_right _ (max_le_max ?_ ?_)
  · exact widened.computeCycles_le isSum wideIsSum
  · refine widened.readCycles_le ?_ ?_ ?_
    · cases job.device <;> decide
    · cases job.device <;> decide
    · cases job.device <;> decide

end Job.WidenedBy

/-- A workload that differs in nothing but in having no fewer channels, on either side. -/
structure Workload.WidenedBy
    (workload wide : Workload) : Prop where
  input : workload.input.WidenedBy wide.input
  output : workload.output.WidenedBy wide.output
  same : wide = { workload with input := wide.input, output := wide.output }

namespace Workload

variable {workload wide : Workload}

/-- A sum over channels keeps its input channels in canonical form. -/
theorem canonicalChannels_eq
    (sums : workload.operation.isConvolution = true) :
    workload.canonicalChannels = workload.input.shape.channels := by
  rw [← isConvolution_canonicalOperation] at sums
  have changes : workload.canonicalOperation.keepsChannels = false := by
    cases isOperation : workload.canonicalOperation <;>
      simp_all [Operation.isConvolution, Operation.keepsChannels]
  rw [canonicalChannels, changes]
  rfl

theorem multipliesAsFloat_canonicalJob (workload : Workload) :
    workload.canonicalJob.multipliesAsFloat =
      DataType.multipliesAsFloat
        (workload.device.capability.foldType workload.input.dtype)
        (workload.device.capability.foldType workload.weightType) := by
  rw [Job.multipliesAsFloat, canonicalJob, Job.ofWorkload, Family.weights_dtype,
    weightType_canonicalize_fold, canonicalize_eq]
  rfl

theorem WidenedBy.canonicalJob
    (widened : workload.WidenedBy wide)
    (sums : workload.operation.isConvolution = true) :
    workload.canonicalJob.WidenedBy wide.canonicalJob := by
  obtain ⟨⟨moreInput, isInput⟩, ⟨moreOutput, isOutput⟩, isWide⟩ := widened
  generalize wide.input.shape.channels = inputChannels at moreInput isInput
  generalize wide.output.shape.channels = outputChannels at moreOutput isOutput
  rw [isInput, isOutput] at isWide
  subst isWide
  have asFloat :=
    (multipliesAsFloat_canonicalJob
      { workload with
        input := workload.input.withChannels inputChannels
        output := workload.output.withChannels outputChannels }).trans
      (multipliesAsFloat_canonicalJob workload).symm
  rw [canonicalJob_eq, canonicalJob_eq, canonicalChannels_eq sums,
    canonicalChannels_eq (by exact sums)] at asFloat ⊢
  exact
    { device := rfl
      mode := rfl
      kernel := rfl
      stride := rfl
      padding := rfl
      asFloat := asFloat
      input := ⟨moreInput, rfl⟩
      output := ⟨moreOutput, rfl⟩ }

end Workload

namespace CostModel

variable
  {model : CostModel}
  {workload wide : Workload}
  {job wideJob : Job}

/--
Of two admitted sums over channels that differ in nothing but their channels, the one
with no fewer input channels and no fewer output channels costs no less in closed form.
-/
theorem closedFormCost_mono
    (sums : workload.operation.isConvolution = true)
    (widened : workload.WidenedBy wide)
    (accepted : model.gate.accept workload = .ok job)
    (wideAccepted : model.gate.accept wide = .ok wideJob) :
    model.closedFormCost workload ≤ model.closedFormCost wide := by
  have wideSums : wide.operation.isConvolution = true := by
    rw [widened.same]
    exact sums
  have isConvolution (workload : Workload) :
      workload.canonicalJob.operation.isConvolution = workload.operation.isConvolution := by
    rw [workload.operation_canonicalJob, workload.isConvolution_canonicalOperation]
  rw [closedFormCost, accepted, closedFormCost, wideAccepted]
  obtain ⟨rfl, _⟩ := Gate.conforms_of_accept rfl accepted
  obtain ⟨rfl, _⟩ := Gate.conforms_of_accept rfl wideAccepted
  have isSum := Gate.isSum_of_accept rfl accepted ((isConvolution workload).trans sums)
  have wideIsSum := Gate.isSum_of_accept rfl wideAccepted ((isConvolution wide).trans wideSums)
  exact (widened.canonicalJob sums).closedForm_le isSum wideIsSum

/-- A convolution that keeps the plane. -/
def ofChannels
    (input output : Nat) : Workload :=
  (Workload.plain .vpu27 .convolution (.dense ⟨16, 16, input, 1⟩ .uint8)
    (.dense ⟨16, 16, output, 1⟩ .uint8) .cuboid16x16).withKernel ⟨3, 3⟩ ⟨1, 1⟩ ⟨1, 1, 1, 1⟩

/-- Three input channels cost no more than sixteen, of which the operation is another one. -/
theorem closedFormCost_of_threeChannels :
    (ofChannels 3 64).operation.isConvolution = true ∧
      (ofChannels 3 64).WidenedBy (ofChannels 16 64) ∧
      initial.gate.accept (ofChannels 3 64) =
        .ok (.ofWorkload { ofChannels 3 64 with operation := .channelMajor } .channelMajor) ∧
      initial.gate.accept (ofChannels 16 64) =
        .ok (.ofWorkload (ofChannels 16 64) .convolution) ∧
      initial.closedFormCost (ofChannels 3 64) ≤ initial.closedFormCost (ofChannels 16 64) := by
  have widened : (ofChannels 3 64).WidenedBy (ofChannels 16 64) :=
    ⟨⟨by decide, rfl⟩, .refl _, rfl⟩
  have accepted :
      initial.gate.accept (ofChannels 3 64) =
        .ok (.ofWorkload { ofChannels 3 64 with operation := .channelMajor } .channelMajor) :=
    Gate.accept_eq_ok_iff.mpr
      ⟨.vpu27, .channelMajor,
        { isTable := rfl
          isFamily := rfl
          isJob := rfl
          fits := by decide +kernel
          legal := by decide +kernel }⟩
  have wideAccepted :
      initial.gate.accept (ofChannels 16 64) =
        .ok (.ofWorkload (ofChannels 16 64) .convolution) :=
    Gate.accept_eq_ok_iff.mpr
      ⟨.vpu27, .convolution,
        { isTable := rfl
          isFamily := rfl
          isJob := rfl
          fits := by decide +kernel
          legal := by decide +kernel }⟩
  exact ⟨rfl, widened, accepted, wideAccepted,
    closedFormCost_mono rfl widened accepted wideAccepted⟩

end CostModel

end DpuCycles
