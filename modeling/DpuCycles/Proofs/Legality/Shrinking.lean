import DpuCycles.Proofs.Legality.Rulebook
import DpuCycles.Proofs.Legality.Sparsity

namespace DpuCycles

/-!
# Smaller workloads take no more memory

A workload lies within another when the two agree in all but their extents, and
none of its extents is greater.  Each step from extents to bytes keeps the order:
halos are added or taken off and cut at zero, channels are filled up to four or
sixteen, packed kernels are rounded to words, and every tensor takes whole pages.
Whether the output overwrites the input depends on no extent, so both leave its
pages out, or neither does.  The weights are taken to be dense.  Where nothing is lost
of the greater memory, nothing is lost of the smaller one.
-/

/-- No extent is greater than that of another shape. -/
structure Shape.Within
    (shape whole : Shape) : Prop where
  width : shape.width ≤ whole.width
  height : shape.height ≤ whole.height
  channels : shape.channels ≤ whole.channels
  batch : shape.batch ≤ whole.batch

/-- No extent of the plane is greater than that of another. -/
structure Extent.Within
    (extent whole : Extent) : Prop where
  width : extent.width ≤ whole.width
  height : extent.height ≤ whole.height

/-- A tensor that differs from another in nothing but in smaller extents. -/
structure Tensor.Within
    (tensor whole : Tensor) : Prop where
  shape : tensor.shape.Within whole.shape
  dtype : tensor.dtype = whole.dtype
  layout : tensor.layout = whole.layout
  sparse : tensor.sparse = whole.sparse

/-- A pointer table that is in use when another is, and reaches no more. -/
structure PointerTable.Within
    (pointerTable whole : PointerTable) : Prop where
  active : pointerTable.active = whole.active
  pointers : pointerTable.pointers.Within whole.pointers
  activators : pointerTable.activators.Within whole.activators

/-- A workload that agrees with another in what decides its memory, but for smaller extents. -/
structure Workload.Within
    (workload whole : Workload) : Prop where
  operation : workload.operation = whole.operation
  input : workload.input.Within whole.input
  output : workload.output.Within whole.output
  kernel : workload.kernel.Within whole.kernel
  weightType? : workload.weightType? = whole.weightType?
  sparseWeights : workload.sparseWeights = whole.sparseWeights
  halo : workload.halo = whole.halo
  pointerTable : workload.pointerTable.Within whole.pointerTable
  inPlace? : workload.inPlace? = whole.inPlace?
  weightless? : workload.weightless? = whole.weightless?

/-- A job that agrees with another in what decides its memory, but for smaller extents. -/
structure Job.Within
    (job whole : Job) : Prop where
  operation : job.operation = whole.operation
  family : job.family = whole.family
  input : job.input.Within whole.input
  weights : job.weights.Within whole.weights
  output : job.output.Within whole.output
  kernel : job.kernel.Within whole.kernel
  halo : job.halo = whole.halo
  pointerTable : job.pointerTable.Within whole.pointerTable
  inPlace? : job.inPlace? = whole.inPlace?
  weightless? : job.weightless? = whole.weightless?

theorem Shape.Within.refl (shape : Shape) : shape.Within shape :=
  ⟨Nat.le_refl _, Nat.le_refl _, Nat.le_refl _, Nat.le_refl _⟩

theorem Shape.Within.volume_le
    {shape whole : Shape}
    (within : shape.Within whole) :
    shape.volume ≤ whole.volume := by
  have plane := Nat.mul_le_mul within.width within.height
  exact Nat.mul_le_mul (Nat.mul_le_mul plane within.channels) within.batch

theorem Extent.Within.area_le
    {extent whole : Extent}
    (within : extent.Within whole) :
    extent.area ≤ whole.area :=
  Nat.mul_le_mul within.width within.height

/-- The second operand of smaller tensors and a smaller kernel is smaller. -/
theorem Family.weights_within
    {input wholeInput output wholeOutput : Tensor}
    {kernel wholeKernel : Extent}
    (family : Family)
    (dtype : DataType)
    (sparse : Bool)
    (inputWithin : input.Within wholeInput)
    (outputWithin : output.Within wholeOutput)
    (kernelWithin : kernel.Within wholeKernel) :
    (family.weights input output kernel dtype sparse).Within
      (family.weights wholeInput wholeOutput wholeKernel dtype sparse) := by
  have inputs := inputWithin.shape.channels
  have outputs := outputWithin.shape.channels
  cases family with
  | convolution | channelMajor =>
      exact ⟨⟨kernelWithin.width, kernelWithin.height, inputs, outputs⟩, rfl, rfl, rfl⟩
  | depthwise =>
      exact ⟨⟨kernelWithin.width, kernelWithin.height, Nat.le_refl 1, outputs⟩, rfl, rfl, rfl⟩
  | eltwise =>
      exact ⟨inputWithin.shape, rfl, inputWithin.layout, rfl⟩
  | maxPool =>
      exact ⟨.refl _, rfl, rfl, rfl⟩

theorem Workload.Within.weightType_eq
    {workload whole : Workload}
    (within : workload.Within whole) :
    workload.weightType = whole.weightType := by
  rw [weightType, weightType, within.weightType?, within.input.dtype]

theorem Workload.Within.ofWorkload
    {workload whole : Workload}
    (within : workload.Within whole)
    (family : Family) :
    (Job.ofWorkload workload family).Within (Job.ofWorkload whole family) where
  operation := within.operation
  family := rfl
  input := within.input
  weights := by
    simp only [Job.ofWorkload, within.weightType_eq, within.sparseWeights]
    exact family.weights_within _ _ within.input within.output within.kernel
  output := within.output
  kernel := within.kernel
  halo := within.halo
  pointerTable := within.pointerTable
  inPlace? := within.inPlace?
  weightless? := within.weightless?

namespace Footprint

variable {job whole : Job}

theorem adjusted_mono
    {extent greater : Nat}
    (change : Int)
    (within : extent ≤ greater) :
    adjusted extent change ≤ adjusted greater change :=
  Int.toNat_le_toNat (Int.add_le_add_right (Int.ofNat_le.mpr within) change)

theorem volumeWithout_mono
    {shape greater : Shape}
    (halo : Halo)
    (within : shape.Within greater) :
    volumeWithout id shape halo ≤ volumeWithout id greater halo := by
  have plane :=
    Nat.mul_le_mul (adjusted_mono (-(halo.left + halo.right)) within.width)
      (adjusted_mono (-(halo.top + halo.bottom)) within.height)
  have channels := adjusted_mono (-(halo.front + halo.back)) within.channels
  exact Nat.mul_le_mul (Nat.mul_le_mul plane channels) within.batch

theorem volumeWith_mono
    {shape greater : Shape}
    (halo : Halo)
    (within : shape.Within greater) :
    volumeWith id shape halo ≤ volumeWith id greater halo := by
  have plane :=
    Nat.mul_le_mul (adjusted_mono (halo.left + halo.right) within.width)
      (adjusted_mono (halo.top + halo.bottom) within.height)
  have channels := adjusted_mono (halo.front + halo.back) within.channels
  exact Nat.mul_le_mul (Nat.mul_le_mul plane channels) within.batch

theorem tensorBytes_mono
    {tensor wholeTensor : Tensor}
    {volume greater : Nat}
    (within : tensor.Within wholeTensor)
    (volumes : volume ≤ greater) :
    tensorBytes id tensor volume ≤ tensorBytes id wholeTensor greater := by
  simp only [tensorBytes, id_eq, within.dtype, within.sparse]
  refine Nat.add_le_add (Nat.mul_le_mul_right _ volumes) ?map
  split
  · exact ceilDiv_mono 8 volumes
  · exact Nat.le_refl 0

/-- Few channels are filled up to no more than many are. -/
theorem filled_mono
    {channels greater : Nat}
    (within : channels ≤ greater) :
    (if channels < 5 then 4 else 16) ≤ if greater < 5 then 4 else 16 := by
  split <;> split <;> omega

theorem inputBytes_mono (within : job.Within whole) :
    inputBytes id job ≤ inputBytes id whole := by
  have shape := within.input.shape
  simp only [inputBytes, id_eq, within.pointerTable.active, within.operation, within.halo,
    within.input.dtype]
  split
  · -- The tensor itself is not read when a table points to its parts.
    have pointers := within.pointerTable.pointers.volume_le
    have activators := within.pointerTable.activators.volume_le
    exact Nat.add_le_add (Nat.mul_le_mul_right 4 pointers) (Nat.mul_le_mul_right _ activators)
  · split
    · have plane := Nat.mul_le_mul shape.width shape.height
      have filled := filled_mono shape.channels
      exact tensorBytes_mono within.input
        (Nat.mul_le_mul (Nat.mul_le_mul plane filled) shape.batch)
    · exact tensorBytes_mono within.input (volumeWithout_mono whole.halo.input shape)

theorem outputBytes_mono (within : job.Within whole) :
    outputBytes id job ≤ outputBytes id whole := by
  rw [outputBytes, outputBytes, within.halo]
  exact tensorBytes_mono within.output (volumeWith_mono whole.halo.inbound within.output.shape)

theorem kernelBits_mono (within : job.Within whole) :
    kernelBits job ≤ kernelBits whole := by
  have area := within.kernel.area_le
  have elements := Nat.mul_le_mul area within.input.shape.channels
  simp only [kernelBits, kernelElements, within.family, within.weights.dtype]
  cases whole.family with
  | convolution | channelMajor => exact Nat.mul_le_mul_right _ elements
  | depthwise => exact Nat.mul_le_mul_right _ area
  | eltwise | maxPool => exact Nat.le_refl _

theorem kernelBytes_mono (within : job.Within whole) :
    kernelBytes id job ≤ kernelBytes id whole :=
  roundUp_mono 32 (ceilDiv_mono 8 (kernelBits_mono within))

theorem kernelsBytes_mono
    (within : job.Within whole)
    (dense : whole.weights.sparse = false) :
    kernelsBytes id job ≤ kernelsBytes id whole := by
  have channels := within.output.shape.channels
  have stored := Nat.mul_le_mul (kernelBytes_mono within) channels
  simp only [kernelsBytes, id_eq, within.weights.sparse, dense, within.family, Bool.false_eq_true,
    ↓reduceIte]
  refine Nat.add_le_add stored ?table
  split
  · exact Nat.mul_le_mul_left 16 channels
  · exact Nat.le_refl 0

theorem weightsBytes_mono
    (within : job.Within whole)
    (dense : whole.weights.sparse = false) :
    weightsBytes id job ≤ weightsBytes id whole := by
  have kernels := kernelsBytes_mono within dense
  simp only [weightsBytes, id_eq, within.family, within.weightless?, within.weights.dtype]
  cases whole.family with
  | maxPool => exact Nat.le_refl 0
  | eltwise =>
      dsimp only
      split
      · exact Nat.le_refl 0
      · exact Nat.mul_le_mul_right _ within.weights.shape.volume_le
  | convolution | channelMajor | depthwise => exact kernels

/-- Extents do not decide whether the output overwrites the input. -/
theorem overwritesInput_eq (within : job.Within whole) :
    overwritesInput job = overwritesInput whole := by
  simp only [overwritesInput, within.family, within.inPlace?, within.input.layout,
    within.output.layout, within.input.dtype, within.output.dtype]

/-- No part takes more memory than in another footprint, and the outputs are placed alike. -/
structure Within (footprint greater : Footprint) : Prop where
  total : footprint.total ≤ greater.total
  input : footprint.input ≤ greater.input
  weights : footprint.weights ≤ greater.weights
  output : footprint.output ≤ greater.output
  inPlace : footprint.inPlace = greater.inPlace

theorem inFull_within
    (table : Capability)
    (ignoreOverhead : Bool)
    (within : job.Within whole)
    (dense : whole.weights.sparse = false) :
    (inFull table ignoreOverhead job).Within (inFull table ignoreOverhead whole) := by
  have input := wholePages_mono table.page (inputBytes_mono within)
  have weights := wholePages_mono table.page (weightsBytes_mono within dense)
  have output := wholePages_mono table.page (outputBytes_mono within)
  have inPlace := overwritesInput_eq within
  refine
    { total := ?total
      input := input
      weights := weights
      output := output
      inPlace := inPlace }
  simp only [inFull, sized, id_eq, inPlace]
  refine Nat.add_le_add (Nat.add_le_add (Nat.add_le_add_left input _) weights) ?output
  split
  · exact Nat.le_refl 0
  · exact output

/-- Where nothing is lost of a memory, nothing is lost of a smaller one. -/
theorem InWords.of_within
    {table : Capability}
    {ignoreOverhead : Bool}
    (inWords : InWords table ignoreOverhead whole)
    (within : job.Within whole)
    (dense : whole.weights.sparse = false) :
    InWords table ignoreOverhead job := by
  have footprints := inFull_within table ignoreOverhead within dense
  have kernels := Nat.mul_le_mul (kernelBytes_mono within) within.output.shape.channels
  exact
    { total := Nat.lt_of_le_of_lt footprints.total inWords.total
      output := Nat.lt_of_le_of_lt footprints.output inWords.output
      kernelBits := Nat.lt_of_le_of_lt (kernelBits_mono within) inWords.kernelBits
      kernels := Nat.lt_of_le_of_lt kernels inWords.kernels
      map := fun sparse => absurd (within.weights.sparse.symm.trans sparse) (by simp [dense]) }

/-- Every tensor takes whole pages. -/
structure InPages
    (footprint : Footprint)
    (page : Nat) : Prop where
  input : page ∣ footprint.input
  weights : page ∣ footprint.weights
  output : page ∣ footprint.output

theorem dvd_wholePages
    {page : Nat}
    (size : Nat)
    (positive : 1 ≤ page) :
    page ∣ wholePages id size page := by
  unfold wholePages
  split
  · rename_i atMostOne
    obtain rfl : page = 1 := Nat.le_antisymm atMostOne positive
    exact Nat.one_dvd size
  · exact Nat.dvd_mul_left page (ceilDiv size page)

theorem inPages_inFull
    {table : Capability}
    (ignoreOverhead : Bool)
    (job : Job)
    (positive : 1 ≤ table.page) :
    (inFull table ignoreOverhead job).InPages table.page where
  input := dvd_wholePages (inputBytes id job) positive
  weights := dvd_wholePages (weightsBytes id job) positive
  output := dvd_wholePages (outputBytes id job) positive

end Footprint

namespace Workload

variable {workload whole : Workload}

/--
A workload with dense weights takes no more memory than one it lies within, of the
input, of the weights, of the output and all together, and its output overwrites the
input when that of the other does.  Both take whole pages of each tensor.  What fits
the local memory therefore fits when it shrinks.  Nothing is to be lost where the memory
of the greater one is counted.
-/
theorem Within.footprint_within
    (within : workload.Within whole)
    (dense : whole.sparseWeights = false)
    (table : Capability)
    (pagePositive : 1 ≤ table.page)
    (ignoreOverhead : Bool)
    (family : Family)
    (inWords : Footprint.InWords table ignoreOverhead (.ofWorkload whole family)) :
    let footprint := Footprint.ofJob table ignoreOverhead (.ofWorkload workload family)
    let greater := Footprint.ofJob table ignoreOverhead (.ofWorkload whole family)
    footprint.Within greater ∧
      footprint.InPages table.page ∧ greater.InPages table.page ∧
      (greater.total ≤ table.cmxBytes → footprint.total ≤ table.cmxBytes) := by
  have denseWeights : (Job.ofWorkload whole family).weights.sparse = false :=
    (Family.weights_sparse ..).trans dense
  have jobs := within.ofWorkload family
  have footprints := Footprint.inFull_within table ignoreOverhead jobs denseWeights
  rw [inWords.ofJob_eq_inFull, (inWords.of_within jobs denseWeights).ofJob_eq_inFull]
  exact
    ⟨footprints, Footprint.inPages_inFull ignoreOverhead _ pagePositive,
      Footprint.inPages_inFull ignoreOverhead _ pagePositive,
      Nat.le_trans footprints.total⟩

/-- A convolution with packed weights, whose input and output have halos. -/
def frame : Workload :=
  let input := Tensor.dense ⟨64, 64, 64, 1⟩ .uint8
  let output := Tensor.dense ⟨31, 31, 128, 1⟩ .float16
  let strided :=
    (Workload.plain .vpu40 .convolution input output .cuboid16x16).withKernel
      ⟨3, 3⟩ ⟨2, 2⟩ ⟨0, 0, 0, 0⟩
  { strided with
    weightType? := some .uint4
    halo := ⟨⟨-2, -2, 0, 0, 0, 0⟩, .none, .none, ⟨1, 1, 0, 0, 0, 0⟩⟩ }

/-- Half of its rows and channels, with a smaller kernel. -/
def partOfFrame : Workload :=
  { frame with
    input := Tensor.dense ⟨64, 32, 32, 1⟩ .uint8
    output := Tensor.dense ⟨31, 15, 64, 1⟩ .float16
    kernel := ⟨2, 2⟩ }

theorem partOfFrame_within : partOfFrame.Within frame where
  operation := rfl
  input := ⟨⟨by decide, by decide, by decide, by decide⟩, rfl, rfl, rfl⟩
  output := ⟨⟨by decide, by decide, by decide, by decide⟩, rfl, rfl, rfl⟩
  kernel := ⟨by decide, by decide⟩
  weightType? := rfl
  sparseWeights := rfl
  halo := rfl
  pointerTable := ⟨rfl, .refl _, .refl _⟩
  inPlace? := rfl
  weightless? := rfl

/-- The frame fits the memory of its generation, and its part does with it. -/
theorem footprint_within_of_frame :
    let footprint := Footprint.ofJob .vpu40 false (.ofWorkload partOfFrame .convolution)
    let greater := Footprint.ofJob .vpu40 false (.ofWorkload frame .convolution)
    Footprint.InWords .vpu40 false (.ofWorkload frame .convolution) ∧
      footprint.Within greater ∧
      footprint.InPages 16384 ∧ greater.InPages 16384 ∧
      greater.total ≤ Capability.vpu40.cmxBytes ∧
      footprint.total ≤ Capability.vpu40.cmxBytes := by
  have inWords : Footprint.InWords .vpu40 false (.ofWorkload frame .convolution) := by
    decide +kernel
  obtain ⟨footprints, pages, greaterPages, keepsFitting⟩ :=
    partOfFrame_within.footprint_within rfl .vpu40 (by decide) false .convolution inWords
  have fits :
      (Footprint.ofJob .vpu40 false (.ofWorkload frame .convolution)).total ≤
        Capability.vpu40.cmxBytes := by
    decide +kernel
  exact ⟨inWords, footprints, pages, greaterPages, fits, keepsFitting fits⟩

end Workload

end DpuCycles
