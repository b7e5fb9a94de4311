import DpuCycles.Estimate.Ideal
import DpuCycles.Proofs.Legality.ExactMemory
import DpuCycles.Proofs.Legality.Rulebook
import DpuCycles.Proofs.Number.Rounding

namespace DpuCycles

/-!
# Skipped zeros add no work

The multiplications of an admitted job are so few that 53 bits count them exactly.
For a convolution the local memory sees to that: it holds the weights, or a bit for
each weight where the zeros are left out, and each weight is multiplied once for each
point of the output plane.  For the other operations the bounds of the extents do.

What is left of an exact count when zeros are skipped is a product, rounded once and
then up to a whole number.  Neither leads above the count, as a fraction is at most one
and rounding keeps the order.  This holds whatever the fractions of zeros are.
-/

namespace Rounded

/-- A quantity of at most one, or one that has no value. -/
def AtMostOne (quantity : Rounded) : Prop :=
  quantity = .undefined ∨ quantity.AtMost one

variable {left right : Rounded} {count : Nat}

theorem one_rounds : one.Rounds 1 := by
  have rounds := ofNat_rounds 1
  rwa [Nat.cast_one] at rounds

theorem atMostOne_zero : zero.AtMostOne :=
  .inr (ofNat_atMost (Nat.zero_le 1))

theorem atMostOne_one : one.AtMostOne :=
  .inr (ofNat_atMost_self 1)

theorem atMostOne_complement (quantity : Rounded) : quantity.complement.AtMostOne := by
  cases quantity with
  | undefined => exact .inl rfl
  | infinite => exact atMostOne_zero
  | finite significand exponent =>
      rw [complement]
      split
      · rename_i negative
        dsimp only
        split
        · exact atMostOne_zero
        · have missing :
              ((2 ^ exponent.natAbs - significand : Nat) : ℚ) * 2 ^ exponent ≤ 1 := by
            rw [power_of_neg negative, ← div_eq_mul_inv, div_le_one (by positivity)]
            exact_mod_cast Nat.sub_le _ _
          exact .inr ((normalize_rounds _ _).atMost one_rounds missing)
      · split
        · exact atMostOne_one
        · exact atMostOne_zero

theorem AtMostOne.least
    (leftAtMost : left.AtMostOne)
    (rightAtMost : right.AtMostOne) :
    (left.least right).AtMostOne := by
  unfold Rounded.least
  split
  · exact rightAtMost
  · exact leftAtMost
  · split
    · exact rightAtMost
    · exact leftAtMost

/-- A count of 53 bits is its own significand. -/
theorem ofNat_eq_finite (fits : count < 2 ^ precision) : ofNat count = .finite count 0 :=
  if_pos fits

theorem ofNat_mul_one (fits : count < 2 ^ precision) : ofNat count * one = ofNat count := by
  rw [ofNat_eq_finite fits]
  change normalize (count * 1) (0 + 0) = .finite count 0
  rw [Nat.mul_one]
  exact if_pos fits

theorem toNat_ceil_ofNat (fits : count < 2 ^ precision) : (ofNat count).ceil.toNat = count := by
  have counted : count ≤ greatestCount := by
    unfold precision at fits
    unfold greatestCount
    omega
  rw [ofNat_eq_finite fits]
  exact Nat.min_eq_left counted

/-- A fraction of an exact count is not rounded above the count. -/
theorem AtMostOne.toNat_ceil_mul_le
    (atMostOne : right.AtMostOne)
    (fits : count < 2 ^ precision) :
    (ofNat count * right).ceil.toNat ≤ count := by
  rcases atMostOne with rfl | atMost
  · rw [ofNat_eq_finite fits]
    exact Nat.zero_le count
  · calc (ofNat count * right).ceil.toNat
        ≤ (ofNat count * one).ceil.toNat := ((ofNat_atMost_self count).mul atMost).ceil.toNat_le
      _ = count := by rw [ofNat_mul_one fits, toNat_ceil_ofNat fits]

end Rounded

theorem atMostOne_density
    (sparse : Bool)
    (sparsity : Float32) :
    (density sparse sparsity).AtMostOne := by
  cases sparse with
  | false => exact Rounded.atMostOne_one
  | true => exact Rounded.atMostOne_complement _

/-- Exact counts, of which those that skip zeros are no greater than the others. -/
structure IdealCycles.Ordered (cycles : IdealCycles) : Prop where
  exact : cycles.denseMacs < 2 ^ 53
  macs : cycles.sparseMacs ≤ cycles.denseMacs
  cycles : cycles.powerCycles ≤ cycles.efficiencyCycles

/-- Counts with no zeros to skip. -/
structure IdealCycles.Dense (cycles : IdealCycles) : Prop where
  macs : cycles.sparseMacs = cycles.denseMacs
  cycles : cycles.powerCycles = cycles.efficiencyCycles

namespace Job

variable {job : Job}

theorem atMostOne_remaining (job : Job) : job.remaining.AtMostOne :=
  (atMostOne_density _ _).least (atMostOne_density _ _)

theorem remaining_of_dense
    (denseInput : job.input.sparse = false)
    (denseWeights : job.weights.sparse = false) :
    job.remaining = .one := by
  rw [remaining, denseInput, denseWeights]
  rfl

theorem ordered_idealCycles
    (hardware : Hardware)
    (exact : job.idealMacs < 2 ^ 53) :
    (job.idealCycles hardware).Ordered := by
  have macs := job.atMostOne_remaining.toNat_ceil_mul_le exact
  exact ⟨exact, macs, ceilDiv_mono _ macs⟩

theorem dense_idealCycles
    (hardware : Hardware)
    (exact : job.idealMacs < 2 ^ 53)
    (denseInput : job.input.sparse = false)
    (denseWeights : job.weights.sparse = false) :
    (job.idealCycles hardware).Dense := by
  have macs : (Rounded.ofNat job.idealMacs * job.remaining).ceil.toNat = job.idealMacs := by
    rw [remaining_of_dense denseInput denseWeights, Rounded.ofNat_mul_one exact,
      Rounded.toNat_ceil_ofNat exact]
  exact ⟨macs, congrArg (ceilDiv · _) macs⟩

/-- The multipliers of every generation can be joined. -/
theorem idealCycles?_ofDevice (job : Job) :
    job.idealCycles? (.ofDevice job.device) = some (job.idealCycles (.ofDevice job.device)) := by
  have joined : ((Hardware.ofDevice job.device).floatCostRatio == 0) = false := by
    cases job.device <;> rfl
  simp [idealCycles?, joined]

end Job

/-- A tensor of one image within the standard bounds. -/
structure Tensor.Bounded (tensor : Tensor) : Prop where
  plane : tensor.shape.width * tensor.shape.height ≤ 8192 * 8192
  channels : tensor.shape.channels ≤ 8192
  oneImage : tensor.shape.batch = 1

theorem Tensor.Bounded.volume_le
    {tensor : Tensor}
    (bounded : tensor.Bounded) :
    tensor.shape.volume ≤ 8192 * 8192 * 8192 := by
  rw [Shape.volume, bounded.oneImage, Nat.mul_one]
  exact Nat.mul_le_mul bounded.plane bounded.channels

theorem Tensor.Bounded.volume_eq
    {tensor : Tensor}
    (bounded : tensor.Bounded) :
    tensor.volume = tensor.shape.volume :=
  volume_of_lt (Nat.lt_of_le_of_lt bounded.volume_le (by decide))

/-- Bounds of a legal job that its multiplications are counted by. -/
structure Job.Bounded (job : Job) : Prop where
  kernel : job.kernel.area ≤ 11 * 11
  input : job.input.Bounded
  output : job.output.Bounded
  fewChannels : job.family = .channelMajor → job.input.shape.channels ≤ 16
  manyChannels : job.family = .convolution → 16 ≤ job.input.shape.channels
  weightBits : 8 ≤ job.weights.dtype.bits

namespace Footprint

variable {job : Job}

theorem weightsBytes_le_total
    (table : Capability)
    (ignoreOverhead : Bool)
    (job : Job) :
    weightsBytes id job ≤ (inFull table ignoreOverhead job).total := by
  have pages := le_wholePages (weightsBytes id job) table.page
  simp only [inFull, sized, id_eq]
  omega

/-- Values of a byte or more are not packed into fewer bytes. -/
theorem kernelElements_le_kernelBytes
    (wide : 8 ≤ job.weights.dtype.bits) :
    kernelElements job ≤ kernelBytes id job := by
  have packed : kernelBits job ≤ ceilDiv (kernelBits job) 8 * 8 :=
    le_roundUp (kernelBits job) (by decide)
  have words : ceilDiv (kernelBits job) 8 ≤ kernelBytes id job :=
    le_roundUp _ (by decide)
  have eight : kernelElements job * 8 ≤ kernelBits job :=
    Nat.mul_le_mul_left (kernelElements job) wide
  omega

/-- The weights of a convolution are in memory, or a bit of the map for each. -/
theorem elements_le_weightsBytes
    (isConvolution : job.family = .convolution)
    (wide : 8 ≤ job.weights.dtype.bits) :
    job.kernel.area * job.input.shape.channels * job.output.shape.channels ≤
      8 * weightsBytes id job := by
  have mapEq : mapElements job = job.kernel.area * job.input.shape.channels := by
    rw [mapElements, Nat.mul_assoc, Nat.mul_comm]
    rfl
  have elementsEq : kernelElements job = job.kernel.area * job.input.shape.channels := by
    rw [kernelElements, isConvolution]
  have storedElements := kernelElements_le_kernelBytes wide
  rw [elementsEq] at storedElements
  simp only [weightsBytes, isConvolution, kernelsBytes, mapEq, id_eq]
  generalize job.kernel.area * job.input.shape.channels = elements at storedElements ⊢
  split
  · -- Of the kernels nothing is known when their zeros are left out.
    have mapped : elements ≤ ceilDiv elements 8 * 8 := le_roundUp elements (by decide)
    have words : ceilDiv elements 8 ≤ roundUp (ceilDiv elements 8) 16 :=
      le_roundUp _ (by decide)
    have perChannel : elements ≤ 8 * roundUp (ceilDiv elements 8) 16 := by
      omega
    have maps := Nat.mul_le_mul_right job.output.shape.channels perChannel
    rw [Nat.mul_assoc, Nat.mul_comm (roundUp _ _)] at maps
    omega
  · have kernels := Nat.mul_le_mul_right job.output.shape.channels storedElements
    omega

end Footprint

namespace Job

variable {job : Job}

theorem Bounded.idealChannels_le
    (bounded : job.Bounded)
    (isChannelMajor : job.family = .channelMajor) :
    job.idealChannels ≤ 16 := by
  have few := bounded.fewChannels isChannelMajor
  unfold idealChannels
  dsimp only
  split <;> omega

theorem Bounded.idealChannels_eq
    (bounded : job.Bounded)
    (isConvolution : job.family = .convolution) :
    job.idealChannels = job.input.shape.channels := by
  have many := bounded.manyChannels isConvolution
  unfold idealChannels
  dsimp only
  split <;> omega

/-- The multiplications of a bounded job are few when its weights fit the local memory. -/
theorem Bounded.idealMacs_lt
    (bounded : job.Bounded)
    (fits : Footprint.weightsBytes id job ≤ 2 ^ 21) :
    job.idealMacs < 2 ^ 53 := by
  have windows := Nat.mul_le_mul bounded.kernel bounded.output.volume_le
  rw [← bounded.output.volume_eq] at windows
  cases isFamily : job.family with
  | convolution =>
      have elements := Footprint.elements_le_weightsBytes isFamily bounded.weightBits
      have inMemory :
          job.kernel.area * job.input.shape.channels * job.output.shape.channels ≤ 8 * 2 ^ 21 :=
        Nat.le_trans elements (Nat.mul_le_mul_left 8 fits)
      calc job.idealMacs
          = job.kernel.area * job.output.volume * job.input.shape.channels := by
            simp only [idealMacs, isFamily, bounded.idealChannels_eq isFamily]
        _ = job.output.shape.width * job.output.shape.height *
              (job.kernel.area * job.input.shape.channels * job.output.shape.channels) := by
            rw [bounded.output.volume_eq, Shape.volume, bounded.output.oneImage]
            ring
        _ ≤ 8192 * 8192 * (8 * 2 ^ 21) := Nat.mul_le_mul bounded.output.plane inMemory
        _ < 2 ^ 53 := by norm_num
  | channelMajor =>
      have filled := Nat.mul_le_mul windows (bounded.idealChannels_le isFamily)
      simp only [idealMacs, isFamily]
      omega
  | eltwise =>
      have input := bounded.input.volume_le
      rw [← bounded.input.volume_eq] at input
      simp only [idealMacs, isFamily]
      omega
  | depthwise | maxPool =>
      simp only [idealMacs, isFamily]
      omega

end Job

namespace Operation

variable
  {operation : Operation}
  {channels : Nat}

theorem kernelMax_le (operation : Operation) : operation.kernelMax ≤ 11 := by
  unfold kernelMax
  split <;> decide

theorem Reads.le (reads : operation.Reads channels) : channels ≤ 8192 := by
  cases operation <;> simp only [Reads, FillsBlocks] at reads <;> omega

theorem Reads.few
    (reads : operation.Reads channels)
    (isFamily : (Family.ofOperation? operation).getD .convolution = .channelMajor) :
    channels ≤ 16 := by
  cases operation with
  | channelMajor => exact Nat.le_succ_of_le reads.2
  | _ => cases isFamily

theorem Reads.many
    (reads : operation.Reads channels)
    (isFamily : (Family.ofOperation? operation).getD .convolution = .convolution) :
    16 ≤ channels := by
  cases operation with
  | convolution | layerNorm => exact reads.1
  | _ => cases isFamily

end Operation

namespace Workload

variable {workload : Workload}

theorem weightBits_canonicalJob (workload : Workload) :
    8 ≤ workload.canonicalJob.weights.dtype.bits := by
  rw [canonicalJob, Job.ofWorkload, Family.weights_dtype, weightType_canonicalize_fold]
  rcases workload.device.capability.foldType_eq workload.weightType with folded | folded
  · rw [folded]
    decide
  · rw [folded]
    decide

theorem Conforms.bounded_canonicalJob (conforms : workload.Conforms) :
    workload.canonicalJob.Bounded := by
  have kernelMax := workload.canonicalOperation.kernelMax_le
  have columns := conforms.plane.columns
  have rows := conforms.plane.rows
  have tensors := conforms.tensors
  have reads := tensors.inputChannels
  have inputPlane := Nat.mul_le_mul columns.input.2 rows.input.2
  have outputPlane := Nat.mul_le_mul columns.output.2 rows.output.2
  have weightBits := workload.weightBits_canonicalJob
  rw [canonicalJob_eq] at weightBits ⊢
  exact
    { kernel :=
        Nat.mul_le_mul (Nat.le_trans columns.kernel.2 kernelMax)
          (Nat.le_trans rows.kernel.2 kernelMax)
      input := ⟨inputPlane, reads.le, tensors.oneInput⟩
      output := ⟨outputPlane, tensors.outputChannels.2.1, tensors.oneOutput⟩
      fewChannels := reads.few
      manyChannels := reads.many
      weightBits := weightBits }

end Workload

namespace Gate

variable
  {gate : Gate}
  {workload : Workload}
  {job : Job}

/-- The weights of an admitted job fit the larger of the local memories. -/
theorem weightsBytes_le_of_accept
    (standard : gate.tables = Capability.standard)
    (inWords : gate.InWords workload)
    (accepted : gate.accept workload = .ok job) :
    Footprint.weightsBytes id job ≤ 2 ^ 21 := by
  obtain ⟨table, family, admits⟩ := accept_eq_ok_iff.mp accepted
  have weights := Footprint.weightsBytes_le_total table gate.ignoreOverhead job
  have fits := admits.fits
  rw [(admits.inWords inWords).ofJob_eq_inFull] at fits
  have capacity : table.cmxBytes ≤ 2 ^ 21 := by
    have isTable := admits.isTable
    rw [standard] at isTable
    rcases Capability.eq_of_mem_standard (List.mem_of_find?_eq_some isTable) with rfl | rfl
    · decide
    · decide
  exact Nat.le_trans (Nat.le_trans weights fits) capacity

/--
The multiplications of an admitted job are counted exactly, as long as its memory is.
Skipping zeros leaves no more of them and takes no more cycles, and when no operand is
sparse it changes neither.
-/
theorem idealCycles_of_accept
    (standard : gate.tables = Capability.standard)
    (inWords : gate.InWords workload)
    (accepted : gate.accept workload = .ok job) :
    ∃ cycles,
      job.idealCycles? (.ofDevice job.device) = some cycles ∧ cycles.Ordered ∧
        (job.input.sparse = false → job.weights.sparse = false → cycles.Dense) := by
  obtain ⟨isJob, conforms⟩ := conforms_of_accept standard accepted
  have weights := weightsBytes_le_of_accept standard inWords accepted
  have bounded : job.Bounded := isJob ▸ conforms.bounded_canonicalJob
  have exact := bounded.idealMacs_lt weights
  exact
    ⟨_, job.idealCycles?_ofDevice, Job.ordered_idealCycles _ exact,
      Job.dense_idealCycles _ exact⟩

/-- A convolution with half of its weights zero. -/
def halfPruned : Workload :=
  (Workload.plain .vpu27 .convolution (.dense ⟨16, 16, 64, 1⟩ .uint8)
    (.dense ⟨16, 16, 64, 1⟩ .uint8) .cuboid16x16).withWeightSparsity 0.5

/-- Half of its multiplications remain, and without sparse weights all of them do. -/
theorem idealCycles_of_halfPruned :
    let job := Job.ofWorkload halfPruned .convolution
    let denseJob := Job.ofWorkload halfPruned.withoutWeightSparsity .convolution
    standard.InWords halfPruned ∧
      standard.InWords halfPruned.withoutWeightSparsity ∧
      standard.accept halfPruned = .ok job ∧
      standard.accept halfPruned.withoutWeightSparsity = .ok denseJob ∧
      (∃ cycles,
        job.idealCycles? .vpu27 = some cycles ∧ cycles.Ordered ∧
          cycles.sparseMacs < cycles.denseMacs) ∧
      ∃ cycles, denseJob.idealCycles? .vpu27 = some cycles ∧ cycles.Ordered ∧ cycles.Dense := by
  have inWords : standard.InWords halfPruned :=
    inWords_of_family rfl rfl (by decide +kernel)
  have denseInWords : standard.InWords halfPruned.withoutWeightSparsity :=
    inWords_of_family rfl rfl (by decide +kernel)
  have accepted : standard.accept halfPruned = .ok (.ofWorkload halfPruned .convolution) :=
    accept_eq_ok_iff.mpr
      ⟨.vpu27, .convolution,
        { isTable := rfl
          isFamily := rfl
          isJob := rfl
          fits := by decide +kernel
          legal := by decide +kernel }⟩
  have denseAccepted :
      standard.accept halfPruned.withoutWeightSparsity =
        .ok (.ofWorkload halfPruned.withoutWeightSparsity .convolution) :=
    accept_eq_ok_iff.mpr
      ⟨.vpu27, .convolution,
        { isTable := rfl
          isFamily := rfl
          isJob := rfl
          fits := by decide +kernel
          legal := by decide +kernel }⟩
  obtain ⟨cycles, isCycles, ordered, _⟩ := idealCycles_of_accept rfl inWords accepted
  obtain ⟨denseCycles, isDenseCycles, denseOrdered, dense⟩ :=
    idealCycles_of_accept rfl denseInWords denseAccepted
  refine
    ⟨inWords, denseInWords, accepted, denseAccepted, ⟨cycles, isCycles, ordered, ?_⟩,
      denseCycles, isDenseCycles, denseOrdered, dense rfl rfl⟩
  have fewer :
      ((Job.ofWorkload halfPruned .convolution).idealCycles? .vpu27).all
        (fun counts => counts.sparseMacs < counts.denseMacs) = true := by
    decide +kernel
  change Job.idealCycles? _ Hardware.vpu27 = _ at isCycles
  rw [isCycles] at fewer
  exact of_decide_eq_true fewer

end Gate

end DpuCycles
