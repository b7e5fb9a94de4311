import DpuCycles.Estimate.CostModel
import DpuCycles.Proofs.Legality.Rulebook
import Mathlib.Tactic.Linarith
import Mathlib.Tactic.Ring

namespace DpuCycles

/-!
# How much work on padding is skipped

Skipped work is estimated edge by edge, as if the positions of the kernel went on
until they leave the padding, and as if there was one for every stride of the input.
A small output has fewer positions than that.  Then more can be skipped than there
is to do, and nothing is left of the multiplications.

An output that is not smaller than the kernel has enough positions.  An axis is taken
for longer than it is only where padding is missing from the kernel, so that an
excess of positions on one axis goes along with fewer zeros on that axis.  Together
the zeros of both axes are then no more than the work, and if there are some of both,
the corners take some of them away.
-/

section DescendingSums

/-- A sum that descends by whole steps is at most the triangle below its start. -/
theorem two_mul_descendingSum_le
    {step : Nat}
    (start : Nat)
    (positive : 0 < step) :
    2 * descendingSum start step ≤ start * (start + 1) := by
  unfold descendingSum
  generalize ceilDiv start step = terms
  -- What is left of the triangle pays for the terms that follow.
  have triangle :
      2 * terms.fold (fun position _ sum => sum + (start - position * step)) 0 +
          (start - terms) * (start - terms + 1) ≤
        start * (start + 1) := by
    induction terms with
    | zero =>
        simp
    | succ terms inductionHypothesis =>
        have term : start - terms * step ≤ start - terms :=
          Nat.sub_le_sub_left (Nat.le_mul_of_pos_right terms positive) start
        rw [Nat.fold_succ]
        refine Nat.le_trans ?_ inductionHypothesis
        obtain done | ⟨left, isLeft⟩ :
            start - terms = 0 ∨ ∃ left, start - terms = left + 1 := by
          cases start - terms <;> simp
        · have next : start - (terms + 1) = 0 := by omega
          rw [next, done]
          omega
        · have next : start - (terms + 1) = left := by omega
          rw [isLeft] at term
          rw [next, isLeft]
          nlinarith
  omega

@[simp] theorem descendingSum_zero (step : Nat) : descendingSum 0 step = 0 := by
  unfold descendingSum
  generalize ceilDiv 0 step = terms
  induction terms with
  | zero =>
      rfl
  | succ terms inductionHypothesis =>
      rw [Nat.fold_succ, inductionHypothesis, Nat.zero_sub]

theorem pos_of_descendingSum_pos
    {start step : Nat}
    (positive : 0 < descendingSum start step) :
    0 < start := by
  refine Nat.pos_of_ne_zero ?_
  rintro rfl
  simp at positive

/-- Two rows that do not start at zero meet in a corner that is not empty. -/
theorem diagonalSum_pos
    {start step start' step' : Nat}
    (startPositive : 0 < start)
    (stepPositive : 0 < step)
    (startPositive' : 0 < start')
    (stepPositive' : 0 < step') :
    0 < diagonalSum start step start' step' := by
  have terms : 0 < min (ceilDiv start step) (ceilDiv start' step') :=
    Nat.lt_min.mpr
      ⟨Nat.div_pos (by omega) stepPositive, Nat.div_pos (by omega) stepPositive'⟩
  unfold diagonalSum
  obtain ⟨later, isLater⟩ := Nat.exists_eq_succ_of_ne_zero (Nat.ne_of_gt terms)
  rw [isLater]
  clear terms isLater
  induction later with
  | zero =>
      simpa using Nat.mul_pos startPositive startPositive'
  | succ later inductionHypothesis =>
      rw [Nat.fold_succ]
      exact Nat.lt_of_lt_of_le inductionHypothesis (Nat.le_add_right _ _)

end DescendingSums

namespace Span

/-- Padding that the positions along one axis are counted to cover. -/
def countedZeros (span : Span) : Nat :=
  descendingSum span.before span.stride +
    descendingSum (span.after - span.input % span.stride) span.stride

/-- Positions that one axis is counted to have. -/
def countedPositions (span : Span) : Nat :=
  ceilDiv span.input span.stride

/-- Points of the kernel that no padding can cover, apart from one. -/
def unpadded (span : Span) : Nat :=
  span.kernel - 1 - (span.before + span.after)

/-- Points of the kernel that lie in the input, over all positions along one axis. -/
def insidePoints (span : Span) : Nat :=
  ((List.range span.output).map fun position =>
    (List.range span.kernel).countP fun point =>
      span.before ≤ position * span.stride + point ∧
        position * span.stride + point < span.before + span.input).sum

variable
  {span columns rows : Span}
  {kernelMax strideMax : Nat}

/-- The kernel reaches over the padding in front at its first position already. -/
theorem Conforms.insidePoints_pos
    (conforms : span.Conforms kernelMax strideMax) :
    0 < span.insidePoints := by
  obtain ⟨later, isLater⟩ : ∃ later, span.output = later + 1 :=
    Nat.exists_eq_add_one.mpr conforms.output.1
  have before := conforms.beforeWithin
  have input := conforms.input.1
  have kernel := conforms.kernel.1
  rw [insidePoints, isLater, List.range_succ_eq_map, List.map_cons, List.sum_cons]
  refine Nat.add_pos_left (List.countP_pos_iff.mpr ⟨span.before, ?_, ?_⟩) _
  · exact List.mem_range.mpr (by omega)
  · simp only [Nat.zero_mul, Nat.zero_add, decide_eq_true_eq]
    omega

theorem Conforms.two_mul_countedZeros_le
    (conforms : span.Conforms kernelMax strideMax) :
    2 * span.countedZeros ≤ (span.before + span.after) * span.kernel := by
  obtain ⟨_, _, _, stride, _, before, after, _⟩ := conforms
  have half
      {padding : Nat}
      (within : padding ≤ span.kernel / 2) :
      2 * descendingSum padding span.stride ≤ padding * span.kernel := by
    refine Nat.le_trans (two_mul_descendingSum_le padding stride.1) ?_
    obtain rfl | positive := Nat.eq_zero_or_pos padding
    · simp
    · exact Nat.mul_le_mul_left padding (by omega)
  have front := half before
  have behind := half (Nat.le_trans (Nat.sub_le _ (span.input % span.stride)) after)
  have less :
      (span.after - span.input % span.stride) * span.kernel ≤ span.after * span.kernel :=
    Nat.mul_le_mul_right _ (Nat.sub_le _ _)
  rw [countedZeros, Nat.mul_add, Nat.add_mul]
  omega

/-- Positions are counted beyond the output only where the kernel is not padded. -/
theorem Conforms.countedPositions_le
    (conforms : span.Conforms kernelMax strideMax) :
    span.countedPositions ≤ span.output + span.unpadded := by
  obtain ⟨_, _, kernel, stride, _, before, after, given⟩ := conforms
  have positive : (0 : Int) < span.stride := by exact_mod_cast stride.1
  have reached := Int.lt_ediv_add_one_mul_self
    (span.input + span.before + span.after - span.kernel : Int) positive
  rw [← given] at reached
  have unpadded : span.unpadded ≤ span.unpadded * span.stride :=
    Nat.le_mul_of_pos_right _ stride.1
  rw [countedPositions, ceilDiv_le_iff stride.1, Nat.add_mul]
  have reachedCount :
      span.input + span.before + span.after < span.output * span.stride + span.kernel := by
    zify
    omega
  unfold Span.unpadded at unpadded ⊢
  omega

/-- What both axes count together is within the output, counted twice. -/
theorem Conforms.counts_le
    (columnsConform : columns.Conforms kernelMax strideMax)
    (rowsConform : rows.Conforms kernelMax strideMax)
    (wide : columns.kernel ≤ columns.output)
    (high : rows.kernel ≤ rows.output) :
    (rows.before + rows.after) * columns.countedPositions +
        (columns.before + columns.after) * rows.countedPositions ≤
      2 * (columns.output * rows.output) := by
  have columnPositions := columnsConform.countedPositions_le
  have rowPositions := rowsConform.countedPositions_le
  have columnRoom : columns.before + columns.after + columns.unpadded ≤ columns.output := by
    have before := columnsConform.beforeWithin
    have after := columnsConform.afterWithin
    unfold unpadded
    omega
  have rowRoom : rows.before + rows.after + rows.unpadded ≤ rows.output := by
    have before := rowsConform.beforeWithin
    have after := rowsConform.afterWithin
    unfold unpadded
    omega
  -- Each factor on the right is as much above its output as the other one is below its own.
  calc (rows.before + rows.after) * columns.countedPositions +
        (columns.before + columns.after) * rows.countedPositions
      ≤ (rows.before + rows.after) * (columns.output + columns.unpadded) +
        (columns.before + columns.after) * (rows.output + rows.unpadded) := by
        gcongr
    _ ≤ 2 * (columns.output * rows.output) := by
        nlinarith [Nat.zero_le (columns.unpadded * rows.unpadded)]

/-- The zeros of one axis alone are less than the work. -/
theorem Conforms.countedZeros_lt
    (columnsConform : columns.Conforms kernelMax strideMax)
    (rowsConform : rows.Conforms kernelMax strideMax)
    (wide : columns.kernel ≤ columns.output)
    (high : rows.kernel ≤ rows.output) :
    rows.countedZeros * (columns.kernel * columns.countedPositions) <
      columns.kernel * rows.kernel * (columns.output * rows.output) := by
  have zeros := rowsConform.two_mul_countedZeros_le
  have positions := columnsConform.countedPositions_le
  have before := rowsConform.beforeWithin
  have after := rowsConform.afterWithin
  have columnKernel := columnsConform.kernel.1
  have rowKernel := rowsConform.kernel.1
  have fewPositions : columns.countedPositions < 2 * columns.output := by
    unfold unpadded at positions
    omega
  have halfCovered : 2 * rows.countedZeros ≤ rows.output * rows.kernel :=
    Nat.le_trans zeros (Nat.mul_le_mul_right _ (by omega))
  have area : 0 < rows.output * rows.kernel :=
    Nat.mul_pos (by omega) (by omega)
  have rowWork :
      rows.countedZeros * columns.countedPositions <
        rows.kernel * (columns.output * rows.output) := by
    nlinarith
  calc rows.countedZeros * (columns.kernel * columns.countedPositions)
      = columns.kernel * (rows.countedZeros * columns.countedPositions) := by ring
    _ < columns.kernel * (rows.kernel * (columns.output * rows.output)) :=
        Nat.mul_lt_mul_of_pos_left rowWork columnKernel
    _ = columns.kernel * rows.kernel * (columns.output * rows.output) := by ring

/-- The zeros of both axes are no more than the work. -/
theorem Conforms.countedZeros_add_le
    (columnsConform : columns.Conforms kernelMax strideMax)
    (rowsConform : rows.Conforms kernelMax strideMax)
    (wide : columns.kernel ≤ columns.output)
    (high : rows.kernel ≤ rows.output) :
    rows.countedZeros * (columns.kernel * columns.countedPositions) +
        columns.countedZeros * (rows.kernel * rows.countedPositions) ≤
      columns.kernel * rows.kernel * (columns.output * rows.output) := by
  have rowZeros := rowsConform.two_mul_countedZeros_le
  have columnZeros := columnsConform.two_mul_countedZeros_le
  have counts := columnsConform.counts_le rowsConform wide high
  have doubled :
      2 * (rows.countedZeros * (columns.kernel * columns.countedPositions) +
          columns.countedZeros * (rows.kernel * rows.countedPositions)) ≤
        2 * (columns.kernel * rows.kernel * (columns.output * rows.output)) :=
    calc 2 * (rows.countedZeros * (columns.kernel * columns.countedPositions) +
          columns.countedZeros * (rows.kernel * rows.countedPositions))
        = 2 * rows.countedZeros * (columns.kernel * columns.countedPositions) +
          2 * columns.countedZeros * (rows.kernel * rows.countedPositions) := by ring
      _ ≤ (rows.before + rows.after) * rows.kernel * (columns.kernel * columns.countedPositions) +
          (columns.before + columns.after) * columns.kernel *
            (rows.kernel * rows.countedPositions) := by gcongr
      _ = columns.kernel * rows.kernel *
          ((rows.before + rows.after) * columns.countedPositions +
            (columns.before + columns.after) * rows.countedPositions) := by ring
      _ ≤ columns.kernel * rows.kernel * (2 * (columns.output * rows.output)) :=
          Nat.mul_le_mul_left _ counts
      _ = 2 * (columns.kernel * rows.kernel * (columns.output * rows.output)) := by ring
  omega

/-- Zeros of both axes, less what lies in the corners as soon as there are some of both. -/
theorem Conforms.skipped_lt
    {corners : Nat}
    (columnsConform : columns.Conforms kernelMax strideMax)
    (rowsConform : rows.Conforms kernelMax strideMax)
    (wide : columns.kernel ≤ columns.output)
    (high : rows.kernel ≤ rows.output)
    (shared : 0 < rows.countedZeros → 0 < columns.countedZeros → 0 < corners) :
    rows.countedZeros * (columns.kernel * columns.countedPositions) +
          columns.countedZeros * (rows.kernel * rows.countedPositions) -
        corners <
      columns.kernel * rows.kernel * (columns.output * rows.output) := by
  obtain noRows | someRows := Nat.eq_zero_or_pos rows.countedZeros
  · have alone := rowsConform.countedZeros_lt columnsConform high wide
    rw [Nat.mul_comm rows.kernel columns.kernel, Nat.mul_comm rows.output columns.output] at alone
    rw [noRows, Nat.zero_mul, Nat.zero_add]
    exact Nat.lt_of_le_of_lt (Nat.sub_le _ _) alone
  obtain noColumns | someColumns := Nat.eq_zero_or_pos columns.countedZeros
  · have alone := columnsConform.countedZeros_lt rowsConform wide high
    rw [noColumns, Nat.zero_mul, Nat.add_zero]
    exact Nat.lt_of_le_of_lt (Nat.sub_le _ _) alone
  · have together := columnsConform.countedZeros_add_le rowsConform wide high
    have someCorner := shared someRows someColumns
    have someWork := columnsConform.countedZeros_lt rowsConform wide high
    omega

end Span

namespace Job

/-- The columns of a job. -/
def columns (job : Job) : Span where
  input := job.input.shape.width
  output := job.output.shape.width
  kernel := job.kernel.width
  stride := job.stride.width
  before := job.padding.left
  after := job.padding.right

/-- The rows of a job. -/
def rows (job : Job) : Span where
  input := job.input.shape.height
  output := job.output.shape.height
  kernel := job.kernel.height
  stride := job.stride.height
  before := job.padding.top
  after := job.padding.bottom

/-- Multiplications of a sum over channels, padded zeros included. -/
def allMacs (job : Job) : Nat :=
  job.kernel.area * job.output.volume * job.input.shape.channels

/-- Multiplications by padded zeros, for the positions of the kernel that there are. -/
def paddedMacs (job : Job) : Nat :=
  job.allMacs -
    job.columns.insidePoints * job.rows.insidePoints *
      (job.input.shape.channels * job.output.shape.channels)

/-- What admission grants a sum over channels. -/
structure IsSum (job : Job) : Prop where
  sums : job.operation.isConvolution = true
  columns : job.columns.Conforms job.operation.kernelMax job.operation.strideMax
  rows : job.rows.Conforms job.operation.kernelMax job.operation.strideMax
  oneImage : job.output.shape.batch = 1
  inputChannels : 0 < job.input.shape.channels
  outputChannels : 0 < job.output.shape.channels ∧ job.output.shape.channels ≤ 8192

variable {job : Job}

theorem positiveStride_eq
    (width : 1 ≤ job.stride.width)
    (height : 1 ≤ job.stride.height) :
    job.positiveStride = job.stride := by
  rw [positiveStride, Nat.max_eq_left width, Nat.max_eq_left height]

/-- Zeros are counted along the rows and along the columns. -/
theorem edgeZeros_eq
    (width : 1 ≤ job.stride.width)
    (height : 1 ≤ job.stride.height) :
    job.edgeZeros =
      job.rows.countedZeros * (job.columns.kernel * job.columns.countedPositions) +
        job.columns.countedZeros * (job.rows.kernel * job.rows.countedPositions) := by
  simp only [edgeZeros, coveredPadding, positiveStride_eq width height, Span.countedZeros,
    Span.countedPositions, columns, rows]
  ring

/-- A corner has zeros as soon as there are zeros along the rows and along the columns. -/
theorem cornerZeros_pos
    (width : 1 ≤ job.stride.width)
    (height : 1 ≤ job.stride.height)
    (someRows : 0 < job.rows.countedZeros)
    (someColumns : 0 < job.columns.countedZeros) :
    0 < job.cornerZeros := by
  have edge
      {span : Span}
      (some : 0 < span.countedZeros) :
      0 < span.before ∨ 0 < span.after - span.input % span.stride :=
    (Nat.add_pos_iff_pos_or_pos.mp some).imp pos_of_descendingSum_pos pos_of_descendingSum_pos
  have corner
      {start start' : Nat}
      (positive : 0 < start)
      (positive' : 0 < start') :
      0 < diagonalSum start job.stride.height start' job.stride.width :=
    diagonalSum_pos positive height positive' width
  have rowEdge :
      0 < job.padding.top ∨
        0 < job.padding.bottom - job.input.shape.height % job.stride.height :=
    edge someRows
  have columnEdge :
      0 < job.padding.left ∨
        0 < job.padding.right - job.input.shape.width % job.stride.width :=
    edge someColumns
  simp only [cornerZeros, coveredPadding, positiveStride_eq width height]
  rcases rowEdge with top | bottom <;> rcases columnEdge with left | right
  · have some := corner top left
    omega
  · have some := corner top right
    omega
  · have some := corner bottom left
    omega
  · have some := corner bottom right
    omega

theorem skippedMacs_eq (job : Job) :
    job.skippedMacs =
      (job.edgeZeros - job.cornerZeros) *
        (job.input.shape.channels * job.output.shape.channels) := by
  rw [skippedMacs]
  ring

theorem closedFormWork_eq
    (hardware : Hardware)
    (sums : job.operation.isConvolution = true) :
    job.closedFormWork hardware = job.allMacs - job.skippedMacs := by
  have notElementwise : job.operation.isElementwise = false := by
    cases isOperation : job.operation <;>
      simp_all [Operation.isConvolution, Operation.isElementwise]
  simp only [closedFormWork, notElementwise, sums]
  rfl

theorem closedFormMacs_eq
    (hardware : Hardware)
    (sums : job.operation.isConvolution = true) :
    job.closedFormMacs hardware = hardware.macs := by
  rw [closedFormMacs, if_pos sums]

/-- A sum over channels takes time unless all of its multiplications count as skipped. -/
theorem computeCycles_eq_zero_iff
    {hardware : Hardware}
    (sums : job.operation.isConvolution = true)
    (macs : 0 < hardware.macs)
    (ratio : 0 < hardware.floatCostRatio) :
    job.computeCycles hardware = 0 ↔ job.allMacs ≤ job.skippedMacs := by
  have cycles : ceilDiv (job.allMacs - job.skippedMacs) hardware.macs = 0 ↔
      job.allMacs ≤ job.skippedMacs := by
    rw [← Nat.le_zero, ceilDiv_le_iff macs, Nat.zero_mul, Nat.le_zero]
    exact Nat.sub_eq_zero_iff_le
  rw [computeCycles, closedFormWork_eq hardware sums, closedFormMacs_eq hardware sums]
  split
  · rw [Nat.mul_eq_zero, cycles]
    exact or_iff_left (Nat.ne_of_gt ratio)
  · exact cycles

namespace IsSum

/-- Each point of the kernel takes a multiplication at each position for each pair of channels. -/
theorem allMacs_eq (isSum : job.IsSum) :
    job.allMacs =
      job.kernel.area * (job.output.shape.width * job.output.shape.height) *
        (job.input.shape.channels * job.output.shape.channels) := by
  have volume : job.output.volume = job.output.shape.volume := by
    refine Tensor.volume_of_lt ?_
    rw [Shape.volume, isSum.oneImage, Nat.mul_one]
    have plane := Nat.mul_le_mul isSum.columns.output.2 isSum.rows.output.2
    exact Nat.lt_of_le_of_lt (Nat.mul_le_mul plane isSum.outputChannels.2) (by decide)
  rw [allMacs, volume, Shape.volume, isSum.oneImage]
  ring

theorem channels_pos (isSum : job.IsSum) :
    0 < job.input.shape.channels * job.output.shape.channels :=
  Nat.mul_pos isSum.inputChannels isSum.outputChannels.1

theorem points_pos (isSum : job.IsSum) :
    0 < job.kernel.area * (job.output.shape.width * job.output.shape.height) :=
  Nat.mul_pos (Nat.mul_pos isSum.columns.kernel.1 isSum.rows.kernel.1)
    (Nat.mul_pos isSum.columns.output.1 isSum.rows.output.1)

/-- What is left to do is the same for each pair of channels. -/
theorem closedFormWork_eq_mul
    {hardware : Hardware}
    (isSum : job.IsSum) :
    job.closedFormWork hardware =
      (job.kernel.area * (job.output.shape.width * job.output.shape.height) -
          (job.edgeZeros - job.cornerZeros)) *
        (job.input.shape.channels * job.output.shape.channels) := by
  rw [closedFormWork_eq hardware isSum.sums, isSum.allMacs_eq, skippedMacs_eq, ← Nat.sub_mul]

/-- Some multiplications are not by padded zeros. -/
theorem paddedMacs_lt_allMacs (isSum : job.IsSum) :
    job.paddedMacs < job.allMacs := by
  have all : 0 < job.allMacs :=
    isSum.allMacs_eq ▸ Nat.mul_pos isSum.points_pos isSum.channels_pos
  have inside : 0 < job.columns.insidePoints * job.rows.insidePoints :=
    Nat.mul_pos isSum.columns.insidePoints_pos isSum.rows.insidePoints_pos
  exact Nat.sub_lt all (Nat.mul_pos inside isSum.channels_pos)

/-- Whether less is skipped than there is to do does not depend on the channels. -/
theorem skippedMacs_lt_allMacs_iff (isSum : job.IsSum) :
    job.skippedMacs < job.allMacs ↔
      job.edgeZeros - job.cornerZeros <
        job.kernel.area * (job.output.shape.width * job.output.shape.height) := by
  rw [isSum.allMacs_eq, skippedMacs_eq]
  exact Nat.mul_lt_mul_right isSum.channels_pos

/-- Without padding, or with an output not smaller than the kernel, there is work left. -/
theorem skippedMacs_lt_allMacs
    (isSum : job.IsSum)
    (roomy : job.padding = ⟨0, 0, 0, 0⟩ ∨
      job.kernel.width ≤ job.output.shape.width ∧
        job.kernel.height ≤ job.output.shape.height) :
    job.skippedMacs < job.allMacs := by
  have width := isSum.columns.stride.1
  have height := isSum.rows.stride.1
  rw [isSum.skippedMacs_lt_allMacs_iff, edgeZeros_eq width height]
  obtain unpadded | ⟨wide, high⟩ := roomy
  · have noColumns : job.columns.countedZeros = 0 := by
      simp [Span.countedZeros, Job.columns, unpadded]
    have noRows : job.rows.countedZeros = 0 := by
      simp [Span.countedZeros, Job.rows, unpadded]
    rw [noColumns, noRows, Nat.zero_mul, Nat.zero_mul, Nat.add_zero, Nat.zero_sub]
    exact isSum.points_pos
  · exact isSum.columns.skipped_lt isSum.rows wide high (cornerZeros_pos width height)

end IsSum

end Job

namespace Gate

variable
  {gate : Gate}
  {workload : Workload}
  {job : Job}

theorem isSum_of_accept
    (standard : gate.tables = Capability.standard)
    (accepted : gate.accept workload = .ok job)
    (sums : job.operation.isConvolution = true) :
    job.IsSum := by
  obtain ⟨rfl, conforms⟩ := conforms_of_accept standard accepted
  obtain ⟨_, _, inputChannels, outputChannels, _, oneOutput⟩ := conforms.tensors
  rw [Workload.canonicalJob_eq] at sums ⊢
  exact
    { sums := sums
      columns := conforms.plane.columns
      rows := conforms.plane.rows
      oneImage := oneOutput
      inputChannels := inputChannels.pos
      outputChannels :=
        ⟨Nat.lt_of_lt_of_le (by decide) outputChannels.1, outputChannels.2.1⟩ }

/--
Some multiplications of an admitted sum over channels are not by padded zeros.  As
many as all may count as skipped nevertheless, and exactly then the multiplications
take no time.  Without padding that does not happen, nor where the output is not
smaller than the kernel.
-/
theorem computeCycles_of_accept
    (standard : gate.tables = Capability.standard)
    (accepted : gate.accept workload = .ok job)
    (sums : job.operation.isConvolution = true) :
    job.paddedMacs < job.allMacs ∧
      (job.computeCycles (.ofDevice job.device) = 0 ↔ job.allMacs ≤ job.skippedMacs) ∧
      (job.padding = ⟨0, 0, 0, 0⟩ ∨
          job.kernel.width ≤ job.output.shape.width ∧
            job.kernel.height ≤ job.output.shape.height →
        job.skippedMacs < job.allMacs ∧ 1 ≤ job.computeCycles (.ofDevice job.device)) := by
  have isSum := isSum_of_accept standard accepted sums
  have isFree :
      job.computeCycles (.ofDevice job.device) = 0 ↔ job.allMacs ≤ job.skippedMacs := by
    refine Job.computeCycles_eq_zero_iff sums ?_ ?_
    · cases job.device <;> decide
    · cases job.device <;> decide
  refine ⟨isSum.paddedMacs_lt_allMacs, isFree, fun roomy => ?_⟩
  have less := isSum.skippedMacs_lt_allMacs roomy
  exact ⟨less, Nat.pos_of_ne_zero fun free => Nat.not_le.mpr less (isFree.mp free)⟩

/-- A convolution with the largest kernel, padded on all sides to keep the plane. -/
def paddedPlane : Workload :=
  let tensor := Tensor.dense ⟨11, 11, 16, 1⟩ .uint8
  (Workload.plain .vpu27 .convolution tensor tensor .cuboid16x16).withKernel ⟨11, 11⟩ ⟨1, 1⟩
    ⟨5, 5, 5, 5⟩

/-- Half of its multiplications count as skipped. -/
theorem computeCycles_of_paddedPlane :
    let job := Job.ofWorkload paddedPlane .convolution
    standard.accept paddedPlane = .ok job ∧
      job.operation.isConvolution = true ∧
      job.skippedMacs = 7040 * (16 * 16) ∧
      job.paddedMacs < job.allMacs ∧
      job.skippedMacs < job.allMacs ∧ 1 ≤ job.computeCycles (.ofDevice job.device) := by
  have accepted : standard.accept paddedPlane = .ok (.ofWorkload paddedPlane .convolution) :=
    accept_eq_ok_iff.mpr
      ⟨.vpu27, .convolution,
        { isTable := rfl
          isFamily := rfl
          isJob := rfl
          fits := by decide +kernel
          legal := by decide +kernel }⟩
  obtain ⟨padded, _, roomy⟩ := computeCycles_of_accept rfl accepted rfl
  obtain ⟨less, takesTime⟩ := roomy (.inr ⟨by decide, by decide⟩)
  exact ⟨accepted, rfl, by decide, padded, less, takesTime⟩

/-- A convolution whose kernel is larger than its plane, padded less than that takes. -/
def overhangingKernel : Workload :=
  (Workload.plain .vpu40 .convolution (.dense ⟨8, 8, 64, 1⟩ .uint8)
    (.dense ⟨4, 4, 64, 1⟩ .uint8) .cuboid16x16).withKernel ⟨11, 11⟩ ⟨1, 1⟩ ⟨3, 3, 3, 3⟩

/--
Eight rows and columns are counted where there are four, so more is skipped than there
is to do.  The time is that of the reads alone, though more than half of the work is
not on padding.
-/
theorem overhangingKernel_free :
    let job := Job.ofWorkload overhangingKernel .convolution
    standard.accept overhangingKernel = .ok job ∧
      job.operation.isConvolution = true ∧
      job.allMacs = 1936 * (64 * 64) ∧
      job.paddedMacs = 912 * (64 * 64) ∧
      job.skippedMacs = 2056 * (64 * 64) ∧
      job.computeCycles (.ofDevice job.device) = 0 ∧
      CostModel.closedForm job = 1388 ∧
      CostModel.closedForm job < ceilDiv (job.allMacs - job.paddedMacs) 2048 := by
  have accepted :
      standard.accept overhangingKernel = .ok (.ofWorkload overhangingKernel .convolution) :=
    accept_eq_ok_iff.mpr
      ⟨.vpu40, .convolution,
        { isTable := rfl
          isFamily := rfl
          isJob := rfl
          fits := by decide +kernel
          legal := by decide +kernel }⟩
  exact ⟨accepted, rfl, by decide +kernel, by decide +kernel, by decide +kernel,
    by decide +kernel, by decide +kernel, by decide +kernel⟩

end Gate

end DpuCycles
