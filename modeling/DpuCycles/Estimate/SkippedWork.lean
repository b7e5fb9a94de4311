import DpuCycles.Legality.Job
import DpuCycles.Number.Multiple

namespace DpuCycles

/-!
# Work on padding that is never done

Padded zeros are treated as sparse, so multiplications by them are skipped.
Along an edge the kernel first covers the whole padding and one stride less of it
at every further position; at a corner two edges meet, and what they share is
counted once for each of them and taken away again.
-/

/-- Sum of the positive terms of `start, start - step, …`. -/
def descendingSum
    (start step : Nat) : Nat :=
  (ceilDiv start step).fold (fun position _ sum => sum + (start - position * step)) 0

/-- Sum of the products of two descending rows, as long as both terms are positive. -/
def diagonalSum
    (start step start' step' : Nat) : Nat :=
  (min (ceilDiv start step) (ceilDiv start' step')).fold
    (fun position _ sum => sum + (start - position * step) * (start' - position * step')) 0

namespace Job

/-- Stride of a job, at least one point. -/
def positiveStride (job : Job) : Extent :=
  ⟨max job.stride.width 1, max job.stride.height 1⟩

/--
Padding the kernel covers at most along each edge.  At the far edges it is less
by what the strides leave of the input.
-/
def coveredPadding (job : Job) : Padding where
  top := job.padding.top
  bottom := job.padding.bottom - job.input.shape.height % job.positiveStride.height
  left := job.padding.left
  right := job.padding.right - job.input.shape.width % job.positiveStride.width

/-- Zeros covered along the four edges by all positions of the kernel, corners twice. -/
def edgeZeros (job : Job) : Nat :=
  let stride := job.positiveStride
  let covered := job.coveredPadding
  let rowLength := job.kernel.width * ceilDiv job.input.shape.width stride.width
  let columnLength := job.kernel.height * ceilDiv job.input.shape.height stride.height
  descendingSum covered.top stride.height * rowLength +
    descendingSum covered.bottom stride.height * rowLength +
    descendingSum covered.left stride.width * columnLength +
    descendingSum covered.right stride.width * columnLength

/-- Zeros covered at the four corners. -/
def cornerZeros (job : Job) : Nat :=
  let stride := job.positiveStride
  let covered := job.coveredPadding
  diagonalSum covered.top stride.height covered.left stride.width +
    diagonalSum covered.top stride.height covered.right stride.width +
    diagonalSum covered.bottom stride.height covered.left stride.width +
    diagonalSum covered.bottom stride.height covered.right stride.width

/-- Multiplications by padded zeros. -/
def skippedMacs (job : Job) : Nat :=
  (job.edgeZeros - job.cornerZeros) * job.input.shape.channels * job.output.shape.channels

end Job

end DpuCycles
