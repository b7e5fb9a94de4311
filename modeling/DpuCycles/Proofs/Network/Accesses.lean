import DpuCycles.Proofs.Network.Inference

namespace DpuCycles.Network

/-!
# Accesses of kernels

A kernel walks over its rows and, inside a row, over its inputs, and takes slices
of the batch and of its numbers as it goes.  Here every slice, every single access
and every copy is checked against the buffer it goes to.  A kernel that has all
the numbers it reads passes all these checks, and writes what it gives for the
rows.
-/

namespace Kernel

/-- The values of a buffer between two positions inside it. -/
def slice
    (buffer : Array Single)
    (start stop : Nat) : Except Fault (Array Single) :=
  if start ≤ stop ∧ stop ≤ buffer.size then
    .ok (buffer.extract start stop)
  else
    .error .outOfRange

/-- The value at a position inside a buffer. -/
def fetch
    (buffer : Array Single)
    (position : Nat) : Except Fault Single :=
  if inside : position < buffer.size then .ok buffer[position] else .error .outOfRange

/-- Values copied over a buffer of the same size. -/
def copy
    (values buffer : Array Single) : Except Fault (Array Single) :=
  if values.size = buffer.size then .ok values else .error .outOfRange

/-- A buffer with values written over it from a position on. -/
def writeAt
    (buffer : Array Single)
    (start : Nat)
    (values : Array Single) : Array Single :=
  buffer.extract 0 start ++ values ++ buffer.extract (start + values.size) buffer.size

theorem fetch_eq_ok
    (buffer : Array Single)
    {position : Nat}
    (inside : position < buffer.size) :
    fetch buffer position = .ok (buffer.getD position .zero) := by
  rw [fetch, dif_pos inside, Array.getD, dif_pos inside]
  rfl

/-- A row of a matrix is inside of it. -/
theorem slice_matrix
    {matrix : Array Single}
    {rows columns row : Nat}
    (sized : matrix.size = rows * columns)
    (inside : row < rows) :
    slice matrix (row * columns) ((row + 1) * columns) =
      .ok ((Array.range columns).map fun column => matrix.getD (row * columns + column) .zero) := by
  have starts : row * columns ≤ (row + 1) * columns :=
    Nat.mul_le_mul_right columns (Nat.le_succ row)
  have reaches : (row + 1) * columns ≤ matrix.size :=
    sized ▸ Nat.mul_le_mul_right columns inside
  rw [slice, if_pos ⟨starts, reaches⟩]
  rw [Nat.succ_mul] at reaches ⊢
  refine congrArg Except.ok (Array.ext ?_ ?_)
  · rw [Array.size_extract, Array.size_map, Array.size_range]
    omega
  · intro column _ below
    rw [Array.size_map, Array.size_range] at below
    have inMatrix : row * columns + column < matrix.size := by omega
    simp [inMatrix]

/-- Values numbered from zero, combined one by one with others so numbered. -/
theorem zipWith_map_range
    (combine : Single → Single → Single)
    (left right : Nat → Single)
    (count : Nat) :
    Array.zipWith combine ((Array.range count).map left) ((Array.range count).map right) =
      (Array.range count).map fun position => combine (left position) (right position) := by
  refine Array.ext ?_ ?_
  · simp
  · intro position _ _
    simp

end Kernel

open Kernel

namespace Dense

/-- Outputs so far with one more input; an input that is zero adds nothing. -/
def addInput
    (kernel : Dense)
    (row sums : Array Single)
    (input : Nat) : Except Fault (Array Single) := do
  let value ← fetch row input
  if value.isZero then
    return sums
  else
    let weights ← slice kernel.weight (input * kernel.outputs) ((input + 1) * kernel.outputs)
    return Array.zipWith (fun sum weight => weight * value + sum) sums weights

/-- One row, written over the outputs: first the bias, then input by input. -/
def rowWithin
    (kernel : Dense)
    (row outputs : Array Single) : Except Fault (Array Single) := do
  let bias ← copy kernel.bias outputs
  (List.range kernel.inputs).foldlM (kernel.addInput row) bias

/-- One output after some of the inputs. -/
def partialAt
    (kernel : Dense)
    (row : Array Single)
    (count output : Nat) : Single :=
  count.fold
    (fun input _ sum =>
      let value := row.getD input .zero
      if value.isZero then sum else kernel.weightAt input output * value + sum)
    (kernel.bias.getD output .zero)

variable
  {kernel : Dense}
  {row : Array Single}

/-- One more input is added to every output, and no access is out of range. -/
theorem addInput_map
    {input : Nat}
    (sums : Nat → Single)
    (takes : (Kernel.dense kernel).Takes row.size)
    (inside : input < kernel.inputs) :
    kernel.addInput row ((Array.range kernel.outputs).map sums) input =
      .ok ((Array.range kernel.outputs).map fun output =>
        let value := row.getD input .zero
        if value.isZero then
          sums output
        else
          kernel.weightAt input output * value + sums output) := by
  obtain ⟨inputs, weights, _⟩ := takes
  have fetched := fetch_eq_ok row (inputs ▸ inside)
  have sliced := slice_matrix weights inside
  by_cases isZero : (row.getD input .zero).isZero
  · simp only [addInput, fetched, isZero, if_true, bind, Except.bind]
    rfl
  · simp only [addInput, fetched, isZero, sliced, bind, Except.bind, Bool.false_eq_true, if_false]
    exact congrArg Except.ok (zipWith_map_range _ _ _ _)

/-- The outputs so far are those of the inputs so far, and no access is out of range. -/
theorem foldlM_addInput
    {count : Nat}
    (takes : (Kernel.dense kernel).Takes row.size)
    (within : count ≤ kernel.inputs) :
    (List.range count).foldlM (kernel.addInput row) kernel.bias =
      .ok ((Array.range kernel.outputs).map (kernel.partialAt row count)) := by
  induction count with
  | zero =>
      obtain ⟨_, _, bias⟩ := takes
      refine congrArg Except.ok (Array.ext ?_ ?_)
      · simp [bias]
      · intro output below _
        simp [partialAt, below]
  | succ count inductionHypothesis =>
      rw [List.range_succ, List.foldlM_append, inductionHypothesis (Nat.le_of_succ_le within)]
      have added := addInput_map (kernel.partialAt row count) takes within
      simp only [List.foldlM_cons, List.foldlM_nil, bind, Except.bind, added]
      refine congrArg Except.ok (Array.map_congr_left fun output _ => ?_)
      simp only [partialAt, Nat.fold_succ]

/-- A row is written without an access out of range, and it is what the kernel gives for it. -/
theorem rowWithin_eq
    {outputs : Array Single}
    (takes : (Kernel.dense kernel).Takes row.size)
    (sized : outputs.size = kernel.outputs) :
    kernel.rowWithin row outputs = .ok (kernel.apply row) := by
  have copied : copy kernel.bias outputs = .ok kernel.bias := by
    rw [copy, if_pos (takes.2.2.trans sized.symm)]
  rw [rowWithin, copied]
  exact foldlM_addInput takes (Nat.le_refl _)

end Dense

namespace Nearest

/-- Distances so far with one more coordinate of every point. -/
def subtractInput
    (kernel : Nearest)
    (row distances : Array Single)
    (input : Nat) : Except Fault (Array Single) := do
  let value ← fetch row input
  let coordinates ← slice kernel.weight (input * kernel.points) ((input + 1) * kernel.points)
  return Array.zipWith (fun sum coordinate => sum - coordinate * value) distances coordinates

/-- Sums of weighted targets and of weights with one more of the nearest points. -/
def addTarget
    (kernel : Nearest)
    (sums : Single × Single)
    (point : Nat × Single) : Except Fault (Single × Single) := do
  let inverse := .one / (point.2 + epsilon)
  let target ← fetch kernel.target point.1
  return (sums.1 + target * inverse, sums.2 + inverse)

/-- One row: the distances input by input, the order of the points, the nearest of them. -/
def rowWithin
    (kernel : Nearest)
    (row : Array Single) : Except Fault (Array Single) := do
  let distances ←
    (List.range kernel.inputs).foldlM (kernel.subtractInput row)
      (Array.replicate kernel.points .one)
  let points ← (List.range kernel.points).mapM fun point =>
    (fetch distances point).map fun distance => (point, distance)
  let order := points.mergeSort fun left right => left.2.rank ≤ right.2.rank
  if order.length < kernel.neighbours then
    throw .outOfRange
  else
    let sums ← (order.take kernel.neighbours).foldlM kernel.addTarget (.zero, .zero)
    return #[sums.1 / sums.2]

/-- One distance after some of the inputs. -/
def partialDistance
    (kernel : Nearest)
    (row : Array Single)
    (count point : Nat) : Single :=
  count.fold
    (fun input _ sum => sum - kernel.coordinate point input * row.getD input .zero)
    .one

variable
  {kernel : Nearest}
  {row : Array Single}

/-- The distances so far are those of the inputs so far, and no access is out of range. -/
theorem foldlM_subtractInput
    {count : Nat}
    (takes : (Kernel.nearest kernel).Takes row.size)
    (within : count ≤ kernel.inputs) :
    (List.range count).foldlM (kernel.subtractInput row) (Array.replicate kernel.points .one) =
      .ok ((Array.range kernel.points).map (kernel.partialDistance row count)) := by
  induction count with
  | zero =>
      refine congrArg Except.ok (Array.ext ?_ ?_)
      · simp
      · intro point _ _
        simp [partialDistance]
  | succ count inductionHypothesis =>
      obtain ⟨inputs, weights, _⟩ := takes
      rw [List.range_succ, List.foldlM_append, inductionHypothesis (Nat.le_of_succ_le within)]
      have fetched : fetch row count = .ok (row.getD count .zero) :=
        fetch_eq_ok row (inputs ▸ within)
      have sliced := slice_matrix weights within
      simp only [List.foldlM_cons, List.foldlM_nil, subtractInput, bind, Except.bind, fetched,
        sliced, pure, Except.pure, zipWith_map_range]
      refine congrArg Except.ok (Array.map_congr_left fun point _ => ?_)
      simp only [partialDistance, Nat.fold_succ]
      rfl

/-- Points that are ordered by distance are points of the kernel. -/
theorem point_lt_of_mem_nearest
    {point : Nat × Single}
    (member : point ∈ kernel.nearest row) :
    point.1 < kernel.points := by
  have ordered := List.mem_mergeSort.mp (List.mem_of_mem_take member)
  obtain ⟨position, inRange, rfl⟩ := List.mem_map.mp ordered
  exact List.mem_range.mp inRange

/-- Summing up the targets of points of the kernel has no access out of range. -/
theorem foldlM_addTarget
    {points : List (Nat × Single)}
    (sums : Single × Single)
    (takes : (Kernel.nearest kernel).Takes row.size)
    (inside : ∀ point ∈ points, point.1 < kernel.points) :
    points.foldlM kernel.addTarget sums =
      .ok (points.foldl
        (fun sums point =>
          let inverse := .one / (point.2 + epsilon)
          (sums.1 + kernel.target.getD point.1 .zero * inverse, sums.2 + inverse))
        sums) := by
  induction points generalizing sums with
  | nil =>
      rfl
  | cons point rest inductionHypothesis =>
      obtain ⟨first, others⟩ := List.forall_mem_cons.mp inside
      have fetched := fetch_eq_ok kernel.target (takes.2.2.1.symm ▸ first)
      rw [List.foldlM_cons, addTarget, fetched]
      exact inductionHypothesis _ others

/-- Fetching the distances of all points has no access out of range. -/
theorem mapM_fetch
    (distances : Nat → Single)
    {points : List Nat}
    (inside : ∀ point ∈ points, point < kernel.points) :
    (points.mapM fun point =>
        (fetch ((Array.range kernel.points).map distances) point).map
          fun distance => (point, distance)) =
      .ok (points.map fun point => (point, distances point)) := by
  induction points with
  | nil =>
      rfl
  | cons point rest inductionHypothesis =>
      obtain ⟨first, others⟩ := List.forall_mem_cons.mp inside
      have fetched :
          fetch ((Array.range kernel.points).map distances) point = .ok (distances point) := by
        rw [fetch_eq_ok _ (by simpa using first)]
        simp [first]
      rw [List.mapM_cons, fetched, inductionHypothesis others]
      rfl

/-- A row is written without an access out of range, and it is what the kernel gives for it. -/
theorem rowWithin_eq
    (takes : (Kernel.nearest kernel).Takes row.size) :
    kernel.rowWithin row = .ok (kernel.apply row) := by
  have distances := foldlM_subtractInput takes (Nat.le_refl _)
  have inside : ∀ point ∈ List.range kernel.points, point < kernel.points :=
    fun point member => List.mem_range.mp member
  have points := mapM_fetch (kernel.partialDistance row kernel.inputs) inside
  have near : ∀ point ∈ kernel.nearest row, point.1 < kernel.points :=
    fun point member => point_lt_of_mem_nearest member
  have targets := foldlM_addTarget (.zero, .zero) takes near
  have enough :
      ¬(((List.range kernel.points).map fun point =>
          (point, kernel.partialDistance row kernel.inputs point)).mergeSort
            fun left right => left.2.rank ≤ right.2.rank).length < kernel.neighbours := by
    rw [List.length_mergeSort, List.length_map, List.length_range]
    exact Nat.not_lt.mpr takes.2.2.2.2
  rw [rowWithin, distances]
  simp only [bind, Except.bind, points, if_neg enough]
  exact congrArg (fun outcome => outcome.bind fun sums => .ok #[sums.1 / sums.2]) targets

end Nearest

end DpuCycles.Network
