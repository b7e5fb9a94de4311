import DpuCycles.Number.Single

namespace DpuCycles.Network

/-!
# Kernels of a network

Every kernel turns one row of numbers into one row.  A batch holds several rows
one after another, and a kernel treats each of them alone.  All arithmetic is in
32-bit floats, in the order in which it is written here; of two operands that
are no numbers the left one is handed on.
-/

/-- The greatest number of values in a buffer: it takes four bytes each, and less than `2 ^ 63`. -/
def capacity : Nat := (2 ^ 63 - 1) / 4

/-- A fully connected kernel; weight `i * outputs + j` joins input `i` to output `j`. -/
structure Dense where
  inputs : Nat
  outputs : Nat
  weight : Array Single
  bias : Array Single
  deriving Repr, DecidableEq

/--
Regression by the nearest reference points; weight `i * points + j` is coordinate
`i` of point `j`.
-/
structure Nearest where
  inputs : Nat
  points : Nat
  neighbours : Nat
  weight : Array Single
  target : Array Single
  deriving Repr, DecidableEq

/-- Numbers that make no kernel. -/
inductive KernelFault where
  | denseWeight (given inputs outputs : Nat)
  | denseBias (given outputs : Nat)
  /-- There is no room for as many zeros as a missing bias stands for. -/
  | noRoom (outputs : Nat)
  | nearestSizes (inputs points weights targets : Nat)
  | neighbours (given points : Nat)
  deriving Repr, DecidableEq

namespace KernelFault

/-- Text of a fault. -/
def message : KernelFault → String
  | .denseWeight given inputs outputs =>
      "dense weight has " ++ toString given ++ " values, expected " ++ toString inputs ++ "x" ++
        toString outputs
  | .denseBias given outputs =>
      "dense bias has " ++ toString given ++ " values, expected " ++ toString outputs
  | .noRoom outputs => "no room for " ++ toString outputs ++ " values"
  | .nearestSizes inputs points weights targets =>
      "knn expects weight " ++ toString inputs ++ "x" ++ toString points ++ " and " ++
        toString points ++ " targets, got " ++ toString weights ++ " and " ++ toString targets
  | .neighbours given points =>
      "knn n_neighbors " ++ toString given ++ " outside [1, " ++ toString points ++ "]"

end KernelFault

namespace Dense

/-- A dense kernel from its numbers.  A missing bias is zero. -/
def make
    (inputs outputs : Nat)
    (weight : Array Single)
    (bias? : Option (Array Single)) : Except KernelFault Dense :=
  if weight.size ≠ inputs * outputs then
    .error (.denseWeight weight.size inputs outputs)
  else
    match bias? with
    | none =>
        if capacity < outputs then
          .error (.noRoom outputs)
        else
          .ok ⟨inputs, outputs, weight, Array.replicate outputs .zero⟩
    | some bias =>
        if bias.size ≠ outputs then
          .error (.denseBias bias.size outputs)
        else
          .ok ⟨inputs, outputs, weight, bias⟩

/-- The weight that joins an input to an output. -/
def weightAt
    (kernel : Dense)
    (input output : Nat) : Single :=
  kernel.weight.getD (input * kernel.outputs + output) .zero

/-- One output: the bias, then every input that is not zero times its weight. -/
def outputAt
    (kernel : Dense)
    (row : Array Single)
    (output : Nat) : Single :=
  kernel.inputs.fold
    (fun input _ sum =>
      let value := row.getD input .zero
      if value.isZero then sum else kernel.weightAt input output * value + sum)
    (kernel.bias.getD output .zero)

/-- All outputs of a row. -/
def apply
    (kernel : Dense)
    (row : Array Single) : Array Single :=
  (Array.range kernel.outputs).map (kernel.outputAt row)

end Dense

namespace Nearest

/-- A kernel from its numbers. -/
def make
    (inputs points neighbours : Nat)
    (weight target : Array Single) : Except KernelFault Nearest :=
  if weight.size ≠ inputs * points ∨ target.size ≠ points then
    .error (.nearestSizes inputs points weight.size target.size)
  else if neighbours = 0 ∨ points < neighbours then
    .error (.neighbours neighbours points)
  else
    .ok ⟨inputs, points, neighbours, weight, target⟩

/-- Added to every distance, so that a point at distance zero has a finite weight. -/
def epsilon : Single := .ofFloat32 1e-12

/-- One coordinate of a point. -/
def coordinate
    (kernel : Nearest)
    (point input : Nat) : Single :=
  kernel.weight.getD (input * kernel.points + point) .zero

/-- Distance of a row to a point: one less the inner product. -/
def distance
    (kernel : Nearest)
    (row : Array Single)
    (point : Nat) : Single :=
  kernel.inputs.fold
    (fun input _ sum => sum - kernel.coordinate point input * row.getD input .zero)
    .one

/--
The nearest points with their distances, in the order of all floats; of equally
near points the earlier come first.
-/
def nearest
    (kernel : Nearest)
    (row : Array Single) : List (Nat × Single) :=
  let distances := (List.range kernel.points).map fun point => (point, kernel.distance row point)
  (distances.mergeSort fun left right => left.2.rank ≤ right.2.rank).take kernel.neighbours

/-- The targets of the nearest points, weighted by the inverse of the distance. -/
def apply
    (kernel : Nearest)
    (row : Array Single) : Array Single :=
  let step (sums : Single × Single) (point : Nat × Single) : Single × Single :=
    let inverse := .one / (point.2 + epsilon)
    (sums.1 + kernel.target.getD point.1 .zero * inverse, sums.2 + inverse)
  let sums := (kernel.nearest row).foldl step (.zero, .zero)
  #[sums.1 / sums.2]

end Nearest

/-- One kernel. -/
inductive Kernel where
  | dense (kernel : Dense)
  | relu
  | sigmoid
  | l2Norm
  | nearest (kernel : Nearest)
  deriving Repr, DecidableEq

namespace Kernel

/-- The positive part.  What is no number becomes zero. -/
def rectify (value : Single) : Single :=
  if value.isPositive then value else .zero

/-- The logistic function. -/
def logistic (value : Single) : Single :=
  .one / (.one + (-value).exp)

/-- A row divided by its length, unless that is not positive. -/
def normalized (row : Array Single) : Array Single :=
  let length := (row.foldl (fun sum value => sum + value * value) Single.zero).sqrt
  if length.isPositive then row.map (· / length) else row

/-- Width of the rows a kernel produces. -/
def outputWidth : Kernel → Nat → Nat
  | .dense kernel, _ => kernel.outputs
  | .nearest _, _ => 1
  | _, width => width

/-- Width of the rows a kernel needs, `none` when any width will do. -/
def inputWidth? : Kernel → Option Nat
  | .dense kernel => some kernel.inputs
  | .nearest kernel => some kernel.inputs
  | _ => none

/-- Written form of the kind of a kernel. -/
def label : Kernel → String
  | .dense _ => "dense"
  | .relu => "relu"
  | .sigmoid => "sigmoid"
  | .l2Norm => "l2_norm"
  | .nearest _ => "knn"

/-- One row through a kernel. -/
def apply : Kernel → Array Single → Array Single
  | .dense kernel, row => kernel.apply row
  | .relu, row => row.map rectify
  | .sigmoid, row => row.map logistic
  | .l2Norm, row => normalized row
  | .nearest kernel, row => kernel.apply row

/-- An access outside a buffer, a batch of no rows, or buffers that cannot be had. -/
inductive Fault where
  | outOfRange
  | emptyBatch
  | noRoom
  deriving Repr, DecidableEq

/-- A buffer whose first values are replaced. -/
def overwrite
    (values buffer : Array Single) : Array Single :=
  values ++ buffer.extract values.size buffer.size

/-- Replace each value by its image, as far as both buffers reach. -/
def forwardEach
    (image : Single → Single)
    (input output : Array Single) : Array Single :=
  overwrite ((input.extract 0 output.size).map image) output

/-- Send rows through a row function, one after another. -/
def forwardRows
    (image : Array Single → Array Single)
    (rows inputWidth outputWidth : Nat)
    (input output : Array Single) : Except Fault (Array Single) :=
  if rows * inputWidth ≤ input.size ∧ rows * outputWidth ≤ output.size then
    let images := (List.range rows).map fun row =>
      image (input.extract (row * inputWidth) (row * inputWidth + inputWidth))
    .ok (overwrite (images.foldl (· ++ ·) #[]) output)
  else
    .error .outOfRange

/-- A batch of rows through a kernel, written over the front of `output`. -/
def forward
    (kernel : Kernel)
    (rows width : Nat)
    (input output : Array Single) : Except Fault (Array Single) :=
  match kernel with
  | .dense matrix => forwardRows matrix.apply rows matrix.inputs matrix.outputs input output
  | .nearest points => forwardRows points.apply rows points.inputs 1 input output
  | .l2Norm => forwardRows normalized rows width width input output
  | .relu => .ok (forwardEach rectify input output)
  | .sigmoid => .ok (forwardEach logistic input output)

end Kernel

end DpuCycles.Network
