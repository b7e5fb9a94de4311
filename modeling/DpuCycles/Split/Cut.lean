import DpuCycles.Number.Multiple
import DpuCycles.Number.Rising
import DpuCycles.Number.Root
import DpuCycles.Split.Layer

namespace DpuCycles

/-!
# Cutting the layer of a tile into workloads

The output of a layer is cut into boxes on the grid of an execution mode, and
every box becomes one workload with the part of the input it needs.  A cut goes
along the channels or across the plane.
-/

/-- Ways to cut the output of a layer. -/
inductive Cut where
  /-- Across the plane, in every factorization of the number of workloads. -/
  | plane
  | channels
  | rows
  | columns
  deriving Repr, DecidableEq

instance : Enumerated Cut where
  domain := "VPUSplitStrategy"
  values := [.plane, .channels, .rows, .columns]
  label
    | .plane => "HwTiling"
    | .channels => "ZTiling"
    | .rows => "HTiling"
    | .columns => "WTiling"

namespace Layer

/-- Execution modes worth trying, in order. -/
def modes (layer : Layer) : List ExecutionMode :=
  if layer.device.isCuboid then
    match layer.operation with
    | .channelMajor => [.cuboid16x16]
    | .depthwise => [.cuboid16x16]
    | .avePool => [.cuboid16x16]
    | .maxPool => [.cuboid16x16]
    | .eltwise => [.cuboid8x16]
    | .eltwiseMul => [.cuboid8x16]
    | _ => [.cuboid16x16, .cuboid8x16, .cuboid4x16]
  else if layer.operation.isConvolution then
    [.matrix, .vector]
  else if layer.input.dtype.isFloat then
    [.vectorFp16]
  else
    [.vector]

/-- Whether slices of channels must have one of a few sizes. -/
def limitsChannels (layer : Layer) : Bool :=
  layer.device.isCuboid &&
    match layer.operation with
    | .channelMajor => true
    | .maxPool => true
    | .depthwise => true
    | .avePool => true
    | _ => false

/-- Sizes of the slices of channels when they are limited. -/
def limitedChannels : List Nat := [16, 32, 64]

/-- An edge keeps its padding only where a box touches it. -/
def paddingOf
    (layer : Layer)
    (output : Shape)
    (offset : Offset) : Padding :=
  let padding := layer.workload.padding
  let whole := layer.output.shape
  { top := if offset.y = 0 then padding.top else 0
    bottom := if offset.y + output.height = whole.height then padding.bottom else 0
    left := if offset.x = 0 then padding.left else 0
    right := if offset.x + output.width = whole.width then padding.right else 0 }

/-- The input extent a box reads, as a 32-bit word; at least one point. -/
def readExtent
    (output kernel padding stride : Nat) : Nat :=
  (max 1 (((output : Int) - 1) * stride + kernel - padding)).toNat % 2 ^ 32

/-- A workload of the layer with the padding and the input its output needs. -/
def inferInput
    (layer : Layer)
    (workload : Workload) : Workload :=
  let output := workload.output.shape
  let padding := layer.paddingOf output workload.offset
  let width :=
    readExtent output.width workload.kernel.width (padding.left + padding.right)
      workload.stride.width
  let height :=
    readExtent output.height workload.kernel.height (padding.top + padding.bottom)
      workload.stride.height
  let channels :=
    if workload.operation.isConvolution then layer.input.shape.channels else output.channels
  { workload with
    padding := padding
    input := { workload.input with shape := ⟨width, height, channels, output.batch⟩ } }

/-- The workload of a box of the output. -/
def box
    (layer : Layer)
    (mode : ExecutionMode)
    (output : Shape)
    (offset : Offset) : Workload :=
  layer.inferInput
    { layer.workload with
      output := { layer.workload.output with shape := output }
      offset := offset
      mode := mode }

/-- The whole output as one workload. -/
def wholeBox
    (layer : Layer)
    (mode : ExecutionMode) : Workload :=
  layer.box mode layer.output.shape ⟨0, 0, 0, 0⟩

/-- Channels of the slices when a number of slices is cut. -/
def slices
    (channels size count : Nat) : List Nat :=
  (List.range count).map fun position => min (channels - position * size) size

/--
Slices of channels, all but the last of the same size.  There are none unless
every slice is a whole number of grid steps and has an accepted size; no accepted
sizes accept every size.  More slices than channels would leave one empty.
-/
def cutChannels?
    (layer : Layer)
    (mode : ExecutionMode)
    (count : Nat)
    (accepted : List Nat) : Option (List Workload) :=
  let step := mode.grid.channels
  let output := layer.output.shape
  let size := roundUp (ceilDiv output.channels count) step
  let fits (slice : Nat) : Bool :=
    slice != 0 && slice % step == 0 && (accepted.isEmpty || accepted.contains slice)
  if step ≤ output.channels ∧ output.channels % step = 0 ∧
      0 < count ∧ count ≤ output.channels then
    let slices := slices output.channels size count
    if slices.all fits then
      some (slices.zipIdx.map fun (slice, position) =>
        layer.box mode ⟨output.width, output.height, slice, 1⟩ ⟨0, 0, position * size, 0⟩)
    else
      none
  else
    none

/-- A length cut into pieces of a size from the front, each with its start. -/
def segments
    (length size : Nat) : List (Nat × Nat) :=
  (List.range (ceilDiv length size)).map fun position =>
    (position * size, min (length - position * size) size)

/--
A grid of boxes, row by row.  The boxes have the size that the given numbers of
columns and rows call for, rounded up to whole grid steps, so there may be fewer
of them.  An empty plane has no boxes, nor are there boxes whose rounded size is
beyond 32 bits.
-/
def cutPlane?
    (layer : Layer)
    (mode : ExecutionMode)
    (columns rows : Nat) : Option (List Workload) :=
  let output := layer.output.shape
  let width := roundUp (ceilDiv output.width (max columns 1)) mode.grid.width
  let height := roundUp (ceilDiv output.height (max rows 1)) mode.grid.height
  if output.width = 0 ∨ output.height = 0 ∨ 2 ^ 32 ≤ max width height then
    none
  else
    some ((segments output.height height).flatMap fun (y, rowHeight) =>
      (segments output.width width).map fun (x, columnWidth) =>
        layer.box mode ⟨columnWidth, rowHeight, output.channels, 1⟩ ⟨x, y, 0, 0⟩)

end Layer

/-- A range divided by the powers of two that divide it, as long as the power stays below it. -/
def halvings
    (range limit : Nat) : List Nat :=
  let powers :=
    ((List.range 32).map fun exponent => 2 ^ exponent).filter fun power => decide (power < range)
  (powers.filter fun power => range % power == 0 && decide (range / power ≤ limit)).map
    fun power => range / power

/-- A halving is the quotient by a power of two below the range which leaves no rest. -/
theorem mem_halvings
    {range limit number : Nat} :
    number ∈ halvings range limit ↔
      ∃ exponent < 32, 2 ^ exponent < range ∧ 2 ^ exponent ∣ range ∧
        range / 2 ^ exponent = number ∧ number ≤ limit := by
  simp only [halvings, List.mem_map, List.mem_filter, List.mem_range, Bool.and_eq_true,
    beq_iff_eq, decide_eq_true_eq]
  constructor
  · rintro ⟨power, ⟨⟨⟨exponent, isExponent, rfl⟩, below⟩, divides, within⟩, rfl⟩
    exact ⟨exponent, isExponent, below, Nat.dvd_of_mod_eq_zero divides, rfl, within⟩
  · rintro ⟨exponent, isExponent, below, divides, rfl, within⟩
    exact ⟨2 ^ exponent, ⟨⟨⟨exponent, isExponent, rfl⟩, below⟩,
      Nat.mod_eq_zero_of_dvd divides, within⟩, rfl⟩

/-- Every pair of factors of a number, by rising smaller factor, the greater one first. -/
def factorPairs (number : Nat) : List (Nat × Nat) :=
  let small := (List.range' 1 (root number)).filter fun factor => number % factor == 0
  small.flatMap fun factor =>
    if factor = number / factor then
      [(factor, factor)]
    else
      [(number / factor, factor), (factor, number / factor)]

namespace Cut

/-- The multiples of a step up to a limit. -/
def multiples (step limit : Nat) : List Nat :=
  (List.range (limit / step)).map fun position => (position + 1) * step

/-- One, the multiples of the processors up to a limit, and some others, in rising order. -/
def counts
    (processors limit : Nat)
    (others : List Nat) : List Nat :=
  insertRising 1 (others.foldr insertRising (multiples (max processors 1) limit))

/-- A number is a multiple when the step divides it and it is neither zero nor too great. -/
theorem mem_multiples
    {step limit number : Nat}
    (positive : 0 < step) :
    number ∈ multiples step limit ↔ 0 < number ∧ number ≤ limit ∧ step ∣ number := by
  simp only [multiples, List.mem_map, List.mem_range]
  constructor
  · rintro ⟨position, below, rfl⟩
    exact ⟨Nat.mul_pos (Nat.succ_pos position) positive,
      (Nat.le_div_iff_mul_le positive).mp below, Nat.dvd_mul_left step (position + 1)⟩
  · rintro ⟨isPositive, within, factor, rfl⟩
    have factorPositive : 0 < factor := Nat.pos_of_mul_pos_left isPositive
    refine ⟨factor - 1, ?_, ?_⟩
    · have bound : factor ≤ limit / step :=
        (Nat.le_div_iff_mul_le positive).mpr (Nat.mul_comm step factor ▸ within)
      omega
    · rw [Nat.sub_add_cancel factorPositive, Nat.mul_comm]

/-- The numbers that are tried: one, the others and the multiples. -/
theorem mem_counts
    {processors limit number : Nat}
    {others : List Nat} :
    number ∈ counts processors limit others ↔
      number = 1 ∨ number ∈ others ∨ number ∈ multiples (max processors 1) limit := by
  have inserted : ∀ rest : List Nat,
      number ∈ others.foldr insertRising rest ↔ number ∈ others ∨ number ∈ rest := by
    intro rest
    induction others with
    | nil => simp
    | cons first others inductionHypothesis =>
        simp only [List.foldr_cons, mem_insertRising, inductionHypothesis, List.mem_cons, or_assoc]
  rw [counts, mem_insertRising, inserted]

/-- Numbers of slices that the usual sizes of slices lead to. -/
def sliceCounts (channels : Nat) : List Nat :=
  [16, 32, 32, 48, 64, 80, 128, 144].map fun size => ceilDiv channels size

/-- Numbers of slices of channels to try. -/
def channelCounts
    (layer : Layer)
    (processors : Nat)
    (mode : ExecutionMode)
    (limit : Nat) : List Nat :=
  let operation := layer.operation
  if processors = 1 ∧ (operation = .convolution ∨ operation = .eltwise) then
    [1]
  else if mode ≠ .vector ∧ operation ≠ .convolution then
    [1]
  else
    let slices := sliceCounts layer.output.shape.channels
    let most := min limit (slices.foldl max 0)
    counts processors most (slices.flatMap fun range => halvings range most)

/-- Numbers of boxes of the plane to try. -/
def planeCounts
    (layer : Layer)
    (processors : Nat)
    (mode : ExecutionMode)
    (limit : Nat) : List Nat :=
  if processors = 1 then
    [1]
  else
    let output := layer.output.shape
    let boxes :=
      word 32 (ceilDiv output.height mode.grid.height * ceilDiv output.width mode.grid.width)
    let most := min limit boxes
    counts processors most (halvings boxes most)

/-- Numbers of workloads to try, in rising order. -/
def pool
    (cut : Cut)
    (layer : Layer)
    (processors : Nat)
    (mode : ExecutionMode)
    (limit : Nat) : List Nat :=
  match cut with
  | .channels => channelCounts layer processors mode limit
  | _ => planeCounts layer processors mode limit

/-- Whether the factors of a number can be found: the square that ends the scan is a 32-bit word. -/
def canFactor (number : Nat) : Bool :=
  decide (number < 65535 * 65535)

/-- All ways to cut a layer into a number of workloads, `none` where that cannot be done. -/
def boxes?
    (cut : Cut)
    (layer : Layer)
    (mode : ExecutionMode)
    (count : Nat) : Option (List (List Workload)) :=
  if count = 1 then
    some [[layer.wholeBox mode]]
  else
    let output := layer.output.shape
    match cut with
    | .channels =>
        let accepted := if layer.limitsChannels then Layer.limitedChannels else []
        some (layer.cutChannels? mode count accepted).toList
    | .plane =>
        let pairs := (factorPairs count).filter fun (across, down) =>
          decide (across ≤ output.width ∧ down ≤ output.height)
        if canFactor count then
          pairs.mapM fun (across, down) => layer.cutPlane? mode across down
        else
          none
    | .rows => (layer.cutPlane? mode 1 count).map fun boxes => [boxes]
    | .columns => (layer.cutPlane? mode count 1).map fun boxes => [boxes]

end Cut

end DpuCycles
