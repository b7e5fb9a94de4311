import DpuCycles.Proofs.Legality.Rulebook
import DpuCycles.Proofs.Split.LeastInput
import DpuCycles.Proofs.Split.Tiling

namespace DpuCycles

/-!
# What the boxes of a candidate read

A box reads the input that its output, the kernel and the stride call for, less
the padding it keeps; it keeps padding only where it touches an edge of the
output.  Away from the edges it reads input instead of padding, and that can be
input the layer does not have: what a box loses in padding must be made up for by
the strides that it leaves out.

Both axes of the plane follow the same arithmetic, so it is done on one span.
-/

namespace Layer

/-- The columns of a layer. -/
def columnSpan (layer : Layer) : Span where
  input := layer.input.shape.width
  output := layer.output.shape.width
  kernel := layer.workload.kernel.width
  stride := layer.workload.stride.width
  before := layer.workload.padding.left
  after := layer.workload.padding.right

/-- The rows of a layer. -/
def rowSpan (layer : Layer) : Span where
  input := layer.input.shape.height
  output := layer.output.shape.height
  kernel := layer.workload.kernel.height
  stride := layer.workload.stride.height
  before := layer.workload.padding.top
  after := layer.workload.padding.bottom

end Layer

namespace Span

/-- Padding that a piece of the output keeps, given by its start and its extent. -/
def kept
    (span : Span)
    (piece : Nat × Nat) : Nat :=
  (if piece.1 = 0 then span.before else 0) +
    if piece.1 + piece.2 = span.output then span.after else 0

/-- Input that a piece of the output reads. -/
def read
    (span : Span)
    (piece : Nat × Nat) : Nat :=
  Layer.readExtent piece.2 span.kernel (span.kept piece) span.stride

/-- Padded input behind the last position of the kernel. -/
def leftOver (span : Span) : Nat :=
  (span.input + span.before + span.after - span.kernel) % span.stride

/--
Padding that a piece loses beyond what is made up for: by the strides that it
leaves out, and by what is left over behind the last of them.
-/
def excess
    (span : Span)
    (piece : Nat × Nat) : Nat :=
  span.before + span.after - span.kept piece -
    ((span.output - piece.2) * span.stride + span.leftOver)

/-- A span whose output is the one its input gives. -/
structure Consistent (span : Span) : Prop where
  inputPositive : 0 < span.input
  given :
    outputExtent? span.input span.before span.after span.kernel span.stride = some span.output

/-- A consistent span within the bounds of a table. -/
structure Bounded
    (span : Span)
    (table : Capability) : Prop extends span.Consistent where
  inputWithin : span.input ≤ table.spatialMax
  kernelWithin : span.kernel ≤ max 1 table.kernelMax
  beforeWithin : span.before ≤ span.kernel / 2
  afterWithin : span.after ≤ span.kernel / 2

/--
What a piece reads is beyond the input by no more than its excess, and inside it
when no padding exceeds the stride.
-/
structure Reaches
    (span : Span)
    (piece : Nat × Nat)
    (read : Nat) : Prop where
  beyond : read ≤ span.input + span.excess piece
  inside : span.before ≤ span.stride → span.after ≤ span.stride → read ≤ span.input

variable
  {span : Span}
  {piece : Nat × Nat}
  {table : Capability}

theorem kept_le
    (span : Span)
    (piece : Nat × Nat) :
    span.kept piece ≤ span.before + span.after := by
  unfold kept
  split <;> split <;> omega

/-- The kernel at all its positions stays inside the padded input, and nearly fills it. -/
theorem Consistent.positions
    (consistent : span.Consistent) :
    0 < span.stride ∧
      0 < span.output ∧
      span.kernel + (span.output - 1) * span.stride + span.leftOver ≤
        span.input + span.before + span.after ∧
      (span.input + span.before + span.after < 2 ^ 32 →
        span.kernel + (span.output - 1) * span.stride + span.leftOver =
          span.input + span.before + span.after) := by
  have given := consistent.given
  unfold outputExtent? at given
  split at given
  · contradiction
  · rename_i regular
    rw [Option.some.injEq] at given
    have division := Nat.div_add_mod
      (span.input + span.before + span.after - span.kernel) span.stride
    rw [Nat.mul_comm] at division
    have quotient :
        (span.input + span.before + span.after - span.kernel) / span.stride ≤
          span.input + span.before + span.after - span.kernel :=
      Nat.div_le_self _ _
    unfold leftOver
    generalize (span.input + span.before + span.after - span.kernel) / span.stride = steps at *
    -- The output counts the steps as a word, so it may fall short of them.
    have isOutput : span.output - 1 = steps % 2 ^ 32 := by omega
    refine ⟨by omega, by omega, ?_, ?_⟩
    · have fewer : (span.output - 1) * span.stride ≤ steps * span.stride :=
        Nat.mul_le_mul_right _ (isOutput ▸ Nat.mod_le steps (2 ^ 32))
      omega
    · intro small
      have same : span.output - 1 = steps := by omega
      rw [same]
      omega

/-- The positions of a piece and those it leaves out are all positions. -/
theorem positions_split
    {part whole : Nat}
    (stride : Nat)
    (partPositive : 0 < part)
    (within : part ≤ whole) :
    (part - 1) * stride + (whole - part) * stride = (whole - 1) * stride := by
  rw [← Nat.add_mul]
  congr 1
  omega

theorem readExtent_eq
    {output : Nat}
    (kernel padding stride : Nat)
    (positive : 0 < output) :
    Layer.readExtent output kernel padding stride =
      max 1 ((output - 1) * stride + kernel - padding) % 2 ^ 32 := by
  rw [Layer.readExtent, positions_cast stride positive]
  congr 1
  omega

/--
A piece reads beyond the input by no more than its excess, and by exactly that
much when the padded input is counted in 32 bits.
-/
theorem Consistent.read_sub_input
    (consistent : span.Consistent)
    (positive : 0 < piece.2)
    (within : piece.2 ≤ span.output) :
    span.read piece - span.input ≤ span.excess piece ∧
      (span.input + span.before + span.after < 2 ^ 32 →
        span.read piece - span.input = span.excess piece) := by
  obtain ⟨_, _, inside, fills⟩ := consistent.positions
  have inputPositive := consistent.inputPositive
  have split := positions_split span.stride positive within
  have keptWithin := span.kept_le piece
  rw [read, readExtent_eq _ _ _ positive, excess]
  constructor
  · have word :
        max 1 ((piece.2 - 1) * span.stride + span.kernel - span.kept piece) % 2 ^ 32 ≤
          max 1 ((piece.2 - 1) * span.stride + span.kernel - span.kept piece) :=
      Nat.mod_le _ _
    omega
  · intro small
    have filled := fills small
    rw [Nat.mod_eq_of_lt (by omega)]
    omega

/-- Padding within a stride, dropped at an edge that is some steps away, is within their strides. -/
theorem dropped_le
    {touches : Prop}
    [Decidable touches]
    {padding stride steps : Nat}
    (within : padding ≤ stride)
    (away : ¬touches → 0 < steps) :
    padding - (if touches then padding else 0) ≤ steps * stride := by
  split
  · omega
  · rename_i apart
    calc padding - 0
        ≤ stride := within
      _ ≤ steps * stride := Nat.le_mul_of_pos_left stride (away apart)

/-- A piece loses no more padding than it leaves out strides when no padding exceeds a stride. -/
theorem excess_eq_zero
    (inside : piece.1 + piece.2 ≤ span.output)
    (beforeWithin : span.before ≤ span.stride)
    (afterWithin : span.after ≤ span.stride) :
    span.excess piece = 0 := by
  have front :
      span.before - (if piece.1 = 0 then span.before else 0) ≤ piece.1 * span.stride :=
    dropped_le beforeWithin Nat.pos_of_ne_zero
  have behind :
      span.after - (if piece.1 + piece.2 = span.output then span.after else 0) ≤
        (span.output - (piece.1 + piece.2)) * span.stride :=
    dropped_le afterWithin fun apart => by omega
  have strides :
      piece.1 * span.stride + (span.output - (piece.1 + piece.2)) * span.stride =
        (span.output - piece.2) * span.stride := by
    rw [← Nat.add_mul]
    congr 1
    omega
  unfold excess kept
  omega

theorem Bounded.reaches
    (bounded : span.Bounded table)
    (positive : 0 < piece.2)
    (inside : piece.1 + piece.2 ≤ span.output) :
    span.Reaches piece (span.read piece) := by
  have beyond := (bounded.toConsistent.read_sub_input positive (by omega)).1
  refine ⟨by omega, fun beforeWithin afterWithin => ?_⟩
  have none := excess_eq_zero inside beforeWithin afterWithin
  omega

/-- The standard tables keep the padded input far below the words it is counted in. -/
theorem Bounded.padded_lt
    (bounded : span.Bounded table)
    (standard : table ∈ Capability.standard) :
    span.input + span.before + span.after < 2 ^ 32 := by
  have limits := Capability.limits_of_mem_standard standard
  have inputWithin := bounded.inputWithin
  have kernelWithin := bounded.kernelWithin
  have beforeWithin := bounded.beforeWithin
  have afterWithin := bounded.afterWithin
  omega

end Span

theorem Family.kernelMax_le
    (family : Family)
    (table : Capability) :
    family.kernelMax table ≤ max 1 table.kernelMax := by
  cases family with
  | eltwise => exact Nat.le_max_left 1 table.kernelMax
  | convolution | channelMajor | depthwise | maxPool => exact Nat.le_max_right 1 table.kernelMax

namespace Layer

/--
The tensors and the kernel of a layer break no rule of a table, those of its
workload as it is or of its canonical form.
-/
def Fits
    (layer : Layer)
    (table : Capability) : Prop :=
  ∃ workload family,
    (workload = layer.workload ∨ workload = layer.workload.canonicalize.fold table) ∧
      Rules.tensors table (.ofWorkload workload family) = [] ∧
      Rules.kernel table (.ofWorkload workload family) = []

/-- A layer of one image with channels, whose columns and rows are bounded by a table. -/
structure Regular
    (layer : Layer)
    (table : Capability) : Prop where
  channelsPositive : 0 < layer.output.shape.channels
  oneImage : layer.output.shape.batch = 1
  columns : layer.columnSpan.Bounded table
  rows : layer.rowSpan.Bounded table

variable
  {layer : Layer}
  {table : Capability}
  {options : SearchOptions}
  {processors limit : Nat}
  {boxes : List Workload}

/-- A workload and its canonical form have their planes in common. -/
theorem plane_of_canonical
    {workload : Workload}
    (isForm :
      workload = layer.workload ∨ workload = layer.workload.canonicalize.fold table) :
    workload.input.shape.width = layer.input.shape.width ∧
      workload.input.shape.height = layer.input.shape.height ∧
      workload.output.shape = layer.output.shape ∧
      workload.kernel = layer.workload.kernel ∧
      workload.stride = layer.workload.stride ∧
      workload.padding = layer.workload.padding := by
  rcases isForm with rfl | rfl
  · exact ⟨rfl, rfl, rfl, rfl, rfl, rfl⟩
  · simp only [Workload.canonicalize]
    split <;> exact ⟨rfl, rfl, rfl, rfl, rfl, rfl⟩

theorem Fits.regular
    (fits : layer.Fits table) :
    layer.Regular table := by
  obtain ⟨workload, family, isForm, tensors, kernel⟩ := fits
  obtain ⟨inputWidth, inputHeight, output, sameKernel, stride, padding⟩ :=
    plane_of_canonical isForm
  have planes := Rules.planes_of_tensors tensors
  have windows := Rules.planes_of_kernel kernel
  simp only [Job.ofWorkload, inputWidth, inputHeight, output, sameKernel, stride, padding]
    at planes windows
  have kernelMax := family.kernelMax_le table
  obtain ⟨⟨width, widthMax⟩, ⟨height, heightMax⟩, channels, oneImage⟩ := planes
  obtain ⟨⟨kernelWidth, left, right, outputWidth⟩, kernelHeight, top, bottom, outputHeight⟩ :=
    windows
  exact {
    channelsPositive := channels
    oneImage := oneImage
    columns := ⟨⟨width, outputWidth⟩, widthMax, Nat.le_trans kernelWidth kernelMax, left, right⟩
    rows := ⟨⟨height, outputHeight⟩, heightMax, Nat.le_trans kernelHeight kernelMax, top, bottom⟩
  }

/-- A box of a regular layer reads what its pieces of the two axes read. -/
theorem Regular.pieces_of_mem_candidates
    (regular : layer.Regular table)
    (member : boxes ∈ layer.candidates options processors limit)
    {box : Workload}
    (inBoxes : box ∈ boxes) :
    (0 < box.output.shape.width ∧
        box.offset.x + box.output.shape.width ≤ layer.columnSpan.output ∧
        box.input.shape.width =
          layer.columnSpan.read (box.offset.x, box.output.shape.width)) ∧
      0 < box.output.shape.height ∧
        box.offset.y + box.output.shape.height ≤ layer.rowSpan.output ∧
        box.input.shape.height =
          layer.rowSpan.read (box.offset.y, box.output.shape.height) := by
  obtain ⟨cut, _, mode, _, count, inPool, made⟩ := mem_candidates.mp member
  obtain ⟨axes, rfl⟩ :=
    boxes?_eq_boxes regular.columns.positions.2.1 regular.rows.positions.2.1
      regular.channelsPositive regular.oneImage (Cut.bounds_of_mem_pool inPool).1 made
  obtain ⟨row, inRows, column, inColumns, slice, _, rfl⟩ := AxisCut.mem_boxes.mp inBoxes
  exact ⟨⟨axes.columnsPartition.positive column inColumns,
      axes.columnsPartition.inside column inColumns, rfl⟩,
    axes.rowsPartition.positive row inRows, axes.rowsPartition.inside row inRows, rfl⟩

/--
A box of a candidate reads beyond its layer's input by no more than the padding
that it loses and does not make up for, and reads nothing beyond it along an axis
whose padding is within the stride.  With the standard tables what it reads beyond
the input is exactly that excess.
-/
theorem reaches_of_mem_candidates
    (fits : layer.Fits table)
    (member : boxes ∈ layer.candidates options processors limit) :
    ∀ box ∈ boxes,
      layer.columnSpan.Reaches (box.offset.x, box.output.shape.width) box.input.shape.width ∧
        layer.rowSpan.Reaches (box.offset.y, box.output.shape.height) box.input.shape.height ∧
        (table ∈ Capability.standard →
          box.input.shape.width - layer.input.shape.width =
              layer.columnSpan.excess (box.offset.x, box.output.shape.width) ∧
            box.input.shape.height - layer.input.shape.height =
              layer.rowSpan.excess (box.offset.y, box.output.shape.height)) := by
  intro box inBoxes
  have regular := fits.regular
  obtain ⟨⟨widthPositive, columnsInside, width⟩, heightPositive, rowsInside, height⟩ :=
    regular.pieces_of_mem_candidates member inBoxes
  rw [width, height]
  refine ⟨regular.columns.reaches widthPositive columnsInside,
    regular.rows.reaches heightPositive rowsInside, fun standard => ⟨?_, ?_⟩⟩
  · exact (regular.columns.read_sub_input widthPositive (by omega)).2
      (regular.columns.padded_lt standard)
  · exact (regular.rows.read_sub_input heightPositive (by omega)).2
      (regular.rows.padded_lt standard)

/-- A layer of five by five points whose kernel is as large, padded by half of it. -/
def fiveByFive : Layer :=
  let tensor := Tensor.dense ⟨5, 5, 64, 1⟩ .uint8
  .ofWorkload
    { Workload.plain .vpu27 .convolution tensor tensor .cuboid16x16 with
      kernel := ⟨5, 5⟩
      padding := ⟨2, 2, 2, 2⟩ }

/-- Its columns for two processors: a block of four, and the one that is left. -/
def fourAndOneColumns : List Workload :=
  [fiveByFive.box .cuboid16x16 ⟨4, 5, 64, 1⟩ ⟨0, 0, 0, 0⟩,
    fiveByFive.box .cuboid16x16 ⟨1, 5, 64, 1⟩ ⟨4, 0, 0, 0⟩]

theorem fits_fiveByFive :
    fiveByFive.Fits .vpu27 :=
  ⟨fiveByFive.workload, .convolution, .inl rfl, by decide, by decide⟩

theorem fourAndOneColumns_mem :
    fourAndOneColumns ∈
      fiveByFive.candidates { SearchOptions.initial with cuts := [.columns] } 2 2 :=
  mem_candidates.mpr
    ⟨.columns, by decide, .cuboid16x16, by decide, 2, by decide, List.mem_singleton.mpr (by rfl)⟩

/-- The block of four reads a column more than there is: the excess of its piece. -/
theorem reaches_of_fourAndOneColumns :
    fiveByFive.Fits .vpu27 ∧
      Capability.vpu27 ∈ Capability.standard ∧
      fourAndOneColumns ∈
        fiveByFive.candidates { SearchOptions.initial with cuts := [.columns] } 2 2 ∧
      fiveByFive.columnSpan.excess (0, 4) = 1 ∧
      ∀ box ∈ fourAndOneColumns,
        box.input.shape.width - 5 =
            fiveByFive.columnSpan.excess (box.offset.x, box.output.shape.width) ∧
          box.input.shape.height - 5 =
            fiveByFive.rowSpan.excess (box.offset.y, box.output.shape.height) := by
  have standard : Capability.vpu27 ∈ Capability.standard := by decide
  refine ⟨fits_fiveByFive, standard, fourAndOneColumns_mem, by decide, ?_⟩
  intro box inBoxes
  exact (reaches_of_mem_candidates fits_fiveByFive fourAndOneColumns_mem box inBoxes).2.2 standard

/-- So not every box of a candidate stays inside the input of its layer. -/
theorem fourColumns_beyond :
    fiveByFive.Fits .vpu27 ∧
      fourAndOneColumns ∈
        fiveByFive.candidates { SearchOptions.initial with cuts := [.columns] } 2 2 ∧
      ¬ ∀ box ∈ fourAndOneColumns,
        box.input.shape.width ≤ fiveByFive.input.shape.width ∧
          box.input.shape.height ≤ fiveByFive.input.shape.height :=
  ⟨fits_fiveByFive, fourAndOneColumns_mem, by decide⟩

end Layer

end DpuCycles
