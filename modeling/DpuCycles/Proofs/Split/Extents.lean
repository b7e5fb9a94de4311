import DpuCycles.Proofs.Split.Reach

namespace DpuCycles

/-!
# Inferred inputs give their outputs back

A cut infers an input extent from an output extent: boxes of a candidate with the
padding that they keep, rows of a tile with all padding of the layer.  The rules go
the other way and compute the output extent that an input gives.

Going there and back ends at the same extent as long as the padding never covers
all that the positions of the kernel reach, because then there is no input to
infer.  It could only do so around a single position of the kernel, with half of an
even kernel on both sides.  A layer like that has less input than one stride, and
the rules refuse it.
-/

namespace Capability

/-- Padded inputs are counted in 32-bit words. -/
def CountsInWords (table : Capability) : Prop :=
  table.spatialMax + max 1 table.kernelMax < 2 ^ 32

theorem countsInWords_of_mem_standard
    {table : Capability}
    (known : table ∈ standard) :
    table.CountsInWords := by
  obtain ⟨spatialMax, kernelMax⟩ := limits_of_mem_standard known
  unfold CountsInWords
  omega

end Capability

/-- An input that is filled by the positions of the kernel gives as many outputs as positions. -/
theorem outputExtent?_of_fills
    {input before after kernel stride output : Nat}
    (stridePositive : 0 < stride)
    (kernelPositive : 0 < kernel)
    (outputPositive : 0 < output)
    (isWord : output ≤ 2 ^ 32)
    (fills : input + before + after = (output - 1) * stride + kernel) :
    outputExtent? input before after kernel stride = some output := by
  have steps : (input + before + after - kernel) / stride = output - 1 := by
    rw [fills, Nat.add_sub_cancel, Nat.mul_div_cancel _ stridePositive]
  rw [outputExtent?, if_neg (by omega), steps, Nat.mod_eq_of_lt (by omega),
    Nat.sub_add_cancel outputPositive]

namespace Span

/-- A bounded span whose stride is within its input. -/
structure Legal
    (span : Span)
    (table : Capability) : Prop extends span.Bounded table where
  strideWithin : span.stride ≤ span.input

variable
  {span : Span}
  {piece : Nat × Nat}
  {table : Capability}

theorem Consistent.kernelPositive
    (consistent : span.Consistent) :
    0 < span.kernel := by
  have given := consistent.given
  unfold outputExtent? at given
  split at given
  · contradiction
  · omega

theorem Bounded.padding_le
    (bounded : span.Bounded table) :
    span.before + span.after ≤ span.kernel := by
  have beforeWithin := bounded.beforeWithin
  have afterWithin := bounded.afterWithin
  omega

/-- The positions of the kernel fill the padded input up to what is left over, counted in words. -/
theorem Bounded.positions
    (bounded : span.Bounded table)
    (words : table.CountsInWords) :
    span.input + span.before + span.after < 2 ^ 32 ∧
      span.kernel + (span.output - 1) * span.stride + span.leftOver =
        span.input + span.before + span.after := by
  have padding := bounded.padding_le
  have inputWithin := bounded.inputWithin
  have kernelWithin := bounded.kernelWithin
  unfold Capability.CountsInWords at words
  have small : span.input + span.before + span.after < 2 ^ 32 := by omega
  exact ⟨small, bounded.toConsistent.positions.2.2.2 small⟩

/-- A piece of an axis takes no more positions than there are. -/
theorem positions_le
    (stride : Nat)
    (positive : 0 < piece.2)
    (inside : piece.1 + piece.2 ≤ span.output) :
    (piece.2 - 1) * stride ≤ (span.output - 1) * stride :=
  Nat.mul_le_mul_right stride (by omega)

/-- The padding that a piece keeps never covers all that its positions reach. -/
theorem Legal.kept_lt
    (legal : span.Legal table)
    (words : table.CountsInWords)
    (positive : 0 < piece.2) :
    span.kept piece < (piece.2 - 1) * span.stride + span.kernel := by
  obtain ⟨stridePositive, _⟩ := legal.toConsistent.positions
  obtain ⟨_, fills⟩ := legal.toBounded.positions words
  have kernelPositive := legal.toConsistent.kernelPositive
  have strideWithin := legal.strideWithin
  have beforeWithin := legal.beforeWithin
  have afterWithin := legal.afterWithin
  have leftOver : span.leftOver < span.stride := Nat.mod_lt _ stridePositive
  by_cases single : piece.2 = 1
  · rw [single]
    by_cases whole : span.output = 1
    · -- A layer of one position has less input than a stride unless the kernel exceeds the padding.
      rw [whole] at fills
      have kept := span.kept_le piece
      omega
    · unfold kept
      split <;> split <;> omega
  · have steps : span.stride ≤ (piece.2 - 1) * span.stride :=
      Nat.le_mul_of_pos_left span.stride (by omega)
    have kept := span.kept_le piece
    omega

/-- A piece of an axis reads what makes its positions fill the padding that it keeps. -/
theorem Legal.read_add_kept
    (legal : span.Legal table)
    (words : table.CountsInWords)
    (positive : 0 < piece.2)
    (inside : piece.1 + piece.2 ≤ span.output) :
    span.read piece + span.kept piece = (piece.2 - 1) * span.stride + span.kernel := by
  obtain ⟨small, fills⟩ := legal.toBounded.positions words
  have notCovered := legal.kept_lt words positive
  have positions := positions_le span.stride positive inside
  rw [read, readExtent_eq _ _ _ positive, Nat.mod_eq_of_lt (by omega)]
  omega

/-- What a piece of an axis reads gives the piece, however its padding is distributed. -/
theorem Legal.outputExtent?_read
    (legal : span.Legal table)
    (words : table.CountsInWords)
    (piece : Nat × Nat)
    (positive : 0 < piece.2)
    (inside : piece.1 + piece.2 ≤ span.output)
    {before after : Nat}
    (keeps : before + after = span.kept piece) :
    outputExtent? (span.read piece) before after span.kernel span.stride = some piece.2 := by
  obtain ⟨stridePositive, _⟩ := legal.toConsistent.positions
  obtain ⟨small, fills⟩ := legal.toBounded.positions words
  have positions := positions_le span.stride positive inside
  have counted : piece.2 - 1 ≤ (piece.2 - 1) * span.stride :=
    Nat.le_mul_of_pos_right _ stridePositive
  have filled := legal.read_add_kept words positive inside
  exact outputExtent?_of_fills stridePositive legal.toConsistent.kernelPositive positive
    (by omega) (by omega)

/-- The input inferred for a piece with all padding gives the piece. -/
theorem Bounded.outputExtent?_inputExtent
    (bounded : span.Bounded table)
    (words : table.CountsInWords)
    {output : Nat}
    (positive : 0 < output)
    (within : output ≤ span.output) :
    outputExtent? (inputExtent output span.kernel (span.before + span.after) span.stride)
      span.before span.after span.kernel span.stride = some output := by
  obtain ⟨stridePositive, _⟩ := bounded.toConsistent.positions
  obtain ⟨small, fills⟩ := bounded.positions words
  have padding := bounded.padding_le
  have positions : (output - 1) * span.stride ≤ (span.output - 1) * span.stride :=
    Nat.mul_le_mul_right span.stride (by omega)
  have counted : output - 1 ≤ (output - 1) * span.stride :=
    Nat.le_mul_of_pos_right _ stridePositive
  have inferred :
      inputExtent output span.kernel (span.before + span.after) span.stride =
        (output - 1) * span.stride + span.kernel - (span.before + span.after) := by
    rw [inputExtent_eq _ _ _ positive]
    exact Nat.mod_eq_of_lt (by omega)
  exact outputExtent?_of_fills stridePositive bounded.toConsistent.kernelPositive positive
    (by omega) (by omega)

end Span

namespace Layer

variable
  {layer : Layer}
  {table : Capability}
  {options : SearchOptions}
  {processors limit : Nat}
  {boxes : List Workload}

/-- A layer that fits a table has legal columns and rows. -/
theorem Fits.legal
    (fits : layer.Fits table) :
    layer.columnSpan.Legal table ∧ layer.rowSpan.Legal table := by
  have regular := fits.regular
  obtain ⟨workload, family, isForm, _, kernel⟩ := fits
  obtain ⟨inputWidth, inputHeight, _, _, stride, _⟩ := plane_of_canonical isForm
  have strides := Rules.strides_of_kernel kernel
  have width : 0 < layer.input.shape.width := regular.columns.inputPositive
  have height : 0 < layer.input.shape.height := regular.rows.inputPositive
  simp only [Job.ofWorkload, inputWidth, inputHeight, stride, Nat.max_eq_left width,
    Nat.max_eq_left height] at strides
  exact ⟨⟨regular.columns, strides.1⟩, ⟨regular.rows, strides.2⟩⟩

/-- A box of a layer in one of its modes that stays inside the output. -/
structure HasBox
    (layer : Layer)
    (mode : ExecutionMode)
    (output : Shape)
    (offset : Offset) : Prop where
  mode : mode ∈ layer.modes
  widthPositive : 0 < output.width
  columnsInside : offset.x + output.width ≤ layer.output.shape.width
  heightPositive : 0 < output.height
  rowsInside : offset.y + output.height ≤ layer.output.shape.height
  channelsPositive : 0 < output.channels
  channelsInside : offset.channel + output.channels ≤ layer.output.shape.channels
  aligned : 16 ∣ layer.output.shape.channels → 16 ∣ output.channels
  oneImage : output.batch = 1

/-- The boxes of candidates are boxes of the layer. -/
theorem Regular.exists_box
    (regular : layer.Regular table)
    (member : boxes ∈ layer.candidates options processors limit)
    {box : Workload}
    (inBoxes : box ∈ boxes) :
    ∃ mode output offset, layer.HasBox mode output offset ∧ box = layer.box mode output offset := by
  obtain ⟨cut, _, mode, isMode, count, inPool, made⟩ := mem_candidates.mp member
  obtain ⟨axes, rfl⟩ :=
    boxes?_eq_boxes regular.columns.toConsistent.positions.2.1
      regular.rows.toConsistent.positions.2.1 regular.channelsPositive regular.oneImage
      (Cut.bounds_of_mem_pool inPool).1 made
  obtain ⟨row, inRows, column, inColumns, slice, inSlices, rfl⟩ := AxisCut.mem_boxes.mp inBoxes
  exact ⟨mode, ⟨column.2, row.2, slice.2, 1⟩, ⟨column.1, row.1, slice.1, 0⟩, {
    mode := isMode
    widthPositive := axes.columnsPartition.positive column inColumns
    columnsInside := axes.columnsPartition.inside column inColumns
    heightPositive := axes.rowsPartition.positive row inRows
    rowsInside := axes.rowsPartition.inside row inRows
    channelsPositive := axes.slicesPartition.positive slice inSlices
    channelsInside := axes.slicesPartition.inside slice inSlices
    aligned := fun whole => axes.aligned whole slice inSlices
    oneImage := rfl
  }, rfl⟩

/-- The input of a box gives its output. -/
theorem HasBox.outputExtents
    {mode : ExecutionMode}
    {output : Shape}
    {offset : Offset}
    (isBox : layer.HasBox mode output offset)
    (columns : layer.columnSpan.Legal table)
    (rows : layer.rowSpan.Legal table)
    (words : table.CountsInWords) :
    let box := layer.box mode output offset
    outputExtent? box.input.shape.width box.padding.left box.padding.right box.kernel.width
        box.stride.width = some box.output.shape.width ∧
      outputExtent? box.input.shape.height box.padding.top box.padding.bottom box.kernel.height
        box.stride.height = some box.output.shape.height := by
  intro box
  have keptColumns :
      box.padding.left + box.padding.right = layer.columnSpan.kept (offset.x, output.width) :=
    rfl
  have keptRows :
      box.padding.top + box.padding.bottom = layer.rowSpan.kept (offset.y, output.height) :=
    rfl
  exact ⟨columns.outputExtent?_read words (offset.x, output.width) isBox.widthPositive
      isBox.columnsInside keptColumns,
    rows.outputExtent?_read words (offset.y, output.height) isBox.heightPositive
      isBox.rowsInside keptRows⟩

/-- Pieces of a total are not empty and not greater than the total. -/
theorem bounds_of_mem_pieces
    {total size count piece : Nat}
    (sizePositive : 0 < size)
    (member : piece ∈ pieces total size count) :
    0 < piece ∧ piece ≤ total := by
  obtain ⟨position, inRange, rfl⟩ := List.mem_map.mp member
  have below : position < ceilDiv total size :=
    Nat.lt_of_lt_of_le (List.mem_range.mp inRange) (Nat.min_le_right _ _)
  have startsInside : position * size < total :=
    Nat.lt_of_not_le fun behind =>
      absurd ((ceilDiv_le_iff sizePositive).mpr behind) (Nat.not_le.mpr below)
  omega

/-- The tiles of a layer spread by rows compute some of its rows each. -/
theorem exists_of_mem_splitRows
    {tiles : Nat}
    {tile : Layer}
    (heightPositive : 0 < layer.output.shape.height)
    (member : tile ∈ layer.splitRows tiles) :
    ∃ rows, 0 < rows ∧ rows ≤ layer.output.shape.height ∧ tile = layer.withRows rows := by
  obtain ⟨rows, isPiece, rfl⟩ := List.mem_map.mp member
  have sizePositive : 0 < ceilDiv layer.output.shape.height (max tiles 1) :=
    ceilDiv_pos heightPositive (Nat.le_max_right tiles 1)
  obtain ⟨positive, within⟩ := bounds_of_mem_pieces sizePositive isPiece
  exact ⟨rows, positive, within, rfl⟩

/--
Whatever is inferred for a layer that fits a table, the rules agree with.  The input
of every box of a candidate gives the box its output, by the padding that the box
keeps, and the input of every tile that computes some of the rows gives these rows,
by all padding of the layer.
-/
theorem outputExtents_of_fits
    (fits : layer.Fits table)
    (words : table.CountsInWords) :
    (∀ options processors limit, ∀ boxes ∈ layer.candidates options processors limit,
        ∀ box ∈ boxes,
          outputExtent? box.input.shape.width box.padding.left box.padding.right
              box.kernel.width box.stride.width = some box.output.shape.width ∧
            outputExtent? box.input.shape.height box.padding.top box.padding.bottom
              box.kernel.height box.stride.height = some box.output.shape.height) ∧
      ∀ tiles, ∀ tile ∈ layer.splitRows tiles,
        outputExtent? tile.input.shape.height layer.workload.padding.top
          layer.workload.padding.bottom layer.workload.kernel.height
          layer.workload.stride.height = some tile.output.shape.height := by
  have regular := fits.regular
  obtain ⟨columns, rows⟩ := fits.legal
  constructor
  · intro options processors limit boxes member box inBoxes
    obtain ⟨mode, output, offset, isBox, rfl⟩ := regular.exists_box member inBoxes
    exact isBox.outputExtents columns rows words
  · intro tiles tile member
    obtain ⟨height, positive, within, rfl⟩ :=
      exists_of_mem_splitRows rows.toConsistent.positions.2.1 member
    exact rows.toBounded.outputExtent?_inputExtent words positive within

/-- The columns of the five by five points and their rows on two tiles give their outputs. -/
theorem outputExtents_of_fiveByFive :
    fiveByFive.Fits .vpu27 ∧
      Capability.vpu27.CountsInWords ∧
      fourAndOneColumns ∈
        fiveByFive.candidates { SearchOptions.initial with cuts := [.columns] } 2 2 ∧
      (∀ box ∈ fourAndOneColumns,
        outputExtent? box.input.shape.width box.padding.left box.padding.right
            box.kernel.width box.stride.width = some box.output.shape.width ∧
          outputExtent? box.input.shape.height box.padding.top box.padding.bottom
            box.kernel.height box.stride.height = some box.output.shape.height) ∧
      fiveByFive.splitRows 2 = [fiveByFive.withRows 3, fiveByFive.withRows 2] ∧
      outputExtent? (fiveByFive.withRows 2).input.shape.height 2 2 5 1 = some 2 := by
  have words : Capability.vpu27.CountsInWords :=
    Capability.countsInWords_of_mem_standard (by decide)
  obtain ⟨ofBoxes, ofTiles⟩ := outputExtents_of_fits fits_fiveByFive words
  have tiles : fiveByFive.splitRows 2 = [fiveByFive.withRows 3, fiveByFive.withRows 2] := by
    decide
  refine ⟨fits_fiveByFive, words, fourAndOneColumns_mem, ?_, tiles, ?_⟩
  · exact ofBoxes _ _ _ _ fourAndOneColumns_mem
  · exact ofTiles 2 (fiveByFive.withRows 2) (by simp [tiles])

end Layer

end DpuCycles
