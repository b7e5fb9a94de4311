import DpuCycles.Proofs.Split.Counts
import DpuCycles.Proofs.Split.Factorizations
import DpuCycles.Proofs.Split.Pieces

namespace DpuCycles

/-!
# Candidates tile the output of their layer

Each cut works on the axes one by one: the boxes of a candidate are all
combinations of a row, a column and a slice of channels.  When the pieces of
every axis partition it, the boxes partition the output.
-/

/-- A point of the output of a layer. -/
structure Point where
  x : Nat
  y : Nat
  channel : Nat
  deriving Repr, DecidableEq

namespace Shape

/-- Whether a point lies inside the extents, in the one image there is. -/
def Holds
    (shape : Shape)
    (point : Point) : Prop :=
  point.x < shape.width ∧ point.y < shape.height ∧ point.channel < shape.channels

end Shape

namespace Workload

/-- Whether a workload computes a point of the output of its layer. -/
def computes
    (point : Point)
    (workload : Workload) : Bool :=
  holds point.x (workload.offset.x, workload.output.shape.width) &&
    holds point.y (workload.offset.y, workload.output.shape.height) &&
    holds point.channel (workload.offset.channel, workload.output.shape.channels)

end Workload

/-- Workloads whose boxes partition an output of one image. -/
structure Tiles
    (whole : Shape)
    (boxes : List Workload) : Prop where
  once : ∀ point, whole.Holds point → boxes.countP (Workload.computes point) = 1
  inside : ∀ box ∈ boxes,
    box.offset.x + box.output.shape.width ≤ whole.width ∧
      box.offset.y + box.output.shape.height ≤ whole.height ∧
      box.offset.channel + box.output.shape.channels ≤ whole.channels
  positive : ∀ box ∈ boxes,
    0 < box.output.shape.width ∧ 0 < box.output.shape.height ∧ 0 < box.output.shape.channels
  oneImage : ∀ box ∈ boxes, box.offset.batch = 0 ∧ box.output.shape.batch = 1

/-- Parts that each count something alike, or nothing, count as many times as they do. -/
theorem countP_flatMap_of_each
    {test : β → Bool}
    {part : α → List β}
    {counts : α → Bool}
    {amount : Nat}
    (each : ∀ item, (part item).countP test = if counts item then amount else 0)
    (items : List α) :
    (items.flatMap part).countP test = items.countP counts * amount := by
  induction items with
  | nil =>
      simp
  | cons item rest inductionHypothesis =>
      rw [List.flatMap_cons, List.countP_append, inductionHypothesis, each, List.countP_cons]
      split <;> rw [Nat.add_mul] <;> omega

theorem mem_getD_nil
    {found : Option (List α)}
    {item : α} :
    item ∈ found.getD [] ↔ ∃ list, found = some list ∧ item ∈ list := by
  cases found <;> simp

/-- Each image of a partial map over a list is the image of one of its items. -/
theorem exists_of_mem_mapM
    {image? : α → Option β}
    {items : List α}
    {images : List β}
    {image : β}
    (mapped : items.mapM image? = some images)
    (member : image ∈ images) :
    ∃ item ∈ items, image? item = some image := by
  induction items generalizing images with
  | nil =>
      rw [List.mapM_nil, Option.pure_def, Option.some.injEq] at mapped
      subst images
      simp at member
  | cons item rest inductionHypothesis =>
      rw [List.mapM_cons] at mapped
      simp only [Option.bind_eq_bind, Option.bind_eq_some_iff, Option.pure_def,
        Option.some.injEq] at mapped
      obtain ⟨first, ofItem, others, ofRest, rfl⟩ := mapped
      rcases List.mem_cons.mp member with isFirst | inOthers
      · exact ⟨item, List.mem_cons_self, isFirst ▸ ofItem⟩
      · obtain ⟨other, inRest, ofOther⟩ := inductionHypothesis ofRest inOthers
        exact ⟨other, List.mem_cons_of_mem item inRest, ofOther⟩

namespace ExecutionMode

theorem grid_positive (mode : ExecutionMode) :
    0 < mode.grid.width ∧ 0 < mode.grid.height := by
  cases mode <;> decide

theorem grid_le (mode : ExecutionMode) :
    mode.grid.width ≤ 16 ∧ mode.grid.height ≤ 16 := by
  cases mode <;> decide

theorem grid_channels (mode : ExecutionMode) :
    mode.grid.channels = 16 := by
  cases mode <;> rfl

end ExecutionMode

namespace Layer

/-- Pieces of all axes of the output of a layer, with a bound on the number of boxes. -/
structure AxisCut
    (layer : Layer)
    (bound : Nat) where
  rows : List (Nat × Nat)
  columns : List (Nat × Nat)
  slices : List (Nat × Nat)
  rowsPartition : Partitions layer.output.shape.height rows
  columnsPartition : Partitions layer.output.shape.width columns
  slicesPartition : Partitions layer.output.shape.channels slices
  few : rows.length * (columns.length * slices.length) ≤ bound
  aligned : 16 ∣ layer.output.shape.channels → ∀ slice ∈ slices, 16 ∣ slice.2

namespace AxisCut

variable {layer : Layer} {bound : Nat}

/-- The workload of a row, a column and a slice. -/
def boxAt
    (layer : Layer)
    (mode : ExecutionMode)
    (row column slice : Nat × Nat) : Workload :=
  layer.box mode ⟨column.2, row.2, slice.2, 1⟩ ⟨column.1, row.1, slice.1, 0⟩

/-- The workloads of all combinations, row by row. -/
def boxes
    (cut : AxisCut layer bound)
    (mode : ExecutionMode) : List Workload :=
  cut.rows.flatMap fun row =>
    cut.columns.flatMap fun column => cut.slices.map (boxAt layer mode row column)

theorem computes_boxAt
    (mode : ExecutionMode)
    (row column slice : Nat × Nat)
    (point : Point) :
    (boxAt layer mode row column slice).computes point =
      (holds point.x column && holds point.y row && holds point.channel slice) :=
  rfl

theorem mem_boxes
    {cut : AxisCut layer bound}
    {mode : ExecutionMode}
    {box : Workload} :
    box ∈ cut.boxes mode ↔
      ∃ row ∈ cut.rows, ∃ column ∈ cut.columns, ∃ slice ∈ cut.slices,
        boxAt layer mode row column slice = box := by
  simp only [boxes, List.mem_flatMap, List.mem_map]

/-- As many boxes compute a point as there are combinations that hold it. -/
theorem countP_boxes
    (cut : AxisCut layer bound)
    (mode : ExecutionMode)
    (point : Point) :
    (cut.boxes mode).countP (Workload.computes point) =
      cut.rows.countP (holds point.y) *
        (cut.columns.countP (holds point.x) * cut.slices.countP (holds point.channel)) := by
  refine countP_flatMap_of_each (fun row => ?_) cut.rows
  have inRow : ∀ column,
      (cut.slices.map (boxAt layer mode row column)).countP (Workload.computes point) =
        if holds point.x column && holds point.y row then
          cut.slices.countP (holds point.channel)
        else
          0 := by
    intro column
    rw [List.countP_map]
    cases inside : holds point.x column && holds point.y row <;>
      simp [Function.comp_def, computes_boxAt, inside]
  rw [countP_flatMap_of_each inRow]
  cases holds point.y row <;> simp

theorem length_boxes
    (cut : AxisCut layer bound)
    (mode : ExecutionMode) :
    (cut.boxes mode).length = cut.rows.length * (cut.columns.length * cut.slices.length) := by
  simp [boxes, List.length_flatMap, List.map_const']

/-- The boxes of partitioned axes partition the output. -/
theorem tiles
    (cut : AxisCut layer bound)
    (mode : ExecutionMode) :
    Tiles layer.output.shape (cut.boxes mode) where
  once := by
    intro point inside
    rw [countP_boxes, cut.rowsPartition.once _ inside.2.1,
      cut.columnsPartition.once _ inside.1, cut.slicesPartition.once _ inside.2.2]
  inside := by
    intro box member
    obtain ⟨row, inRows, column, inColumns, slice, inSlices, rfl⟩ := mem_boxes.mp member
    exact ⟨cut.columnsPartition.inside column inColumns, cut.rowsPartition.inside row inRows,
      cut.slicesPartition.inside slice inSlices⟩
  positive := by
    intro box member
    obtain ⟨row, inRows, column, inColumns, slice, inSlices, rfl⟩ := mem_boxes.mp member
    exact ⟨cut.columnsPartition.positive column inColumns,
      cut.rowsPartition.positive row inRows, cut.slicesPartition.positive slice inSlices⟩
  oneImage := by
    intro box member
    obtain ⟨row, inRows, column, inColumns, slice, inSlices, rfl⟩ := mem_boxes.mp member
    exact ⟨rfl, rfl⟩

/-- Channels in whole steps are cut into slices of whole steps. -/
theorem aligned_boxes
    (cut : AxisCut layer bound)
    (mode : ExecutionMode)
    (whole : 16 ∣ layer.output.shape.channels) :
    ∀ box ∈ cut.boxes mode, 16 ∣ box.output.shape.channels := by
  intro box member
  obtain ⟨row, _, column, _, slice, inSlices, rfl⟩ := mem_boxes.mp member
  exact cut.aligned whole slice inSlices

end AxisCut

section Cuts

variable
  {layer : Layer}
  {mode : ExecutionMode}
  {boxes : List Workload}

/-- Uncut, the output of one image is a single box. -/
theorem wholeBox_eq_boxes
    (layer : Layer)
    (mode : ExecutionMode)
    (widthPositive : 0 < layer.output.shape.width)
    (heightPositive : 0 < layer.output.shape.height)
    (channelsPositive : 0 < layer.output.shape.channels)
    (oneImage : layer.output.shape.batch = 1) :
    ∃ cut : AxisCut layer 1, [layer.wholeBox mode] = cut.boxes mode := by
  refine ⟨{
    rows := [(0, layer.output.shape.height)]
    columns := [(0, layer.output.shape.width)]
    slices := [(0, layer.output.shape.channels)]
    rowsPartition := partitions_whole heightPositive
    columnsPartition := partitions_whole widthPositive
    slicesPartition := partitions_whole channelsPositive
    few := by simp
    aligned := by simp
  }, ?_⟩
  simp only [AxisCut.boxes, AxisCut.boxAt, wholeBox, List.flatMap_cons, List.flatMap_nil,
    List.map_cons, List.map_nil, List.append_nil]
  rw [← oneImage]

/-- Slices of channels leave the plane whole and partition the channels. -/
theorem cutChannels?_eq_boxes
    {count : Nat}
    {accepted : List Nat}
    (widthPositive : 0 < layer.output.shape.width)
    (heightPositive : 0 < layer.output.shape.height)
    (found : layer.cutChannels? mode count accepted = some boxes) :
    ∃ cut : AxisCut layer count, boxes = cut.boxes mode := by
  unfold cutChannels? at found
  dsimp only at found
  split at found
  · rename_i admissible
    obtain ⟨step, _, countPositive, _⟩ := admissible
    split at found
    · rename_i fit
      rw [Option.some.injEq] at found
      rw [ExecutionMode.grid_channels] at step fit found
      have sizeReaches :
          ceilDiv layer.output.shape.channels count ≤
            roundUp (ceilDiv layer.output.shape.channels count) 16 :=
        le_roundUp _ (by decide)
      generalize roundUp (ceilDiv layer.output.shape.channels count) 16 = size at *
      have reaches : layer.output.shape.channels ≤ size * count :=
        (ceilDiv_le_iff countPositive).mp sizeReaches
      have wholeSteps : ∀ slice ∈ slices layer.output.shape.channels size count,
          slice ≠ 0 ∧ 16 ∣ slice := by
        intro slice member
        have fits := List.all_eq_true.mp fit slice member
        simp only [Bool.and_eq_true, bne_iff_ne, beq_iff_eq] at fits
        exact ⟨fits.1.1, Nat.dvd_of_mod_eq_zero fits.1.2⟩
      -- A slice that is not empty starts inside: this is what the fit is checked for.
      have startsInside :
          ∀ index, index < count → index * size < layer.output.shape.channels := by
        intro index below
        have slice := wholeSteps _
          (List.mem_map.mpr ⟨index, List.mem_range.mpr below, rfl⟩)
        omega
      have sizePositive : 0 < size :=
        Nat.pos_of_mul_pos_right (Nat.lt_of_lt_of_le (Nat.lt_of_lt_of_le (by decide) step) reaches)
      refine ⟨{
        rows := [(0, layer.output.shape.height)]
        columns := [(0, layer.output.shape.width)]
        slices := evenPieces layer.output.shape.channels size count
        rowsPartition := partitions_whole heightPositive
        columnsPartition := partitions_whole widthPositive
        slicesPartition :=
          partitions_evenPieces sizePositive (Nat.mul_comm size count ▸ reaches) startsInside
        few := by simp [evenPieces]
        aligned := ?_
      }, ?_⟩
      · intro _ slice member
        obtain ⟨index, inRange, rfl⟩ := List.mem_map.mp member
        exact (wholeSteps _ (List.mem_map.mpr ⟨index, inRange, rfl⟩)).2
      · rw [← found]
        simp only [AxisCut.boxes, List.flatMap_cons, List.flatMap_nil, List.append_nil,
          ← zipIdx_slices, List.map_map]
        rfl
    · contradiction
  · contradiction

/-- A grid of the plane partitions its rows and its columns and leaves the channels whole. -/
theorem cutPlane?_eq_boxes
    {columns rows : Nat}
    (columnsPositive : 0 < columns)
    (rowsPositive : 0 < rows)
    (channelsPositive : 0 < layer.output.shape.channels)
    (found : layer.cutPlane? mode columns rows = some boxes) :
    ∃ cut : AxisCut layer (columns * rows), boxes = cut.boxes mode := by
  unfold cutPlane? at found
  dsimp only at found
  split at found
  · contradiction
  · rename_i notEmpty
    rw [Option.some.injEq, Nat.max_eq_left columnsPositive, Nat.max_eq_left rowsPositive] at found
    have steps := mode.grid_positive
    have widthReaches := le_roundUp (ceilDiv layer.output.shape.width columns) steps.1
    have heightReaches := le_roundUp (ceilDiv layer.output.shape.height rows) steps.2
    generalize roundUp (ceilDiv layer.output.shape.width columns) mode.grid.width = width at *
    generalize roundUp (ceilDiv layer.output.shape.height rows) mode.grid.height = height at *
    have widthPositive : 0 < width :=
      Nat.lt_of_lt_of_le (ceilDiv_pos (by omega) columnsPositive) widthReaches
    have heightPositive : 0 < height :=
      Nat.lt_of_lt_of_le (ceilDiv_pos (by omega) rowsPositive) heightReaches
    have fewColumns := length_segments_le columnsPositive widthPositive widthReaches
    have fewRows := length_segments_le rowsPositive heightPositive heightReaches
    refine ⟨{
      rows := segments layer.output.shape.height height
      columns := segments layer.output.shape.width width
      slices := [(0, layer.output.shape.channels)]
      rowsPartition := partitions_segments heightPositive
      columnsPartition := partitions_segments widthPositive
      slicesPartition := partitions_whole channelsPositive
      few := by
        rw [List.length_singleton, Nat.mul_one, Nat.mul_comm columns]
        exact Nat.mul_le_mul fewRows fewColumns
      aligned := by simp
    }, ?_⟩
    rw [← found]
    simp only [AxisCut.boxes, List.map_eq_flatMap]
    rfl

/-- A cut makes the whole output of one, and of other numbers slices of channels or a grid. -/
theorem exists_cut_of_boxes?
    {cut : Cut}
    {count : Nat}
    (member : boxes ∈ (cut.boxes? layer mode count).getD []) :
    count = 1 ∧ boxes = [layer.wholeBox mode] ∨
      (∃ accepted, layer.cutChannels? mode count accepted = some boxes) ∨
      ∃ columns rows, columns * rows = count ∧ layer.cutPlane? mode columns rows = some boxes := by
  unfold Cut.boxes? at member
  split at member
  · rename_i isOne
    exact .inl ⟨isOne, List.mem_singleton.mp member⟩
  · cases cut with
    | channels =>
        rw [Option.getD_some, Option.mem_toList] at member
        exact .inr (.inl ⟨_, member⟩)
    | plane =>
        obtain ⟨lists, made, inLists⟩ := mem_getD_nil.mp member
        dsimp only at made
        split at made
        · obtain ⟨⟨across, down⟩, inPairs, found⟩ := exists_of_mem_mapM made inLists
          have product := (mem_factorPairs.mp (List.mem_filter.mp inPairs).1).2.2
          exact .inr (.inr ⟨across, down, product, found⟩)
        · contradiction
    | rows =>
        obtain ⟨lists, made, inLists⟩ := mem_getD_nil.mp member
        obtain ⟨only, found, rfl⟩ := Option.map_eq_some_iff.mp made
        obtain rfl := List.mem_singleton.mp inLists
        exact .inr (.inr ⟨1, count, Nat.one_mul count, found⟩)
    | columns =>
        obtain ⟨lists, made, inLists⟩ := mem_getD_nil.mp member
        obtain ⟨only, found, rfl⟩ := Option.map_eq_some_iff.mp made
        obtain rfl := List.mem_singleton.mp inLists
        exact .inr (.inr ⟨count, 1, Nat.mul_one count, found⟩)

/-- Whatever a cut makes of a number, its boxes come from pieces of the axes. -/
theorem boxes?_eq_boxes
    {cut : Cut}
    {count : Nat}
    (widthPositive : 0 < layer.output.shape.width)
    (heightPositive : 0 < layer.output.shape.height)
    (channelsPositive : 0 < layer.output.shape.channels)
    (oneImage : layer.output.shape.batch = 1)
    (countPositive : 0 < count)
    (member : boxes ∈ (cut.boxes? layer mode count).getD []) :
    ∃ axes : AxisCut layer count, boxes = axes.boxes mode := by
  rcases exists_cut_of_boxes? member with
    ⟨rfl, rfl⟩ | ⟨accepted, found⟩ | ⟨columns, rows, rfl, found⟩
  · exact wholeBox_eq_boxes layer mode widthPositive heightPositive channelsPositive oneImage
  · exact cutChannels?_eq_boxes widthPositive heightPositive found
  · exact cutPlane?_eq_boxes (Nat.pos_of_mul_pos_right countPositive)
      (Nat.pos_of_mul_pos_left countPositive) channelsPositive found

end Cuts

/--
Every candidate partitions the output of its layer into boxes.  There are no more
of them than the limit allows, and channels in whole steps stay in whole steps.
-/
theorem tiles_of_mem_candidates
    (layer : Layer)
    (options : SearchOptions)
    (processors limit : Nat)
    {boxes : List Workload}
    (widthPositive : 1 ≤ layer.output.shape.width)
    (heightPositive : 1 ≤ layer.output.shape.height)
    (channelsPositive : 1 ≤ layer.output.shape.channels)
    (oneImage : layer.output.shape.batch = 1)
    (member : boxes ∈ layer.candidates options processors limit) :
    Tiles layer.output.shape boxes ∧
      1 ≤ boxes.length ∧ boxes.length ≤ max 1 limit ∧
      (16 ∣ layer.output.shape.channels →
        ∀ box ∈ boxes, 16 ∣ box.output.shape.channels) := by
  obtain ⟨cut, _, mode, _, count, inPool, inBoxes⟩ := mem_candidates.mp member
  have counted := Cut.bounds_of_mem_pool inPool
  obtain ⟨axes, rfl⟩ :=
    boxes?_eq_boxes widthPositive heightPositive channelsPositive oneImage counted.1 inBoxes
  have tiling := axes.tiles mode
  have corner : layer.output.shape.Holds ⟨0, 0, 0⟩ :=
    ⟨widthPositive, heightPositive, channelsPositive⟩
  refine ⟨tiling, ?_, ?_, axes.aligned_boxes mode⟩
  · calc 1
        = (axes.boxes mode).countP (Workload.computes ⟨0, 0, 0⟩) := (tiling.once _ corner).symm
      _ ≤ (axes.boxes mode).length := List.countP_le_length
  · rw [axes.length_boxes]
    exact Nat.le_trans axes.few counted.2

/-- A layer of 30 by 22 points. -/
def thirtyByTwentyTwo : Layer :=
  let tensor := Tensor.dense ⟨30, 22, 64, 1⟩ .uint8
  .ofWorkload (.plain .vpu20 .convolution tensor tensor .matrix)

/-- Its rows for two processors: whole blocks of four rows first, the rest after them. -/
def twentyTwoRows : List Workload :=
  [thirtyByTwentyTwo.box .matrix ⟨30, 12, 64, 1⟩ ⟨0, 0, 0, 0⟩,
    thirtyByTwentyTwo.box .matrix ⟨30, 10, 64, 1⟩ ⟨0, 12, 0, 0⟩]

/-- Twelve and ten rows are a candidate, and they partition the output. -/
theorem tiles_of_twentyTwoRows :
    twentyTwoRows ∈
        thirtyByTwentyTwo.candidates { SearchOptions.initial with cuts := [.rows] } 2 4 ∧
      Tiles ⟨30, 22, 64, 1⟩ twentyTwoRows ∧
      1 ≤ twentyTwoRows.length ∧ twentyTwoRows.length ≤ max 1 4 ∧
      (16 ∣ 64 → ∀ box ∈ twentyTwoRows, 16 ∣ box.output.shape.channels) := by
  have member :
      twentyTwoRows ∈
        thirtyByTwentyTwo.candidates { SearchOptions.initial with cuts := [.rows] } 2 4 :=
    mem_candidates.mpr
      ⟨.rows, by decide, .matrix, by decide, 2, by decide, List.mem_singleton.mpr (by rfl)⟩
  exact ⟨member, tiles_of_mem_candidates thirtyByTwentyTwo _ 2 4 (by decide) (by decide)
    (by decide) (by decide) member⟩

end Layer

end DpuCycles
