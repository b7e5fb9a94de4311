import DpuCycles.Proofs.Descriptor.Admitted
import DpuCycles.Proofs.Legality.Recut
import DpuCycles.Proofs.Split.Extents

namespace DpuCycles

/-!
# Why a box is refused

A box of an admitted layer has the job of the layer, recut.  Whether it needs too
much memory is another matter, but nearly all rules are kept: the input of a box
gives its output, dropped padding breaks nothing, and slices of channels have the
sizes that the rules ask for.

What a box can break is the rule that no stride is larger than the input.  It only
compares the two where the kernel does not move: a box of one column reads a kernel
less the padding that it keeps, and this can be less than the stride.
-/

namespace Layer

variable
  {layer : Layer}
  {mode : ExecutionMode}
  {options : SearchOptions}
  {processors limit : Nat}
  {boxes : List Workload}
  {box : Workload}

/-- The columns and the rows of a box are all those of the layer, or about half of them at most. -/
def IsHalfPlane
    (layer : Layer)
    (box : Workload) : Prop :=
  IsHalf layer.output.shape.width box.output.shape.width ∧
    IsHalf layer.output.shape.height box.output.shape.height

theorem isHalfPlane_of_cutChannels?
    {count : Nat}
    {accepted : List Nat}
    (found : layer.cutChannels? mode count accepted = some boxes)
    (inBoxes : box ∈ boxes) :
    layer.IsHalfPlane box := by
  unfold cutChannels? at found
  dsimp only at found
  split at found
  · split at found
    · rw [Option.some.injEq] at found
      subst found
      obtain ⟨slice, _, rfl⟩ := List.mem_map.mp inBoxes
      exact ⟨.inl rfl, .inl rfl⟩
    · contradiction
  · contradiction

theorem isHalfPlane_of_cutPlane?
    {columns rows : Nat}
    (found : layer.cutPlane? mode columns rows = some boxes)
    (inBoxes : box ∈ boxes) :
    layer.IsHalfPlane box := by
  unfold cutPlane? at found
  dsimp only at found
  split at found
  · contradiction
  · rw [Option.some.injEq] at found
    subst found
    obtain ⟨row, inRows, inRow⟩ := List.mem_flatMap.mp inBoxes
    obtain ⟨column, inColumns, rfl⟩ := List.mem_map.mp inRow
    have positive := mode.grid_positive
    have within := mode.grid_le
    exact ⟨isHalf_of_mem_segments (Nat.le_max_right columns 1) positive.1 within.1 inColumns,
      isHalf_of_mem_segments (Nat.le_max_right rows 1) positive.2 within.2 inRows⟩

theorem isHalfPlane_of_mem_candidates
    (member : boxes ∈ layer.candidates options processors limit)
    (inBoxes : box ∈ boxes) :
    layer.IsHalfPlane box := by
  obtain ⟨cut, _, mode, _, count, _, made⟩ := mem_candidates.mp member
  rcases exists_cut_of_boxes? made with
    ⟨_, rfl⟩ | ⟨accepted, found⟩ | ⟨columns, rows, _, found⟩
  · obtain rfl := List.mem_singleton.mp inBoxes
    exact ⟨.inl rfl, .inl rfl⟩
  · exact isHalfPlane_of_cutChannels? found inBoxes
  · exact isHalfPlane_of_cutPlane? found inBoxes

end Layer

namespace Span

variable
  {span : Span}
  {table : Capability}
  {piece : Nat × Nat}

/-- Pieces that are the whole axis or about half of it read no more than the table allows. -/
theorem Bounded.read_le
    (bounded : span.Bounded table)
    (known : table ∈ Capability.standard)
    (piece : Nat × Nat)
    (positive : 0 < piece.2)
    (inside : piece.1 + piece.2 ≤ span.output)
    (isHalf : Layer.IsHalf span.output piece.2) :
    span.read piece ≤ table.spatialMax := by
  have limits := Capability.limits_of_mem_standard known
  have reaches := bounded.reaches positive inside
  have inputWithin := bounded.inputWithin
  by_cases short : span.before ≤ span.stride ∧ span.after ≤ span.stride
  · exact Nat.le_trans (reaches.inside short.1 short.2) inputWithin
  · rcases isHalf with whole | half
    · have nothing : span.excess piece = 0 := by
        have start : piece.1 = 0 := by omega
        simp [excess, kept, start, whole]
      have beyond := reaches.beyond
      omega
    · -- Longer padding than a stride means a small stride, and half of the positions is far within.
      have smallStride : span.stride ≤ 5 := by
        have kernelWithin := bounded.kernelWithin
        have beforeWithin := bounded.beforeWithin
        have afterWithin := bounded.afterWithin
        omega
      obtain ⟨_, _, fills, _⟩ := bounded.toConsistent.positions
      have halfOfPositions :
          2 * (piece.2 - 1) * span.stride ≤ (span.output - 1 + 30) * span.stride :=
        Nat.mul_le_mul_right _ (by omega)
      rw [Nat.mul_assoc, Nat.add_mul] at halfOfPositions
      have padding := bounded.padding_le
      have kernelWithin := bounded.kernelWithin
      calc span.read piece
          ≤ max 1 ((piece.2 - 1) * span.stride + span.kernel - span.kept piece) := by
            rw [read, readExtent_eq _ _ _ positive]
            exact Nat.mod_le _ _
        _ ≤ table.spatialMax := by omega

theorem Legal.read_positive
    (legal : span.Legal table)
    (words : table.CountsInWords)
    (piece : Nat × Nat)
    (positive : 0 < piece.2)
    (inside : piece.1 + piece.2 ≤ span.output) :
    0 < span.read piece := by
  have filled := legal.read_add_kept words positive inside
  have notCovered := legal.kept_lt words positive
  omega

/--
The stride is larger than what a piece reads exactly when the piece is a single
position, whose kernel does not reach over the stride and the padding that is kept.
-/
theorem Legal.overstep_iff
    (legal : span.Legal table)
    (words : table.CountsInWords)
    (axis : Axis)
    (piece : Nat × Nat)
    (positive : 0 < piece.2)
    (inside : piece.1 + piece.2 ≤ span.output) :
    Rules.overstep axis span.stride (span.read piece) ≠ [] ↔
      piece.2 = 1 ∧ span.kernel < span.stride + span.kept piece := by
  have filled := legal.read_add_kept words positive inside
  have notCovered := legal.kept_lt words positive
  have keptWithin := span.kept_le piece
  have padding := legal.toBounded.padding_le
  rw [Ne, Rules.overstep_eq_nil]
  by_cases single : piece.2 = 1
  · rw [single] at filled notCovered
    omega
  · have steps : span.stride ≤ (piece.2 - 1) * span.stride :=
      Nat.le_mul_of_pos_left span.stride (by omega)
    omega

end Span

namespace Workload

/-- The findings of strides that are larger than the input. -/
def oversteps (workload : Workload) : List Finding :=
  Rules.overstep .width workload.stride.width workload.input.shape.width ++
    Rules.overstep .height workload.stride.height workload.input.shape.height

end Workload

/-- What a job has of its own among the jobs of the parts of a layer. -/
def Recut.ofJob (job : Job) : Recut where
  input := job.input.shape
  weights := job.weights.shape
  output := job.output.shape
  padding := job.padding
  mode := job.mode
  offset := job.offset

namespace Layer

section Boxes

variable
  (layer : Layer)
  (mode : ExecutionMode)
  (output : Shape)
  (offset : Offset)

/-- A box sums over as many input channels as its layer, so it has the operation of its layer. -/
theorem canonicalOperation_box :
    (layer.box mode output offset).canonicalOperation = layer.workload.canonicalOperation := by
  have sameOperation : (layer.box mode output offset).operation = layer.workload.operation := rfl
  cases isOperation : layer.workload.operation with
  | convolution =>
      have sameChannels :
          (layer.box mode output offset).input.shape.channels =
            layer.workload.input.shape.channels := by
        simp [box, inferInput, isOperation, Operation.isConvolution, input]
      simp only [Workload.canonicalOperation, sameOperation, isOperation, sameChannels]
  | depthwise | eltwise | maxPool | avePool | channelMajor | layerNorm | eltwiseMul =>
      simp only [Workload.canonicalOperation, sameOperation, isOperation]

/-- The job of a box is the job of its layer, recut. -/
theorem ofWorkload_box
    (table : Capability)
    (family : Family) :
    let whole := Job.ofWorkload (layer.workload.canonicalize.fold table) family
    let part := Job.ofWorkload ((layer.box mode output offset).canonicalize.fold table) family
    part = whole.recut (.ofJob part) := by
  simp only [Workload.canonicalize_eq, canonicalOperation_box]
  cases family <;> rfl

/-- Where channels are kept a box has those of its output, and those of the layer otherwise. -/
theorem channels_box
    (executed : layer.workload.canonicalOperation ≠ .layerNorm) :
    (layer.box mode output offset).canonicalize.input.shape.channels =
      if layer.workload.canonicalOperation.keepsChannels then
        output.channels
      else
        layer.workload.input.shape.channels := by
  rw [Workload.canonicalize_eq, canonicalOperation_box]
  cases keeps : layer.workload.canonicalOperation.keepsChannels with
  | true =>
      rfl
  | false =>
      have sums : layer.workload.operation.isConvolution = true := by
        cases isOperation : layer.workload.operation with
        | convolution | channelMajor =>
            rfl
        | layerNorm =>
            exact absurd (by simp only [Workload.canonicalOperation, isOperation]) executed
        | depthwise | eltwise | maxPool | avePool | eltwiseMul =>
            simp [Workload.canonicalOperation, isOperation, Operation.keepsChannels] at keeps
      simp [box, inferInput, sums, input, Tensor.withChannels]

end Boxes

variable
  {layer : Layer}
  {mode : ExecutionMode}
  {output : Shape}
  {offset : Offset}
  {options : SearchOptions}
  {processors limit : Nat}
  {boxes : List Workload}

/-- Operations that keep channels accept the counts of outputs, unless their layers limit them. -/
theorem inputChannels_of_not_limitsChannels
    (table : Capability)
    (cuboid : layer.device.isCuboid = true)
    (free : layer.limitsChannels = false)
    (keeps : layer.workload.canonicalOperation.keepsChannels = true) :
    table.inputChannels layer.workload.canonicalOperation = table.outputChannels := by
  have sameOperation : layer.operation = layer.workload.operation := rfl
  simp only [limitsChannels, cuboid, Bool.true_and, sameOperation] at free
  unfold Workload.canonicalOperation at keeps ⊢
  cases isOperation : layer.workload.operation with
  | eltwise | eltwiseMul =>
      rfl
  | depthwise | avePool | maxPool | channelMajor =>
      rw [isOperation] at free
      contradiction
  | layerNorm =>
      rw [isOperation] at keeps
      contradiction
  | convolution =>
      rw [isOperation] at keeps
      dsimp only at keeps
      split at keeps <;> contradiction

/-- A generation with a standard table is executed in cuboids. -/
theorem isCuboid_of_mem_standard
    {table : Capability}
    (known : table ∈ Capability.standard) :
    table.device.isCuboid = true := by
  rcases Capability.eq_of_mem_standard known with rfl | rfl <;> rfl

/-- Every operation is executed in some of the modes of the standard tables. -/
theorem modes_subset
    {table : Capability}
    (known : table ∈ Capability.standard)
    (cuboid : layer.device.isCuboid = true) :
    layer.modes ⊆ table.modes := by
  rw [table.modes_of_mem_standard known, modes, if_pos cuboid]
  cases layer.operation <;> decide

/-- A box keeps the padding of its layer along some of the edges. -/
theorem paddingOf_kept
    (layer : Layer)
    (output : Shape)
    (offset : Offset) :
    (layer.paddingOf output offset).KeptFrom layer.workload.padding := by
  have kept {touches : Prop} [Decidable touches] {padding : Nat} :
      (if touches then padding else 0) = 0 ∨ (if touches then padding else 0) = padding := by
    split
    · exact .inr rfl
    · exact .inl rfl
  exact ⟨kept, kept, kept, kept⟩

section Admitted

variable
  {gate : Gate}
  {table : Capability}
  {family : Family}
  {job : Job}
  {box : Workload}

/-- An admitted layer fits its table. -/
theorem fits_of_admits
    (admits : gate.Admits layer.workload table family job) :
    layer.Fits table := by
  obtain ⟨_, _, rfl, _, legal⟩ := admits
  obtain ⟨_, tensors, kernel, _⟩ := Rules.findings_eq_nil.mp legal
  exact ⟨_, family, .inr rfl, tensors, kernel⟩

/-- The output of an admitted layer is accepted. -/
theorem output_of_admits
    (admits : gate.Admits layer.workload table family job) :
    table.outputChannels.contains layer.output.shape.channels = true ∧
      layer.output.shape.width ≤ table.spatialMax ∧
      layer.output.shape.height ≤ table.spatialMax := by
  have accepted := Rules.outputs_of_tensors (Rules.findings_eq_nil.mp admits.legal).2.1
  rw [← admits.isJob, Workload.canonicalize_eq] at accepted
  exact accepted.2

/-- The layer of an admitted workload is executed in cuboids. -/
theorem isCuboid_of_admits
    (known : table ∈ Capability.standard)
    (admits : gate.Admits layer.workload table family job) :
    layer.device.isCuboid = true := by
  have found : gate.tables.find? (fun table => table.device == layer.device) = some table :=
    admits.isTable
  have sameDevice : table.device = layer.device := by
    simpa using List.find?_some found
  exact sameDevice ▸ isCuboid_of_mem_standard known

/-- Slices of accepted channels are accepted. -/
theorem HasBox.contains_channels
    (isBox : layer.HasBox mode output offset)
    (whole : table.outputChannels.contains layer.output.shape.channels = true) :
    table.outputChannels.contains output.channels = true := by
  obtain ⟨_, most, steps⟩ := Capability.contains_outputChannels_iff.mp whole
  have positive := isBox.channelsPositive
  have inside := isBox.channelsInside
  have aligned := isBox.aligned steps
  exact Capability.contains_outputChannels_iff.mpr
    ⟨Nat.le_of_dvd positive aligned, by omega, aligned⟩

/-- The channels of a box are accepted for its operation. -/
theorem contains_channels_box
    (mode : ExecutionMode)
    (offset : Offset)
    (known : table ∈ Capability.standard)
    (admits : gate.Admits layer.workload table family job)
    (outputChannels : table.outputChannels.contains output.channels = true)
    (uncut : layer.limitsChannels = true → output = layer.output.shape) :
    (table.inputChannels layer.workload.canonicalOperation).contains
      (layer.box mode output offset).canonicalize.input.shape.channels = true := by
  have cuboid := isCuboid_of_admits known admits
  obtain ⟨_, isFamily, rfl, _, legal⟩ := admits
  have whole := (Rules.outputs_of_tensors (Rules.findings_eq_nil.mp legal).2.1).1
  rw [Workload.canonicalize_eq] at isFamily whole
  rw [channels_box layer mode output offset (Gate.ne_layerNorm_of_family? isFamily)]
  simp only [Job.ofWorkload, Workload.fold, Workload.foldTensor, Tensor.withChannels] at whole
  cases keeps : layer.workload.canonicalOperation.keepsChannels with
  | false =>
      simpa [keeps] using whole
  | true =>
      cases limits : layer.limitsChannels with
      | false =>
          rw [inputChannels_of_not_limitsChannels table cuboid limits keeps, if_pos rfl]
          exact outputChannels
      | true =>
          simp only [keeps, if_true] at whole
          rw [uncut limits]
          exact whole

/-- What a box has of its own suits the job of the layer. -/
theorem suits_box
    (known : table ∈ Capability.standard)
    (admits : gate.Admits layer.workload table family job)
    (isBox : layer.HasBox mode output offset)
    (isHalf : layer.IsHalfPlane (layer.box mode output offset))
    (uncut : layer.limitsChannels = true → output = layer.output.shape) :
    (Recut.ofJob
      (.ofWorkload ((layer.box mode output offset).canonicalize.fold table) family)).Suits
        table job := by
  have words := Capability.countsInWords_of_mem_standard known
  have isMode := modes_subset known (isCuboid_of_admits known admits) isBox.mode
  obtain ⟨columns, rows⟩ := (fits_of_admits admits).legal
  obtain ⟨givesWidth, givesHeight⟩ := isBox.outputExtents columns rows words
  obtain ⟨widthPositive, columnsInside⟩ := And.intro isBox.widthPositive isBox.columnsInside
  obtain ⟨heightPositive, rowsInside⟩ := And.intro isBox.heightPositive isBox.rowsInside
  have inputWidth :=
    And.intro (columns.read_positive words (offset.x, output.width) widthPositive columnsInside)
      (columns.read_le known (offset.x, output.width) widthPositive columnsInside isHalf.1)
  have inputHeight :=
    And.intro (rows.read_positive words (offset.y, output.height) heightPositive rowsInside)
      (rows.read_le known (offset.y, output.height) heightPositive rowsInside isHalf.2)
  obtain ⟨wholeChannels, wholeWidth, wholeHeight⟩ := output_of_admits admits
  have outputWidth : output.width ≤ table.spatialMax := by omega
  have outputHeight : output.height ≤ table.spatialMax := by omega
  have outputChannels := isBox.contains_channels wholeChannels
  have inputChannels := contains_channels_box mode offset known admits outputChannels uncut
  rw [← admits.isJob]
  simp only [Workload.canonicalize_eq, canonicalOperation_box] at inputChannels ⊢
  exact {
    mode := isMode
    inputChannels := inputChannels
    outputChannels := outputChannels
    sameChannels := fun keeps => if_pos keeps
    inputWidth := inputWidth
    inputHeight := inputHeight
    outputWidth := ⟨widthPositive, outputWidth⟩
    outputHeight := ⟨heightPositive, outputHeight⟩
    oneInput := isBox.oneImage
    oneOutput := isBox.oneImage
    keeps := layer.paddingOf_kept output offset
    givesWidth := givesWidth
    givesHeight := givesHeight
  }

/-- All that can be found about a box of a candidate are strides larger than its input. -/
theorem inspected_of_mem_candidates
    (known : table ∈ Capability.standard)
    (admits : gate.Admits layer.workload table family job)
    (member : boxes ∈ layer.candidates options processors limit)
    (inBoxes : box ∈ boxes) :
    ∃ part, gate.accept box = gate.inspect table part ∧
      Rules.findings table part = box.oversteps := by
  have isHalf := isHalfPlane_of_mem_candidates member inBoxes
  have uncut : layer.limitsChannels = true → box.output.shape = layer.output.shape := by
    intro limits
    obtain ⟨_, rfl⟩ := (mem_candidates_of_limitsChannels limits).mp member
    obtain rfl := List.mem_singleton.mp inBoxes
    rfl
  obtain ⟨mode, output, offset, isBox, rfl⟩ :=
    (fits_of_admits admits).regular.exists_box member inBoxes
  have found := Rules.findings_recut (suits_box known admits isBox isHalf uncut) admits.legal
  obtain ⟨isTable, isFamily, rfl, _, _⟩ := admits
  have sameTable :
      Capability.ofDevice? gate.tables (layer.box mode output offset).device = some table :=
    isTable
  have sameFamily :
      Gate.family? table (layer.box mode output offset).canonicalize.operation = some family := by
    rw [Workload.canonicalize_eq] at isFamily ⊢
    rw [canonicalOperation_box]
    exact isFamily
  refine ⟨_, Gate.accept_of_family sameTable sameFamily, ?_⟩
  rw [← ofWorkload_box] at found
  rw [found]
  simp only [Workload.canonicalize_eq]
  rfl

end Admitted

/--
Strides are larger than the input of a box exactly where the box has a single column
or row and the kernel does not reach over the stride and the padding that is kept.
-/
theorem HasBox.oversteps_iff
    {table : Capability}
    (isBox : layer.HasBox mode output offset)
    (fits : layer.Fits table)
    (words : table.CountsInWords) :
    let box := layer.box mode output offset
    box.oversteps ≠ [] ↔
      box.output.shape.width = 1 ∧
          box.kernel.width < box.stride.width + (box.padding.left + box.padding.right) ∨
        box.output.shape.height = 1 ∧
          box.kernel.height < box.stride.height + (box.padding.top + box.padding.bottom) := by
  intro box
  obtain ⟨columns, rows⟩ := fits.legal
  have ofColumns := columns.overstep_iff words .width (offset.x, output.width)
    isBox.widthPositive isBox.columnsInside
  have ofRows := rows.overstep_iff words .height (offset.y, output.height)
    isBox.heightPositive isBox.rowsInside
  rw [Workload.oversteps, Ne, List.append_eq_nil_iff, Classical.not_and_iff_not_or_not]
  exact or_congr ofColumns ofRows

/--
A box of an admitted layer is refused because it needs too much memory, or because a
stride is larger than its input, and then nothing else is found.  This is the case
exactly where the box has a single column or row and the kernel does not reach over
the stride and the padding that the box keeps.
-/
theorem refusals_of_accepted
    {gate : Gate}
    {job : Job}
    (standard : gate.tables = Capability.standard)
    (accepted : gate.accept layer.workload = .ok job)
    (member : boxes ∈ layer.candidates options processors limit) :
    ∀ box ∈ boxes,
      (∀ refusal, gate.accept box = .error refusal →
        (∃ needed available, refusal = .tooBig needed available) ∨
          refusal = .brokenRules box.oversteps ∧ box.oversteps ≠ []) ∧
      (box.oversteps ≠ [] → ∃ refusal, gate.accept box = .error refusal) ∧
      (box.oversteps ≠ [] ↔
        box.output.shape.width = 1 ∧
            box.kernel.width < box.stride.width + (box.padding.left + box.padding.right) ∨
          box.output.shape.height = 1 ∧
            box.kernel.height < box.stride.height + (box.padding.top + box.padding.bottom)) := by
  intro box inBoxes
  obtain ⟨table, family, admits⟩ := Gate.accept_eq_ok_iff.mp accepted
  have known : table ∈ Capability.standard := standard ▸ List.mem_of_find?_eq_some admits.isTable
  have fits := fits_of_admits admits
  obtain ⟨part, inspected, found⟩ := inspected_of_mem_candidates known admits member inBoxes
  rw [inspected]
  refine ⟨?_, ?_, ?_⟩
  · intro refusal refused
    rcases Gate.inspect_eq_error_iff.mp refused with ⟨_, isTooBig⟩ | ⟨_, broken, isBroken⟩
    · exact .inl ⟨_, _, isTooBig⟩
    · rw [found] at broken isBroken
      exact .inr ⟨isBroken, broken⟩
  · intro oversteps
    cases outcome : gate.inspect table part with
    | error refusal =>
        exact ⟨refusal, rfl⟩
    | ok whole =>
        obtain ⟨rfl, _, legal⟩ := Gate.inspect_eq_ok_iff.mp outcome
        exact absurd (found.symm.trans legal) oversteps
  · obtain ⟨mode, output, offset, isBox, rfl⟩ := fits.regular.exists_box member inBoxes
    exact isBox.oversteps_iff fits (Capability.countsInWords_of_mem_standard known)

/-- A layer of nine by nine points that reads every second one. -/
def everySecondOfNine : Layer :=
  let input := Tensor.dense ⟨9, 9, 64, 1⟩ .uint8
  let output := Tensor.dense ⟨5, 5, 64, 1⟩ .uint8
  .ofWorkload
    { Workload.plain .vpu27 .convolution input output .cuboid16x16 with stride := ⟨2, 2⟩ }

/-- The last column of its output, for which a single point of each row is read. -/
def lastOfFiveColumns : Workload :=
  everySecondOfNine.box .cuboid16x16 ⟨1, 5, 64, 1⟩ ⟨4, 0, 0, 0⟩

/-- Its columns for two processors. -/
def everySecondColumns : List Workload :=
  [everySecondOfNine.box .cuboid16x16 ⟨4, 5, 64, 1⟩ ⟨0, 0, 0, 0⟩, lastOfFiveColumns]

theorem everySecondColumns_mem :
    everySecondColumns ∈
      everySecondOfNine.candidates { SearchOptions.initial with cuts := [.columns] } 2 2 :=
  mem_candidates.mpr
    ⟨.columns, by decide, .cuboid16x16, by decide, 2, by decide, List.mem_singleton.mpr (by rfl)⟩

theorem everySecondOfNine_accepted :
    ∃ job, Gate.standard.accept everySecondOfNine.workload = .ok job := by
  have admitted : (Gate.standard.accept everySecondOfNine.workload).toOption.isSome := by
    decide +kernel
  cases accepted : Gate.standard.accept everySecondOfNine.workload with
  | error refusal =>
      rw [accepted] at admitted
      contradiction
  | ok job =>
      exact ⟨job, rfl⟩

/-- The first columns break no rule, and all that is found about the last one is its stride. -/
theorem refusals_of_everySecondColumns :
    ∃ job,
      Gate.standard.accept everySecondOfNine.workload = .ok job ∧
        everySecondColumns ∈
          everySecondOfNine.candidates { SearchOptions.initial with cuts := [.columns] } 2 2 ∧
        ∀ box ∈ everySecondColumns,
          box.oversteps = (if box.offset.x = 0 then [] else [.strideBeyondInput .width 2 1]) ∧
            ∀ refusal, Gate.standard.accept box = .error refusal →
              (∃ needed available, refusal = .tooBig needed available) ∨
                refusal = .brokenRules box.oversteps ∧ box.oversteps ≠ [] := by
  obtain ⟨job, accepted⟩ := everySecondOfNine_accepted
  have refusals := refusals_of_accepted rfl accepted everySecondColumns_mem
  have oversteps : ∀ box ∈ everySecondColumns,
      box.oversteps = if box.offset.x = 0 then [] else [.strideBeyondInput .width 2 1] := by
    decide
  exact ⟨job, accepted, everySecondColumns_mem,
    fun box inBoxes => ⟨oversteps box inBoxes, (refusals box inBoxes).1⟩⟩

/-- So a box of an admitted layer can have an invalid configuration. -/
theorem everySecondColumns_refused :
    (∃ job, Gate.standard.accept everySecondOfNine.workload = .ok job) ∧
      everySecondColumns ∈
        everySecondOfNine.candidates { SearchOptions.initial with cuts := [.columns] } 2 2 ∧
      ¬ ∀ box ∈ everySecondColumns, ∀ refusal,
        Gate.standard.accept box = .error refusal →
          refusal.error ≠ .invalidInputConfiguration := by
  have inColumns : lastOfFiveColumns ∈ everySecondColumns := by
    decide
  have isTable : Capability.ofDevice? Gate.standard.tables lastOfFiveColumns.device = some .vpu27 :=
    rfl
  have isFamily :
      Gate.family? .vpu27 lastOfFiveColumns.canonicalize.operation = some .convolution :=
    rfl
  have refused :
      Gate.standard.accept lastOfFiveColumns =
        .error (.brokenRules [.strideBeyondInput .width 2 1]) := by
    rw [Gate.accept_of_family isTable isFamily]
    exact Gate.inspect_eq_error_iff.mpr
      (.inr ⟨by decide +kernel, by decide +kernel, by decide +kernel⟩)
  exact ⟨everySecondOfNine_accepted, everySecondColumns_mem,
    fun valid => valid _ inColumns _ refused rfl⟩

end Layer

end DpuCycles
