import DpuCycles.Number.Rising
import DpuCycles.Proofs.Network.Loading
import DpuCycles.Proofs.Network.Rows

namespace DpuCycles.Network

/-!
# Inference is row by row

A sound network gives every row of a batch what it gives that row alone,
whatever the number of rows of the context and whatever its buffers held before.
The invariant of a run through the kernels is that the rows computed so far
stand at the front of one buffer, and that both buffers keep their size.
-/

/-- A context with at least one row and buffers of exactly its size. -/
structure Context.Valid (context : Context) : Prop where
  batchPositive : 0 < context.batch
  frontSize : context.front.size = context.batch * context.width
  backSize : context.back.size = context.batch * context.width

theorem Dense.size_apply
    (kernel : Dense)
    (row : Array Single) :
    (kernel.apply row).size = kernel.outputs := by
  simp [apply]

theorem Nearest.size_apply
    (kernel : Nearest)
    (row : Array Single) :
    (kernel.apply row).size = 1 :=
  rfl

namespace Kernel

theorem size_normalized
    (row : Array Single) :
    (normalized row).size = row.size := by
  unfold normalized
  dsimp only
  split
  · exact Array.size_map
  · rfl

/-- One row of a kernel has the width the kernel announces. -/
theorem size_apply
    (kernel : Kernel)
    {width : Nat}
    {row : Array Single}
    (sized : row.size = width) :
    (kernel.apply row).size = kernel.outputWidth width := by
  cases kernel with
  | dense matrix =>
      exact matrix.size_apply row
  | relu =>
      exact Array.size_map.trans sized
  | sigmoid =>
      exact Array.size_map.trans sized
  | l2Norm =>
      exact (size_normalized row).trans sized
  | nearest points =>
      exact points.size_apply row

/-- A batch through a kernel is each of its rows through the kernel. -/
theorem forward_joined
    {kernel : Kernel}
    {width : Nat}
    {rows : List (Array Single)}
    {output : Array Single}
    (takes : kernel.Takes width)
    (widths : HaveWidth width rows)
    (fits : output.size = rows.length * kernel.outputWidth width) :
    kernel.forward rows.length width (joined rows) output =
      .ok (joined (rows.map kernel.apply)) := by
  have sized : ∀ row, row.size = width → (kernel.apply row).size = kernel.outputWidth width :=
    fun _ => kernel.size_apply
  cases kernel with
  | dense matrix =>
      obtain ⟨rfl, _⟩ := takes
      exact forwardRows_joined widths sized fits
  | nearest points =>
      obtain ⟨rfl, _⟩ := takes
      exact forwardRows_joined widths sized fits
  | l2Norm =>
      exact forwardRows_joined widths sized fits
  | relu =>
      exact congrArg Except.ok (forwardEach_joined (widths.size_joined.trans fits.symm))
  | sigmoid =>
      exact congrArg Except.ok (forwardEach_joined (widths.size_joined.trans fits.symm))

/-- One kernel keeps the rows at the front, now in the other buffer. -/
theorem step_leads
    {kernel : Kernel}
    {width : Nat}
    {rows : List (Array Single)}
    {front back : Array Single}
    (takes : kernel.Takes width)
    (widths : HaveWidth width rows)
    (leads : Leads rows front)
    (room : rows.length * kernel.outputWidth width ≤ back.size) :
    ∃ written,
      kernel.step rows.length width front back = .ok written ∧
        Leads (rows.map kernel.apply) written ∧ written.size = back.size := by
  have cut : (back.extract 0 (rows.length * kernel.outputWidth width)).size =
      rows.length * kernel.outputWidth width := by
    rw [Array.size_extract]
    omega
  let behind := back.extract (rows.length * kernel.outputWidth width) back.size
  refine ⟨joined (rows.map kernel.apply) ++ behind, ?_, ⟨behind, rfl⟩, ?_⟩
  · unfold step
    dsimp only
    rw [if_pos ⟨leads.size_le widths, room⟩, leads.extract widths,
      forward_joined takes widths cut]
    rfl
  · rw [Array.size_append, Array.size_extract,
      (widths.map fun _ => kernel.size_apply).size_joined, List.length_map]
    omega

/-- Kernels keep the rows at the front as long as the buffers have room for every width. -/
theorem steps_leads
    {kernels : List Kernel}
    {width capacity : Nat}
    {rows : List (Array Single)}
    {front back : Array Single}
    (chain : Chain width kernels)
    (widths : HaveWidth width rows)
    (leads : Leads rows front)
    (room : ∀ reached ∈ Trained.widths width kernels, rows.length * reached ≤ capacity)
    (frontSize : front.size = capacity)
    (backSize : back.size = capacity) :
    ∃ last other,
      steps rows.length width front back kernels =
          .ok (Trained.widthAfter width kernels, last, other) ∧
        Leads (rows.map fun row => kernels.foldl (fun row kernel => kernel.apply row) row) last ∧
        last.size = capacity ∧ other.size = capacity := by
  induction kernels generalizing width rows front back with
  | nil =>
      exact ⟨front, back, rfl, by simpa using leads, frontSize, backSize⟩
  | cons kernel rest inductionHypothesis =>
      -- The buffers change places, so the size is known of both all the way.
      obtain ⟨takes, restChain⟩ := chain
      obtain ⟨first, others⟩ := List.forall_mem_cons.mp room
      obtain ⟨written, stepped, writtenLeads, writtenSize⟩ :=
        step_leads takes widths leads (backSize ▸ first)
      have sameCount : (rows.map kernel.apply).length = rows.length := List.length_map _
      obtain ⟨last, other, run, lastLeads, lastSize, otherSize⟩ :=
        inductionHypothesis restChain (widths.map fun _ => kernel.size_apply) writtenLeads
          (sameCount.symm ▸ others) (writtenSize.trans backSize) frontSize
      refine ⟨last, other, ?_, ?_, lastSize, otherSize⟩
      · rw [sameCount] at run
        rw [steps, stepped]
        exact run
      · simpa [Function.comp_def] using lastLeads

end Kernel

namespace Trained

/-- Rows of the input width come out with the width of the output. -/
theorem size_apply
    (network : Trained)
    {row : Array Single}
    (sized : row.size = network.inputSize) :
    (network.apply row).size = network.outputSize := by
  have through : ∀ (kernels : List Kernel) {width : Nat} {row : Array Single},
      row.size = width →
      (kernels.foldl (fun row kernel => kernel.apply row) row).size = widthAfter width kernels := by
    intro kernels
    induction kernels with
    | nil =>
        intro width row sized
        exact sized
    | cons kernel rest inductionHypothesis =>
        intro width row sized
        exact inductionHypothesis (kernel.size_apply sized)
  exact through network.kernels sized

section Slices

variable {size : Nat} {first rest : Array Single}

theorem slices_empty
    (sizePositive : 0 < size) :
    slices #[] size = [] := by
  have short : (#[] : Array Single).size + (size - 1) < size := by
    rw [Array.size_empty]
    omega
  rw [slices, Nat.div_eq_of_lt short]
  rfl

/-- A first slice is cut off when it is full or the last one. -/
theorem slices_append
    (firstPositive : 0 < first.size)
    (within : first.size ≤ size)
    (fullOrLast : first.size = size ∨ rest = #[]) :
    slices (first ++ rest) size = first :: slices rest size := by
  have sizePositive : 0 < size := Nat.lt_of_lt_of_le firstPositive within
  have count :
      ((first ++ rest).size + (size - 1)) / size = (rest.size + (size - 1)) / size + 1 := by
    rw [Array.size_append, ← Nat.add_div_right _ sizePositive]
    rcases fullOrLast with full | last
    · congr 1
      omega
    · subst last
      rw [Array.size_empty, Nat.div_eq_of_lt_le (k := 1) (by omega) (by omega),
        Nat.div_eq_of_lt_le (k := 1) (by omega) (by omega)]
  have head : (first ++ rest).extract (0 * size) (0 * size + size) = first := by
    rw [Nat.zero_mul, Nat.zero_add]
    rcases fullOrLast with full | last
    · rw [← full, Array.extract_append_left, Array.extract_size]
    · rw [last, Array.append_empty, Array.extract_eq_self_of_le within]
  have tail : ∀ position, position < (rest.size + (size - 1)) / size →
      (first ++ rest).extract ((position + 1) * size) ((position + 1) * size + size) =
        rest.extract (position * size) (position * size + size) := by
    intro position below
    rcases fullOrLast with full | last
    · rw [Array.extract_append, full, Nat.succ_mul,
        Array.extract_empty_of_size_le_start (by omega), Array.empty_append,
        Nat.add_sub_cancel, Nat.add_right_comm, Nat.add_sub_cancel]
    · subst last
      rw [Array.size_empty, Nat.div_eq_of_lt (by omega)] at below
      omega
  rw [slices, count, List.range_succ_eq_map, List.map_cons, List.map_map, head]
  exact congrArg (List.cons first)
    (List.map_congr_left fun position inRange => tail position (List.mem_range.mp inRange))

/-- Slices for a number of rows take the rows so many at a time. -/
theorem slices_joined
    {width batch : Nat}
    {rows : List (Array Single)}
    (batchPositive : 0 < batch)
    (widthPositive : 0 < width)
    (widths : HaveWidth width rows)
    (nonempty : rows ≠ []) :
    slices (joined rows) (batch * width) =
      joined (rows.take batch) :: slices (joined (rows.drop batch)) (batch * width) := by
  have firstWidths : HaveWidth width (rows.take batch) :=
    fun row member => widths row (List.mem_of_mem_take member)
  have firstSize : (joined (rows.take batch)).size = min batch rows.length * width := by
    rw [firstWidths.size_joined, List.length_take]
  have fullOrLast :
      (joined (rows.take batch)).size = batch * width ∨ joined (rows.drop batch) = #[] := by
    rcases Nat.le_total batch rows.length with enough | few
    · exact Or.inl (by rw [firstSize, Nat.min_eq_left enough])
    · exact Or.inr (by rw [List.drop_of_length_le few, joined_nil])
  have firstPositive : 0 < (joined (rows.take batch)).size := by
    rw [firstSize]
    exact Nat.mul_pos (Nat.lt_min.mpr ⟨batchPositive, List.length_pos_iff.mpr nonempty⟩)
      widthPositive
  have within : (joined (rows.take batch)).size ≤ batch * width := by
    rw [firstSize]
    exact Nat.mul_le_mul_right _ (Nat.min_le_left _ _)
  calc slices (joined rows) (batch * width)
      = slices (joined (rows.take batch) ++ joined (rows.drop batch)) (batch * width) := by
        rw [← joined_append, List.take_append_drop]
    _ = _ := slices_append firstPositive within fullOrLast

end Slices

theorem le_maxWidth
    (network : Trained)
    {reached : Nat}
    (member : reached ∈ widths network.inputSize network.kernels) :
    reached ≤ network.maxWidth :=
  (le_foldl_max _ _).2 reached member

theorem inputSize_le_maxWidth
    (network : Trained) :
    network.inputSize ≤ network.maxWidth :=
  (le_foldl_max _ _).1

section Runs

variable
  {network : Trained}
  {context : Context}
  {rows : List (Array Single)}

/-- A slice of rows appends what the network gives each of them. -/
theorem runSlice_joined
    (sound : network.Sound)
    (valid : context.Valid)
    (wide : network.maxWidth ≤ context.width)
    (widths : HaveWidth network.inputSize rows)
    (few : rows.length ≤ context.batch) :
    ∃ next,
      network.runSlice context (joined rows) = .ok next ∧
        next.output = context.output ++ joined (rows.map network.apply) ∧
        next.Valid ∧ next.batch = context.batch ∧ next.width = context.width := by
  have size := widths.size_joined
  have count : (joined rows).size / network.inputSize = rows.length := by
    rw [size, Nat.mul_div_cancel _ sound.inputPositive]
  have roomFor : ∀ {reached}, reached ≤ network.maxWidth →
      rows.length * reached ≤ context.batch * context.width :=
    fun within => Nat.mul_le_mul few (Nat.le_trans within wide)
  have enters : ¬ context.front.size < (joined rows).size := by
    rw [valid.frontSize, size]
    exact Nat.not_lt.mpr (roomFor network.inputSize_le_maxWidth)
  have overwritten :
      (Kernel.overwrite (joined rows) context.front).size = context.batch * context.width := by
    rw [Kernel.overwrite, Array.size_append, Array.size_extract, ← valid.frontSize]
    omega
  have entered : Leads rows (Kernel.overwrite (joined rows) context.front) := ⟨_, rfl⟩
  obtain ⟨last, other, run, leads, lastSize, otherSize⟩ :=
    Kernel.steps_leads sound.chain widths entered
      (fun _ member => roomFor (network.le_maxWidth member)) overwritten valid.backSize
  have applied : HaveWidth network.outputSize (rows.map network.apply) :=
    widths.map fun _ => network.size_apply
  have sameCount : (rows.map network.apply).length = rows.length := List.length_map _
  have out : last.extract 0 (rows.length * network.outputSize) = joined (rows.map network.apply) :=
    sameCount ▸ Leads.extract leads applied
  have reaches : ¬ last.size < rows.length * network.outputSize :=
    Nat.not_lt.mpr (sameCount ▸ Leads.size_le leads applied)
  refine ⟨{ context with
      front := last
      back := other
      output := context.output ++ joined (rows.map network.apply) },
    ?_, rfl, ⟨valid.batchPositive, lastSize, otherSize⟩, rfl, rfl⟩
  simp only [runSlice, count, if_neg enters, run]
  rw [← out]
  exact if_neg reaches

/-- Slices of rows, as long as the context has rows, append what the network gives each row. -/
theorem runSlices_joined
    (sound : network.Sound)
    (valid : context.Valid)
    (wide : network.maxWidth ≤ context.width)
    (widths : HaveWidth network.inputSize rows) :
    ∃ done,
      network.runSlices context (slices (joined rows) (context.batch * network.inputSize)) =
          .ok done ∧
        done.output = context.output ++ joined (rows.map network.apply) ∧ done.Valid := by
  induction counted : rows.length using Nat.strongRecOn generalizing rows context with
  | ind count inductionHypothesis =>
      by_cases empty : rows = []
      · subst empty
        refine ⟨context, ?_, by simp, valid⟩
        rw [joined_nil, slices_empty (Nat.mul_pos valid.batchPositive sound.inputPositive)]
        rfl
      · -- The rows that fit the context form the first slice; the others are fewer than before.
        have firstWidths : HaveWidth network.inputSize (rows.take context.batch) :=
          fun row member => widths row (List.mem_of_mem_take member)
        have otherWidths : HaveWidth network.inputSize (rows.drop context.batch) :=
          fun row member => widths row (List.mem_of_mem_drop member)
        have firstCount : (rows.take context.batch).length = min context.batch rows.length :=
          List.length_take
        have fewer : (rows.drop context.batch).length < count := by
          rw [List.length_drop, ← counted]
          exact Nat.sub_lt (List.length_pos_iff.mpr empty) valid.batchPositive
        obtain ⟨next, ran, output, nextValid, sameBatch, sameWidth⟩ :=
          runSlice_joined sound valid wide firstWidths
            (firstCount ▸ Nat.min_le_left _ _)
        obtain ⟨done, ranOthers, allOutput, doneValid⟩ :=
          inductionHypothesis _ fewer nextValid (sameWidth ▸ wide) otherWidths rfl
        refine ⟨done, ?_, ?_, doneValid⟩
        · rw [slices_joined valid.batchPositive sound.inputPositive widths empty, runSlices, ran]
          exact sameBatch ▸ ranOthers
        · rw [allOutput, output, Array.append_assoc, ← joined_append, ← List.map_append,
            List.take_append_drop]

end Runs

end Trained

namespace Context

theorem size_resize
    (buffer : Array Single)
    (size : Nat) :
    (resize buffer size).size = size := by
  rw [resize, Array.size_append, Array.size_extract, Array.size_replicate]
  omega

/-- A context that is made has at least one row, and its buffers have its size. -/
theorem valid_make
    (batch width : Nat) :
    (make batch width).Valid := by
  refine ⟨Nat.lt_of_lt_of_le Nat.one_pos (Nat.le_max_right batch 1), ?_, ?_⟩ <;>
    exact Array.size_replicate

/-- A widened context stays valid, keeps its rows and its output and reaches the width. -/
theorem ensureWidth_valid
    {context : Context}
    (valid : context.Valid)
    (width : Nat) :
    (context.ensureWidth width).Valid ∧
      width ≤ (context.ensureWidth width).width ∧
      (context.ensureWidth width).output = context.output := by
  unfold ensureWidth
  split
  · exact ⟨⟨valid.batchPositive, size_resize _ _, size_resize _ _⟩, Nat.le_refl _, rfl⟩
  · rename_i wide
    exact ⟨valid, Nat.not_lt.mp wide, rfl⟩

end Context

namespace Trained

/--
In any valid context a sound network gives, row by row, what it gives each row
alone.  Neither the rows of the context nor what its buffers held show.
-/
theorem predict_joined
    {network : Trained}
    {context : Context}
    {rows : List (Array Single)}
    (sound : network.Sound)
    (valid : context.Valid)
    (widths : HaveWidth network.inputSize rows) :
    (network.predict context (joined rows)).2 = .ok (joined (rows.map network.apply)) := by
  have cleared : { context with output := #[] }.Valid :=
    ⟨valid.batchPositive, valid.frontSize, valid.backSize⟩
  obtain ⟨wideValid, wide, output⟩ := Context.ensureWidth_valid cleared network.maxWidth
  have present : (!network.isPresent || network.inputSize == 0) = false := by
    have inputNonzero : network.inputSize ≠ 0 := Nat.pos_iff_ne_zero.mp sound.inputPositive
    simp [isPresent, sound.present, inputNonzero]
  have whole :
      (joined rows).extract 0 ((joined rows).size / network.inputSize * network.inputSize) =
        joined rows := by
    rw [widths.size_joined, Nat.mul_div_cancel _ sound.inputPositive, ← widths.size_joined,
      Array.extract_size]
  have sizeNonzero :
      ({ context with output := #[] }.ensureWidth network.maxWidth).batch * network.inputSize ≠
        0 :=
    Nat.pos_iff_ne_zero.mp (Nat.mul_pos wideValid.batchPositive sound.inputPositive)
  obtain ⟨done, ran, doneOutput, _⟩ := runSlices_joined sound wideValid wide widths
  unfold predict
  simp only [present, Bool.false_eq_true, if_false, if_neg sizeNonzero, whole, ran]
  rw [doneOutput, output, Array.empty_append]

end Trained

end DpuCycles.Network
