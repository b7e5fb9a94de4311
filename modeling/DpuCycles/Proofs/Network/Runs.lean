import DpuCycles.Proofs.Network.Accesses
import DpuCycles.Proofs.Network.Contexts
import DpuCycles.Proofs.Network.Files

namespace DpuCycles.Network

/-!
# Runs of loaded networks

Bytes that are read give no network or a sound one.  A sound network runs any whole
number of rows in any context that callers hold and that has room for them, and gives
one row of outputs for each.  In such a run each kernel stands at the width it takes,
and there it runs the same when every slice, access and copy is checked.
-/

namespace Kernel

/-- A row divided by its length, written over an output; one without a length is copied. -/
def normalizedWithin (row output : Array Single) : Except Fault (Array Single) :=
  let length := (row.foldl (fun sum value => sum + value * value) Single.zero).sqrt
  if length.isPositive then .ok (forwardEach (· / length) row output) else copy row output

/-- Rows one after another, each from its slice of the input to its slice of the output. -/
def rowsWithin
    (image : Array Single → Array Single → Except Fault (Array Single))
    (rows inputWidth outputWidth : Nat)
    (input output : Array Single) : Except Fault (Array Single) :=
  (List.range rows).foldlM
    (fun written row => do
      let source ← slice input (row * inputWidth) ((row + 1) * inputWidth)
      let target ← slice written (row * outputWidth) ((row + 1) * outputWidth)
      let values ← image source target
      return writeAt written (row * outputWidth) values)
    output

/-- A batch of rows through a kernel, with every access checked. -/
def forwardWithin
    (kernel : Kernel)
    (rows width : Nat)
    (input output : Array Single) : Except Fault (Array Single) :=
  match kernel with
  | .dense matrix => rowsWithin matrix.rowWithin rows matrix.inputs matrix.outputs input output
  | .nearest points =>
      rowsWithin (fun row _ => points.rowWithin row) rows points.inputs 1 input output
  | .l2Norm => rowsWithin normalizedWithin rows width width input output
  | .relu => .ok (forwardEach rectify input output)
  | .sigmoid => .ok (forwardEach logistic input output)

/-- Values written behind the ones that a buffer was overwritten with. -/
theorem writeAt_overwrite
    (before values buffer : Array Single) :
    writeAt (overwrite before buffer) before.size values = overwrite (before ++ values) buffer := by
  have front :
      (before ++ buffer.extract before.size buffer.size).extract 0 before.size = before := by
    rw [Array.extract_append_left, Array.extract_size]
  have behind :
      (before ++ buffer.extract before.size buffer.size).extract (before.size + values.size)
          (before ++ buffer.extract before.size buffer.size).size =
        buffer.extract (before.size + values.size) buffer.size := by
    rw [Array.extract_append, Array.extract_empty_of_size_le_start (by omega),
      Array.empty_append, Array.extract_extract, Array.size_append, Array.size_extract]
    congr 1 <;> omega
  rw [writeAt, overwrite, front, behind, overwrite, Array.size_append]

theorem slice_eq_ok
    {buffer : Array Single}
    {start stop : Nat}
    (starts : start ≤ stop)
    (reaches : stop ≤ buffer.size) :
    slice buffer start stop = .ok (buffer.extract start stop) :=
  if_pos ⟨starts, reaches⟩

theorem slice_eq_error
    {buffer : Array Single}
    {start stop : Nat}
    (beyond : buffer.size < stop) :
    slice buffer start stop = .error .outOfRange :=
  if_neg fun inside => Nat.not_le.mpr beyond inside.2

section Rows

variable
  {image : Array Single → Array Single → Except Fault (Array Single)}
  {apply : Array Single → Array Single}
  {rows inputWidth outputWidth : Nat}
  {input output : Array Single}

/-- What is given for the first rows of an input. -/
def imagesOf
    (apply : Array Single → Array Single)
    (rows inputWidth : Nat)
    (input : Array Single) : List (Array Single) :=
  (List.range rows).map fun row =>
    apply (input.extract (row * inputWidth) (row * inputWidth + inputWidth))

theorem imagesOf_succ :
    imagesOf apply (rows + 1) inputWidth input =
      imagesOf apply rows inputWidth input ++
        [apply (input.extract (rows * inputWidth) (rows * inputWidth + inputWidth))] := by
  rw [imagesOf, List.range_succ, List.map_append]
  rfl

theorem size_joined_imagesOf
    (sized : ∀ row, row.size = inputWidth → (apply row).size = outputWidth)
    (fits : rows * inputWidth ≤ input.size) :
    (joined (imagesOf apply rows inputWidth input)).size = rows * outputWidth := by
  have images : HaveWidth outputWidth (imagesOf apply rows inputWidth input) := by
    intro values member
    obtain ⟨row, below, rfl⟩ := List.mem_map.mp member
    refine sized _ ?_
    have inside : (row + 1) * inputWidth ≤ rows * inputWidth :=
      Nat.mul_le_mul_right inputWidth (List.mem_range.mp below)
    rw [Nat.succ_mul] at inside
    rw [Array.size_extract]
    omega
  rw [images.size_joined, imagesOf, List.length_map, List.length_range]

/-- One more row, from its slice of the input to its slice of what was written so far. -/
theorem rowsWithin_succ :
    rowsWithin image (rows + 1) inputWidth outputWidth input output =
      (rowsWithin image rows inputWidth outputWidth input output).bind fun written =>
        (slice input (rows * inputWidth) ((rows + 1) * inputWidth)).bind fun source =>
          (slice written (rows * outputWidth) ((rows + 1) * outputWidth)).bind fun target =>
            (image source target).bind fun values =>
              .ok (writeAt written (rows * outputWidth) values) := by
  rw [rowsWithin, List.range_succ, List.foldlM_append]
  simp only [List.foldlM_cons, List.foldlM_nil, bind_pure]
  rfl

/-- Rows inside of both buffers are written one after another, whatever is checked. -/
theorem rowsWithin_of_fits
    (sized : ∀ row, row.size = inputWidth → (apply row).size = outputWidth)
    (checked : ∀ row target, row.size = inputWidth → target.size = outputWidth →
      image row target = .ok (apply row))
    (inputFits : rows * inputWidth ≤ input.size)
    (outputFits : rows * outputWidth ≤ output.size) :
    rowsWithin image rows inputWidth outputWidth input output =
      .ok (overwrite (joined (imagesOf apply rows inputWidth input)) output) := by
  induction rows with
  | zero =>
      simp [rowsWithin, imagesOf, overwrite, pure, Except.pure]
  | succ rows inductionHypothesis =>
      have inputEnd : (rows + 1) * inputWidth = rows * inputWidth + inputWidth := Nat.succ_mul ..
      have outputEnd : (rows + 1) * outputWidth = rows * outputWidth + outputWidth :=
        Nat.succ_mul ..
      have reached : (joined (imagesOf apply rows inputWidth input)).size = rows * outputWidth :=
        size_joined_imagesOf sized (by omega)
      have written :
          (overwrite (joined (imagesOf apply rows inputWidth input)) output).size = output.size :=
        size_overwrite (by omega)
      have source :
          (input.extract (rows * inputWidth) ((rows + 1) * inputWidth)).size = inputWidth := by
        rw [Array.size_extract]
        omega
      have target :
          ((overwrite (joined (imagesOf apply rows inputWidth input)) output).extract
            (rows * outputWidth) ((rows + 1) * outputWidth)).size = outputWidth := by
        rw [Array.size_extract, written]
        omega
      rw [rowsWithin_succ, inductionHypothesis (by omega) (by omega)]
      simp only [Except.bind]
      rw [slice_eq_ok (by omega) inputFits]
      simp only
      rw [slice_eq_ok (by omega) (written.symm ▸ outputFits)]
      simp only [checked _ _ source target]
      rw [← reached, writeAt_overwrite, imagesOf_succ, joined_append, inputEnd]
      simp

/-- Rows that do not fit a buffer reach a slice that is out of range. -/
theorem rowsWithin_of_not_fits
    (sized : ∀ row, row.size = inputWidth → (apply row).size = outputWidth)
    (checked : ∀ row target, row.size = inputWidth → target.size = outputWidth →
      image row target = .ok (apply row))
    (notFits : ¬(rows * inputWidth ≤ input.size ∧ rows * outputWidth ≤ output.size)) :
    rowsWithin image rows inputWidth outputWidth input output = .error .outOfRange := by
  induction rows with
  | zero =>
      exact absurd ⟨by omega, by omega⟩ notFits
  | succ rows inductionHypothesis =>
      rw [rowsWithin_succ]
      by_cases fits : rows * inputWidth ≤ input.size ∧ rows * outputWidth ≤ output.size
      · have written :
            (overwrite (joined (imagesOf apply rows inputWidth input)) output).size =
              output.size :=
          size_overwrite (size_joined_imagesOf sized fits.1 ▸ fits.2)
        rw [rowsWithin_of_fits sized checked fits.1 fits.2]
        simp only [Except.bind]
        by_cases inputFits : (rows + 1) * inputWidth ≤ input.size
        · have outputShort : output.size < (rows + 1) * outputWidth := by omega
          rw [slice_eq_ok (Nat.mul_le_mul_right inputWidth (Nat.le_succ rows)) inputFits]
          simp only [slice_eq_error (written.symm ▸ outputShort)]
        · rw [slice_eq_error (Nat.not_le.mp inputFits)]
      · rw [inductionHypothesis fits]
        rfl

/-- Rows with every access checked are the rows with both buffers checked before. -/
theorem rowsWithin_eq
    (sized : ∀ row, row.size = inputWidth → (apply row).size = outputWidth)
    (checked : ∀ row target, row.size = inputWidth → target.size = outputWidth →
      image row target = .ok (apply row)) :
    rowsWithin image rows inputWidth outputWidth input output =
      forwardRows apply rows inputWidth outputWidth input output := by
  unfold forwardRows
  split
  · rename_i fits
    exact rowsWithin_of_fits sized checked fits.1 fits.2
  · rename_i notFits
    exact rowsWithin_of_not_fits sized checked notFits

end Rows

theorem normalizedWithin_eq
    {row target : Array Single}
    (sized : target.size = row.size) :
    normalizedWithin row target = .ok (normalized row) := by
  unfold normalizedWithin normalized
  dsimp only
  split
  · have sameSize : (row.map (· / (row.foldl (fun sum value => sum + value * value)
        Single.zero).sqrt)).size = target.size := by
      rw [Array.size_map, sized]
    rw [forwardEach, sized, Array.extract_size]
    exact congrArg Except.ok (overwrite_of_size_eq sameSize)
  · rw [copy, if_pos sized.symm]

/-- A kernel at the width it takes runs the same when every access is checked. -/
theorem forwardWithin_eq
    {kernel : Kernel}
    {width : Nat}
    (takes : kernel.Takes width)
    (rows : Nat)
    (input output : Array Single) :
    kernel.forwardWithin rows width input output = kernel.forward rows width input output := by
  cases kernel with
  | dense matrix =>
      obtain ⟨rfl, numbers⟩ := takes
      refine rowsWithin_eq (fun row _ => matrix.size_apply row) fun row target sized fits => ?_
      exact Dense.rowWithin_eq ⟨sized.symm, numbers⟩ fits
  | nearest points =>
      obtain ⟨rfl, numbers⟩ := takes
      refine rowsWithin_eq (fun row _ => points.size_apply row) fun row target sized _ => ?_
      exact Nearest.rowWithin_eq ⟨sized.symm, numbers⟩
  | l2Norm =>
      refine rowsWithin_eq (fun row => (size_normalized row).trans) fun row target sized fits => ?_
      exact normalizedWithin_eq (fits.trans sized.symm)
  | relu | sigmoid =>
      rfl

/-- Each of some kernels that fit each other takes what those before it give. -/
theorem takes_of_chain
    {width : Nat}
    {before after : List Kernel}
    {kernel : Kernel}
    (chain : Chain width (before ++ kernel :: after)) :
    kernel.Takes (Trained.widthAfter width before) := by
  induction before generalizing width with
  | nil =>
      exact chain.1
  | cons first rest inductionHypothesis =>
      exact inductionHypothesis chain.2

end Kernel

/-- The rows of a width that values are cut into. -/
def rowsOf
    (values : Array Single)
    (count width : Nat) : List (Array Single) :=
  (List.range count).map fun row => values.extract (row * width) (row * width + width)

theorem haveWidth_rowsOf
    {values : Array Single}
    {count width : Nat}
    (sized : values.size = count * width) :
    HaveWidth width (rowsOf values count width) := by
  intro row member
  obtain ⟨position, below, rfl⟩ := List.mem_map.mp member
  have inside : (position + 1) * width ≤ count * width :=
    Nat.mul_le_mul_right width (List.mem_range.mp below)
  rw [Nat.succ_mul] at inside
  rw [Array.size_extract]
  omega

/-- The first rows of values are the values up to their end. -/
theorem joined_rowsOf
    (values : Array Single)
    (count width : Nat) :
    joined (rowsOf values count width) = values.extract 0 (count * width) := by
  induction count with
  | zero =>
      simp [rowsOf]
  | succ count inductionHypothesis =>
      have front : joined ((List.range count).map fun row =>
          values.extract (row * width) (row * width + width)) =
            values.extract 0 (count * width) := inductionHypothesis
      rw [rowsOf, List.range_succ, List.map_append, joined_append, front, List.map_singleton,
        joined_cons, joined_nil, Array.append_empty, Array.extract_append_extract, Nat.zero_min,
        Nat.max_eq_right (Nat.le_add_right _ _), Nat.succ_mul]

namespace Trained

/-- A network that is loaded, or none, runs whole rows and gives as many outputs as it has to. -/
theorem predict_rows
    {network : Trained}
    {context : Context}
    {input : Array Single}
    {count : Nat}
    (loaded : network = .absent ∨ network.Sound)
    (valid : context.Valid)
    (sized : input.size = count * network.inputSize) :
    ∃ output,
      (network.predict context input).2 = .ok output ∧
        output = joined ((rowsOf input count network.inputSize).map network.apply) ∧
        output.size = count * network.outputSize := by
  rcases loaded with rfl | sound
  · have nothing : joined (rowsOf input count 0) = #[] := by
      rw [joined_rowsOf, Nat.mul_zero, Array.extract_zero]
    have sameRows : (rowsOf input count 0).map absent.apply = rowsOf input count 0 :=
      List.map_id _
    exact ⟨#[], rfl, (sameRows ▸ nothing).symm, (Nat.mul_zero count).symm⟩
  · have widths := haveWidth_rowsOf sized
    have whole : joined (rowsOf input count network.inputSize) = input := by
      rw [joined_rowsOf, ← sized, Array.extract_size]
    have applied : HaveWidth network.outputSize
        ((rowsOf input count network.inputSize).map network.apply) :=
      widths.map fun _ => network.size_apply
    have ran := predict_joined sound valid widths
    rw [whole] at ran
    refine ⟨_, ran, rfl, ?_⟩
    rw [applied.size_joined, rowsOf, List.length_map, List.length_map, List.length_range]

/-- A network that is loaded, or none, runs whole rows in any context with room for them. -/
theorem predictWithin_rows
    {network : Trained}
    {context : Context}
    {input : Array Single}
    {count : Nat}
    (loaded : network = .absent ∨ network.Sound)
    (valid : context.Valid)
    (sized : input.size = count * network.inputSize)
    (room : network.canPredict context input) :
    ∃ output,
      (network.predictWithin context input).2 = .ok output ∧
        output = joined ((rowsOf input count network.inputSize).map network.apply) ∧
        output.size = count * network.outputSize := by
  rw [predictWithin, if_pos room]
  exact predict_rows loaded valid sized

/-- A kernel of a network that is loaded runs the same with every access checked. -/
theorem forwardWithin_of_mem
    {network : Trained}
    {before after : List Kernel}
    {kernel : Kernel}
    (loaded : network = .absent ∨ network.Sound)
    (kernels : network.kernels = before ++ kernel :: after)
    (rows : Nat)
    (input output : Array Single) :
    kernel.forwardWithin rows (widthAfter network.inputSize before) input output =
      kernel.forward rows (widthAfter network.inputSize before) input output := by
  rcases loaded with rfl | sound
  · cases before <;> cases kernels
  · have chain := sound.chain
    rw [kernels] at chain
    exact Kernel.forwardWithin_eq (Kernel.takes_of_chain chain) rows input output

/--
Reading bytes stops only at a tensor with an extent beyond what a buffer holds, and gives
no network or a sound one otherwise.  In any context that callers hold and that has room
it runs any number of whole rows, gives what it gives each row, and so as many outputs as
there are rows times its width.  No kernel of it ever leaves a buffer: at its place it
runs the same with every slice, access and copy checked.
-/
theorem predictWithin_of_load? (bytes : List UInt8) :
    (load? bytes = none →
        ∃ file, TensorFile.read? bytes = some file ∧
          ∃ entry ∈ file.entries, ∃ extent ∈ entry.shape, capacity < extent) ∧
      ∀ network, load? bytes = some network →
        (network = .absent ∨ network.Sound) ∧
          (∀ context input count,
            context.Reachable →
              input.size = count * network.inputSize →
              network.canPredict context input →
              ∃ output,
                (network.predictWithin context input).2 = .ok output ∧
                  output = joined ((rowsOf input count network.inputSize).map network.apply) ∧
                  output.size = count * network.outputSize) ∧
          ∀ before kernel after,
            network.kernels = before ++ kernel :: after →
              ∀ rows input output,
                let width := widthAfter network.inputSize before
                kernel.forwardWithin rows width input output =
                  kernel.forward rows width input output := by
  refine ⟨extent_of_load?_eq_none, fun network loads => ?_⟩
  have loaded : network = .absent ∨ network.Sound := by
    rw [← ofBytes_of_load? loads]
    exact ofBytes_absent_or_sound bytes
  refine ⟨loaded, ?_, ?_⟩
  · intro context input count reachable sized room
    exact predictWithin_rows loaded reachable.valid sized room
  · intro before kernel after kernels rows input output
    exact forwardWithin_of_mem loaded kernels rows input output

/-- The file of a network that sums up two values. -/
def sumFile : List UInt8 :=
  let header :=
    "\x7b\"__metadata__\":\x7b\"input_size\":\"2\"," ++
      "\"layers\":\"[\x7b\\\"type\\\":\\\"dense\\\"\x7d]\"\x7d," ++
      "\"layer.0.weight\":\x7b\"dtype\":\"F32\",\"shape\":[2,1],\"data_offsets\":[0,8]\x7d\x7d"
  let characters := header.toList.map fun character => UInt8.ofNat character.toNat
  let ones := Bytes.ofNat 4 Single.one.bits.toNat ++ Bytes.ofNat 4 Single.one.bits.toNat
  UInt8.ofNat characters.length :: List.replicate 7 0 ++ characters ++ ones

theorem load?_sumFile :
    load? sumFile =
      some ⟨.unnamed, 2, [.dense ⟨2, 1, #[.one, .one], #[.zero]⟩], sumFile.length⟩ := by
  decide +kernel

/-- It sums up three rows in a context for one row of one value. -/
theorem predictWithin_of_sumFile :
    let matrix : Dense := ⟨2, 1, #[.one, .one], #[.zero]⟩
    let network : Trained := ⟨.unnamed, 2, [.dense matrix], sumFile.length⟩
    load? sumFile = some network ∧
      network.Sound ∧
      (Context.make 1 1).Reachable ∧
      (Array.replicate 6 Single.one).size = 3 * network.inputSize ∧
      network.canPredict (.make 1 1) (Array.replicate 6 .one) ∧
      (∃ output,
        (network.predictWithin (.make 1 1) (Array.replicate 6 .one)).2 = .ok output ∧
          output.size = 3) ∧
      ∀ input output,
        (Kernel.dense matrix).forwardWithin 3 2 input output =
          (Kernel.dense matrix).forward 3 2 input output := by
  intro matrix network
  have loads : load? sumFile = some network := load?_sumFile
  have reachable : (Context.make 1 1).Reachable := .made (by decide)
  have sized : (Array.replicate 6 Single.one).size = 3 * network.inputSize :=
    Array.size_replicate
  have room : network.canPredict (.make 1 1) (Array.replicate 6 .one) := by
    decide +kernel
  obtain ⟨absentOrSound, runs, accesses⟩ := (predictWithin_of_load? sumFile).2 network loads
  have present : network ≠ .absent := by decide
  refine ⟨loads, absentOrSound.resolve_left present, reachable, sized, room, ?_, ?_⟩
  · obtain ⟨output, ran, _, outputs⟩ := runs _ _ 3 reachable sized room
    exact ⟨output, ran, outputs⟩
  · exact accesses [] _ [] rfl 3

/-- A kernel of no outputs, then one with more of them than a buffer holds, both without biases. -/
def endlessFile : TensorFile where
  texts :=
    [("layers", "[\x7b\"type\":\"dense\"\x7d,\x7b\"type\":\"dense\"\x7d]"),
      ("input_size", "1")]
  entries :=
    [⟨"layer.0.weight", .f32, [1, 0], 0, 0⟩, ⟨"layer.1.weight", .f32, [0, 2 ^ 62], 0, 0⟩]
  data := []

theorem length_headerBytes_endlessFile :
    endlessFile.headerBytes.length = 248 := by
  simp only [TensorFile.headerBytes, Text.toList_bytes]
  decide +kernel

/-- Reading this file stops. -/
theorem load?_endlessFile : load? endlessFile.write = none := by
  have laid : endlessFile.Laid := by
    refine ⟨?_, ?_, ?_, rfl, by decide⟩ <;>
      simp [endlessFile, TensorFile.textsKey, Text.greatest64]
  have limited : endlessFile.headerBytes.length ≤ TensorFile.headerLimit := by
    rw [length_headerBytes_endlessFile]
    decide
  have stops : stopsAt endlessFile.write := by
    rw [stopsAt, laid.read?_write limited]
    decide +kernel
  rw [load?, if_pos stops]

end Trained

end DpuCycles.Network
