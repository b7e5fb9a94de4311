import DpuCycles.Proofs.Network.Files
import DpuCycles.Proofs.Network.Runs

namespace DpuCycles.Network

/-!
# Rows leave nothing behind

A network gives for a batch of rows what its kernels give for each row alone, in the
order of the rows.  Neither the number of rows that a context takes at a time nor what
its buffers hold from other runs or other networks shows in the output, as long as there
is room for the run.

Inside a run, the distances to reference points and the order of the points stay in
place from row to row.  Each row overwrites both before it reads them, so a kernel
gives the same whatever was left there.
-/

/-- What a row leaves behind: its distances to the reference points, and their order. -/
structure Scratch where
  distances : Array Single
  order : List Nat

/-- Scratch with a distance for each reference point of a kernel. -/
def Scratch.Fits (scratch : Scratch) : Kernel → Prop
  | .nearest kernel => scratch.distances.size = kernel.points
  | _ => True

namespace Kernel

/-- The same outcome of a run without and with scratch, which fits the kernel afterwards. -/
inductive SameRun
    (kernel : Kernel) :
    Except Fault (Array Single) → Except Fault (Array Single × Scratch) → Prop where
  | written
      {values : Array Single}
      {left : Scratch} :
      left.Fits kernel →
      SameRun kernel (.ok values) (.ok (values, left))
  | stopped (fault : Fault) :
      SameRun kernel (.error fault) (.error fault)

/-- Runs go on alike when they go on alike from the same values and any scratch that fits. -/
theorem SameRun.bind
    {kernel : Kernel}
    {plain : Except Fault (Array Single)}
    {reusing : Except Fault (Array Single × Scratch)}
    {next : Array Single → Except Fault (Array Single)}
    {nextReusing : Array Single × Scratch → Except Fault (Array Single × Scratch)}
    (same : SameRun kernel plain reusing)
    (goOn : ∀ values left, left.Fits kernel →
      SameRun kernel (next values) (nextReusing (values, left))) :
    SameRun kernel (plain.bind next) (reusing.bind nextReusing) := by
  cases same with
  | written fits =>
      exact goOn _ _ fits
  | stopped fault =>
      exact .stopped fault

theorem SameRun.map_fst
    {kernel : Kernel}
    {plain : Except Fault (Array Single)}
    {reusing : Except Fault (Array Single × Scratch)}
    (same : SameRun kernel plain reusing) :
    reusing.map Prod.fst = plain := by
  cases same <;> rfl

theorem size_slice
    {buffer part : Array Single}
    {start stop : Nat}
    (sliced : slice buffer start stop = .ok part) :
    part.size = stop - start := by
  unfold slice at sliced
  split at sliced
  · rename_i inside
    rw [← Except.ok.inj sliced, Array.size_extract, Nat.min_eq_left inside.2]
  · contradiction

end Kernel

namespace Nearest

open Kernel

/--
One row in the scratch of the row before.  The distances start from one again, and the
order is emptied before it takes all points.
-/
def rowReusing
    (kernel : Nearest)
    (scratch : Scratch)
    (row : Array Single) : Except Fault (Array Single × Scratch) := do
  let distances ←
    (List.range kernel.inputs).foldlM (kernel.subtractInput row)
      (scratch.distances.map fun _ => .one)
  let points ← (scratch.order.take 0 ++ List.range kernel.points).mapM fun point =>
    (fetch distances point).map fun distance => (point, distance)
  let order := points.mergeSort fun left right => left.2.rank ≤ right.2.rank
  if order.length < kernel.neighbours then
    throw .outOfRange
  else
    let sums ← (order.take kernel.neighbours).foldlM kernel.addTarget (.zero, .zero)
    return (#[sums.1 / sums.2], ⟨distances, order.map Prod.fst⟩)

/-- Rows one after another; what one of them leaves behind is there for the next. -/
def rowsReusing
    (kernel : Nearest)
    (scratch : Scratch)
    (rows : Nat)
    (input output : Array Single) : Except Fault (Array Single × Scratch) :=
  (List.range rows).foldlM
    (fun state row => do
      let source ← slice input (row * kernel.inputs) ((row + 1) * kernel.inputs)
      let _ ← slice state.1 (row * 1) ((row + 1) * 1)
      let (values, left) ← kernel.rowReusing state.2 source
      return (writeAt state.1 (row * 1) values, left))
    (output, scratch)

variable
  {kernel : Nearest}
  {scratch : Scratch}
  {row : Array Single}

/-- A row in any scratch of the right size gives what it gives in new buffers. -/
theorem rowReusing_sameRun
    (takes : (Kernel.nearest kernel).Takes row.size)
    (fits : scratch.Fits (.nearest kernel)) :
    SameRun (.nearest kernel) (kernel.rowWithin row) (kernel.rowReusing scratch row) := by
  have reset :
      (scratch.distances.map fun _ => Single.one) = Array.replicate kernel.points .one := by
    rw [Array.map_const', fits]
  have distances := foldlM_subtractInput takes (Nat.le_refl _)
  have inside : ∀ point ∈ List.range kernel.points, point < kernel.points :=
    fun point member => List.mem_range.mp member
  have points := mapM_fetch (kernel.partialDistance row kernel.inputs) inside
  rw [rowReusing, rowWithin, reset, List.take_zero, List.nil_append, distances]
  simp only [bind, Except.bind, points]
  split
  · exact .stopped .outOfRange
  · cases (List.take kernel.neighbours _).foldlM kernel.addTarget (Single.zero, Single.zero) with
    | error fault =>
        exact .stopped fault
    | ok sums =>
        exact .written (by simp [Scratch.Fits])

theorem rowsReusing_succ
    {rows : Nat}
    {input output : Array Single} :
    kernel.rowsReusing scratch (rows + 1) input output =
      (kernel.rowsReusing scratch rows input output).bind fun state =>
        (slice input (rows * kernel.inputs) ((rows + 1) * kernel.inputs)).bind fun source =>
          (slice state.1 (rows * 1) ((rows + 1) * 1)).bind fun _ =>
            (kernel.rowReusing state.2 source).bind fun result =>
              .ok (writeAt state.1 (rows * 1) result.1, result.2) := by
  rw [rowsReusing, List.range_succ, List.foldlM_append]
  simp only [List.foldlM_cons, List.foldlM_nil, bind_pure]
  rfl

/-- Rows give with scratch from row to row what they give with new buffers for each of them. -/
theorem rowsReusing_sameRun
    (takes : (Kernel.nearest kernel).Takes kernel.inputs)
    (fits : scratch.Fits (.nearest kernel))
    (rows : Nat)
    (input output : Array Single) :
    SameRun (.nearest kernel)
      (rowsWithin (fun row _ => kernel.rowWithin row) rows kernel.inputs 1 input output)
      (kernel.rowsReusing scratch rows input output) := by
  induction rows with
  | zero =>
      exact .written fits
  | succ rows inductionHypothesis =>
      rw [rowsWithin_succ, rowsReusing_succ]
      refine inductionHypothesis.bind fun written left leftFits => ?_
      cases sliced : slice input (rows * kernel.inputs) ((rows + 1) * kernel.inputs) with
      | error fault =>
          exact .stopped fault
      | ok source =>
          cases slice written (rows * 1) ((rows + 1) * 1) with
          | error fault =>
              exact .stopped fault
          | ok target =>
              have sized : source.size = kernel.inputs := by
                rw [size_slice sliced, Nat.succ_mul, Nat.add_sub_cancel_left]
              refine (rowReusing_sameRun (sized ▸ takes) leftFits).bind ?_
              exact fun values last lastFits => .written lastFits

end Nearest

namespace Kernel

/-- A batch of rows through a kernel, with scratch that goes from row to row. -/
def forwardReusing
    (kernel : Kernel)
    (scratch : Scratch)
    (rows width : Nat)
    (input output : Array Single) : Except Fault (Array Single × Scratch) :=
  match kernel with
  | .nearest points => points.rowsReusing scratch rows input output
  | other => (other.forwardWithin rows width input output).map fun written => (written, scratch)

/-- A kernel at the width it takes gives the same in whatever scratch fits it. -/
theorem forwardReusing_eq
    {kernel : Kernel}
    {scratch : Scratch}
    {width : Nat}
    (takes : kernel.Takes width)
    (fits : scratch.Fits kernel)
    (rows : Nat)
    (input output : Array Single) :
    (kernel.forwardReusing scratch rows width input output).map Prod.fst =
      kernel.forward rows width input output := by
  have forgotten : ∀ outcome : Except Fault (Array Single),
      (outcome.map fun written => (written, scratch)).map Prod.fst = outcome := by
    rintro (_ | _) <;> rfl
  rw [← forwardWithin_eq takes]
  cases kernel with
  | nearest points =>
      obtain ⟨rfl, numbers⟩ := takes
      exact (Nearest.rowsReusing_sameRun ⟨rfl, numbers⟩ fits rows input output).map_fst
  | dense | l2Norm =>
      exact forgotten _
  | relu | sigmoid =>
      rfl

/-- One row through kernels, each of which writes into a new buffer of its own. -/
def runAlone : Nat → List Kernel → Array Single → Except Fault (Array Single)
  | _, [], row => .ok row
  | width, kernel :: rest, row =>
      let next := kernel.outputWidth width
      (kernel.forward 1 width row (Array.replicate next .zero)).bind (runAlone next rest)

theorem runAlone_eq
    {kernels : List Kernel}
    {width : Nat}
    {row : Array Single}
    (chain : Chain width kernels)
    (sized : row.size = width) :
    runAlone width kernels row =
      .ok (kernels.foldl (fun row kernel => kernel.apply row) row) := by
  induction kernels generalizing width row with
  | nil =>
      rfl
  | cons kernel rest inductionHypothesis =>
      obtain ⟨takes, restChain⟩ := chain
      have widths : HaveWidth width [row] := by
        simpa [HaveWidth] using sized
      have fits : (Array.replicate (kernel.outputWidth width) Single.zero).size =
          [row].length * kernel.outputWidth width := by
        simp
      have first := forward_joined takes widths fits
      simp only [List.length_singleton, joined_cons, joined_nil, Array.append_empty,
        List.map_singleton] at first
      rw [runAlone, first]
      exact inductionHypothesis restChain (kernel.size_apply sized)

end Kernel

namespace Trained

/-- Each row of a loaded network, run alone, gives what the network gives for it. -/
theorem mapM_runAlone
    {network : Trained}
    {rows : List (Array Single)}
    (loaded : network = .absent ∨ network.Sound)
    (widths : HaveWidth network.inputSize rows) :
    rows.mapM (Kernel.runAlone network.inputSize network.kernels) =
      .ok (rows.map network.apply) := by
  have alone : ∀ row ∈ rows,
      Kernel.runAlone network.inputSize network.kernels row = .ok (network.apply row) := by
    intro row member
    rcases loaded with rfl | sound
    · rfl
    · exact Kernel.runAlone_eq sound.chain (widths row member)
  clear widths
  induction rows with
  | nil =>
      rfl
  | cons row rest inductionHypothesis =>
      obtain ⟨first, others⟩ := List.forall_mem_cons.mp alone
      rw [List.mapM_cons, first, inductionHypothesis others]
      rfl

/--
Whole rows of input give, in any context that callers hold and that has room for them,
the rows that the kernels give for each row alone, in the order of the rows.  The same
rows come out of every such context, whatever number of rows it takes at a time and
whatever its buffers hold.  Inside of a run no kernel shows what a row before left in
its scratch.
-/
theorem predictWithin_rowByRow (bytes : List UInt8) :
    let network := ofBytes bytes
    (∀ context : Context, context.Reachable → context.Valid) ∧
      (∀ input count,
        input.size = count * network.inputSize →
          ∃ rows,
            (rowsOf input count network.inputSize).mapM
                (Kernel.runAlone network.inputSize network.kernels) = .ok rows ∧
              ∀ context : Context,
                context.Valid →
                  network.canPredict context input →
                    (network.predictWithin context input).2 = .ok (joined rows)) ∧
      ∀ before kernel after,
        network.kernels = before ++ kernel :: after →
          ∀ scratch : Scratch, scratch.Fits kernel →
            ∀ rows input output,
              let width := widthAfter network.inputSize before
              (kernel.forwardReusing scratch rows width input output).map Prod.fst =
                kernel.forward rows width input output := by
  have loaded := ofBytes_absent_or_sound bytes
  refine ⟨fun context => Context.Reachable.valid, ?_, ?_⟩
  · intro input count sized
    refine ⟨_, mapM_runAlone loaded (haveWidth_rowsOf sized), fun context valid room => ?_⟩
    obtain ⟨output, ran, rfl, _⟩ := predictWithin_rows loaded valid sized room
    exact ran
  · intro before kernel after kernels scratch fits rows input output
    rcases loaded with absent | sound
    · rw [absent] at kernels
      cases before <;> cases kernels
    · have chain := sound.chain
      rw [kernels] at chain
      exact Kernel.forwardReusing_eq (Kernel.takes_of_chain chain) fits rows input output

/-- A kernel that tells the nearer of two points. -/
def nearer : Nearest := ⟨1, 2, 1, #[.one, .zero], #[.zero, .one]⟩

/-- The file of a network with this kernel alone. -/
def nearerFile : TensorFile where
  texts := [("layers", "[\x7b\"type\":\"knn\",\"n_neighbors\":1\x7d]"), ("input_size", "1")]
  entries := [⟨"layer.0.weight", .f32, [1, 2], 0, 8⟩, ⟨"layer.0.target", .f32, [2], 8, 16⟩]
  data := [Single.one, .zero, .zero, .one].flatMap fun number => Bytes.ofNat 4 number.bits.toNat

theorem length_headerBytes_nearerFile :
    nearerFile.headerBytes.length = 224 := by
  simp only [TensorFile.headerBytes, Text.toList_bytes]
  decide +kernel

theorem ofBytes_nearerFile :
    ofBytes nearerFile.write = ⟨.unnamed, 1, [.nearest nearer], 248⟩ := by
  have laid : nearerFile.Laid := by
    refine ⟨?_, ?_, ?_, rfl, by decide⟩ <;> simp [nearerFile, TensorFile.textsKey, Text.greatest64]
  have limited : nearerFile.headerBytes.length ≤ TensorFile.headerLimit := by
    rw [length_headerBytes_nearerFile]
    decide
  have length : nearerFile.write.length = 248 := by
    simp only [TensorFile.write, List.length_append, Bytes.length_ofNat,
      length_headerBytes_nearerFile]
    decide
  have described : ofFile? 248 nearerFile = some ⟨.unnamed, 1, [.nearest nearer], 248⟩ := by
    decide +kernel
  rw [ofBytes, laid.read?_write limited, Option.bind_some, length, described]
  rfl

/--
Three rows come out alike of a new context for two rows and of one for five that was
used by another network, and scratch from elsewhere does not show.
-/
theorem predictWithin_of_nearerFile :
    let network := ofBytes nearerFile.write
    let input := #[Single.one, .zero, .one]
    let used := ((ofBytes sumFile).predictWithin (.make 5 0) (Array.replicate 10 .one)).1
    input.size = 3 * network.inputSize ∧
      (Context.make 2 1).Valid ∧
      used.Reachable ∧
      network.canPredict (.make 2 1) input ∧
      network.canPredict used input ∧
      (∃ output,
        (network.predictWithin (.make 2 1) input).2 = .ok output ∧
          (network.predictWithin used input).2 = .ok output) ∧
      network.kernels = [] ++ .nearest nearer :: [] ∧
      (⟨#[.zero, .one], [1, 0]⟩ : Scratch).Fits (.nearest nearer) ∧
      ∀ output,
        ((Kernel.nearest nearer).forwardReusing ⟨#[.zero, .one], [1, 0]⟩ 3 1 input output).map
            Prod.fst =
          (Kernel.nearest nearer).forward 3 1 input output := by
  have inputSize : (ofBytes nearerFile.write).inputSize = 1 :=
    congrArg Trained.inputSize ofBytes_nearerFile
  have neededWidth : (ofBytes nearerFile.write).neededWidth = 1 := by
    rw [ofBytes_nearerFile]
    decide
  have outputSize : (ofBytes nearerFile.write).outputSize = 1 :=
    congrArg Trained.outputSize ofBytes_nearerFile
  have kernels : (ofBytes nearerFile.write).kernels = [] ++ .nearest nearer :: [] :=
    congrArg Trained.kernels ofBytes_nearerFile
  have sized : #[Single.one, .zero, .one].size = 3 * (ofBytes nearerFile.write).inputSize := by
    rw [inputSize]
    decide
  intro network input used
  have room : ∀ context : Context, context.batch ≤ 5 → network.canPredict context input := by
    intro context few
    have grows : context.hasRoom network.neededWidth := by
      refine Context.hasRoom_of_le ?_
      rw [neededWidth, Nat.mul_one]
      exact Nat.le_trans few (by decide)
    have collected : network.collects input := by
      rw [collects, inputSize, outputSize]
      decide
    rw [canPredict, grows, collected]
    rfl
  have isUsed : used.Reachable := by
    refine .used _ ?_ (.made (by decide))
    rw [ofBytes_of_load? load?_sumFile]
    decide
  have roomMade := room (.make 2 1) (by decide)
  have roomUsed := room used (by
    rw [batch_predictWithin]
    decide)
  obtain ⟨valid, runs, scratches⟩ := predictWithin_rowByRow nearerFile.write
  have made : (Context.make 2 1).Valid := valid _ (.made (by decide))
  obtain ⟨rows, _, same⟩ := runs input 3 sized
  refine ⟨sized, made, isUsed, roomMade, roomUsed,
    ⟨joined rows, same _ made roomMade, same _ (valid _ isUsed) roomUsed⟩, kernels, rfl, ?_⟩
  intro output
  have start : ∀ width, widthAfter width [] = width := fun _ => rfl
  have sameRows := scratches [] _ [] kernels ⟨#[.zero, .one], [1, 0]⟩ rfl 3 input output
  rw [start, inputSize] at sameRows
  exact sameRows

/-- The file of a network of one kernel without numbers, for rows of a width. -/
def reluBytes (inputSize : String) : List UInt8 :=
  let header :=
    "\x7b\"__metadata__\":\x7b\"input_size\":\"" ++ inputSize ++
      "\",\"layers\":\"[\x7b\\\"type\\\":\\\"relu\\\"\x7d]\"\x7d\x7d"
  let characters := header.toList.map fun character => UInt8.ofNat character.toNat
  UInt8.ofNat characters.length :: List.replicate 7 0 ++ characters

theorem ofBytes_reluBytes_one :
    ofBytes (reluBytes "1") = ⟨.unnamed, 1, [.relu], 76⟩ := by
  decide +kernel

theorem ofBytes_reluBytes_great :
    ofBytes (reluBytes "576460752303423488") = ⟨.unnamed, 2 ^ 59, [.relu], 93⟩ := by
  decide +kernel

/-- A network whose rows four times no buffer holds does not even run no rows. -/
theorem predictWithin_of_reluBytes :
    let network := ofBytes (reluBytes "576460752303423488")
    network ≠ absent ∧
      (Context.make 4 0).Reachable ∧
      (rowsOf #[] 0 network.inputSize).mapM
          (Kernel.runAlone network.inputSize network.kernels) = .ok [] ∧
      (network.predictWithin (.make 4 0) #[]).2 = .error .noRoom := by
  rw [ofBytes_reluBytes_great]
  exact ⟨by decide, .made (by decide), rfl, rfl⟩

end Trained

end DpuCycles.Network
