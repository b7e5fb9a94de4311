import DpuCycles.Network.Trained

namespace DpuCycles.Network

/-!
# What a loaded network is

A file gives a network only when every kernel takes rows of the width that the
kernel before it gives, and brings as many numbers as that takes.  Bytes that do
not describe such a network give none.
-/

namespace Kernel

/-- A kernel for rows of a width, with all the numbers it reads. -/
def Takes
    (width : Nat) :
    Kernel → Prop
  | .dense kernel =>
      kernel.inputs = width ∧
        kernel.weight.size = kernel.inputs * kernel.outputs ∧
        kernel.bias.size = kernel.outputs
  | .nearest kernel =>
      kernel.inputs = width ∧
        kernel.weight.size = kernel.inputs * kernel.points ∧
        kernel.target.size = kernel.points ∧
        1 ≤ kernel.neighbours ∧ kernel.neighbours ≤ kernel.points
  | _ => True

/-- Kernels each of which takes what the one before it gives. -/
def Chain : Nat → List Kernel → Prop
  | _, [] => True
  | width, kernel :: rest => kernel.Takes width ∧ Chain (kernel.outputWidth width) rest

end Kernel

/-- A dense kernel is made only from as many numbers as it needs. -/
theorem Dense.make_takes
    {inputs outputs : Nat}
    {weight : Array Single}
    {bias? : Option (Array Single)}
    {kernel : Dense}
    (made : Dense.make inputs outputs weight bias? = .ok kernel) :
    (Kernel.dense kernel).Takes inputs := by
  unfold Dense.make at made
  split at made
  · contradiction
  · rename_i weights
    have weights := Decidable.not_not.mp weights
    cases bias? with
    | none =>
        dsimp only at made
        split at made
        · contradiction
        · obtain rfl := Except.ok.inj made
          exact ⟨rfl, weights, Array.size_replicate⟩
    | some bias =>
        dsimp only at made
        split at made
        · contradiction
        · rename_i biases
          obtain rfl := Except.ok.inj made
          exact ⟨rfl, weights, Decidable.not_not.mp biases⟩

theorem Nearest.make_takes
    {inputs points neighbours : Nat}
    {weight target : Array Single}
    {kernel : Nearest}
    (made : Nearest.make inputs points neighbours weight target = .ok kernel) :
    (Kernel.nearest kernel).Takes inputs := by
  unfold Nearest.make at made
  split at made
  · contradiction
  · rename_i sizes
    split at made
    · contradiction
    · rename_i near
      rw [Except.ok.injEq] at made
      subst kernel
      refine ⟨rfl, ?_, ?_, ?_, ?_⟩ <;> dsimp only <;> omega

/-- A network that is there, with kernels that fit each other and the input. -/
structure Trained.Sound (network : Trained) : Prop where
  inputPositive : 0 < network.inputSize
  present : network.kernels ≠ []
  chain : Kernel.Chain network.inputSize network.kernels

namespace Trained

theorem ok_of_map_toOption
    {attempt : Except ε α}
    {image : α → β}
    {result : β}
    (mapped : attempt.toOption.map image = some result) :
    ∃ value, attempt = .ok value ∧ image value = result := by
  cases attempt with
  | error fault =>
      simp [Except.toOption] at mapped
  | ok value =>
      exact ⟨value, rfl, by simpa [Except.toOption] using mapped⟩

/-- A kernel that is read takes rows of the width it is read for. -/
theorem kernel?_takes
    {file : TensorFile}
    {position width : Nat}
    {kind : KernelKind}
    {kernel : Kernel}
    (read : kernel? file position width kind = some kernel) :
    kernel.Takes width := by
  cases kind with
  | relu =>
      rw [kernel?, Option.some.injEq] at read
      subst kernel
      trivial
  | sigmoid =>
      rw [kernel?, Option.some.injEq] at read
      subst kernel
      trivial
  | l2Norm =>
      rw [kernel?, Option.some.injEq] at read
      subst kernel
      trivial
  | dense =>
      simp only [kernel?, Option.bind_eq_some_iff] at read
      obtain ⟨_, _, _, _, mapped⟩ := read
      obtain ⟨made, isMade, rfl⟩ := ok_of_map_toOption mapped
      exact Dense.make_takes isMade
  | nearest neighbours =>
      simp only [kernel?, Option.bind_eq_some_iff] at read
      obtain ⟨_, _, _, _, _, _, mapped⟩ := read
      obtain ⟨made, isMade, rfl⟩ := ok_of_map_toOption mapped
      exact Nearest.make_takes isMade

/-- Kernels that are read one after another fit each other, and there is one for each kind. -/
theorem kernels?_chain
    {file : TensorFile}
    {kinds : List KernelKind}
    {position width : Nat}
    {kernels : List Kernel}
    (read : kernels? file position width kinds = some kernels) :
    Kernel.Chain width kernels ∧ kernels.length = kinds.length := by
  induction kinds generalizing position width kernels with
  | nil =>
      rw [kernels?, Option.some.injEq] at read
      subst kernels
      exact ⟨trivial, rfl⟩
  | cons kind rest inductionHypothesis =>
      simp only [kernels?, Option.bind_eq_some_iff, Option.map_eq_some_iff] at read
      obtain ⟨kernel, first, others, ofRest, rfl⟩ := read
      have fitting := inductionHypothesis ofRest
      exact ⟨⟨kernel?_takes first, fitting.1⟩, congrArg (· + 1) fitting.2⟩

/-- A network that is read from a file is sound. -/
theorem ofFile?_sound
    {length : Nat}
    {file : TensorFile}
    {network : Trained}
    (read : ofFile? length file = some network) :
    network.Sound := by
  obtain ⟨shape, shaped, rest⟩ := Option.bind_eq_some_iff.mp read
  simp only [shape?, Option.bind_eq_some_iff] at shaped
  obtain ⟨kinds, _, inputSize, _, shaped⟩ := shaped
  split at shaped
  · contradiction
  · rename_i usable
    obtain rfl := Option.some.inj shaped
    simp only [Bool.or_eq_true, List.isEmpty_iff, beq_iff_eq, not_or] at usable
    obtain ⟨kernels, ofKinds, rfl⟩ := Option.map_eq_some_iff.mp rest
    have fitting := kernels?_chain ofKinds
    refine ⟨Nat.pos_of_ne_zero usable.2, ?_, fitting.1⟩
    intro noKernels
    have noKinds : kinds.length = 0 :=
      fitting.2.symm.trans (congrArg List.length noKernels)
    exact usable.1 (List.eq_nil_of_length_eq_zero noKinds)

/-- Bytes give no network or a sound one. -/
theorem ofBytes_absent_or_sound (bytes : List UInt8) :
    ofBytes bytes = absent ∨ (ofBytes bytes).Sound := by
  unfold ofBytes
  cases read : (TensorFile.read? bytes).bind (ofFile? bytes.length) with
  | none =>
      exact Or.inl rfl
  | some network =>
      obtain ⟨file, _, ofFile⟩ := Option.bind_eq_some_iff.mp read
      exact Or.inr (ofFile?_sound ofFile)

/-- A kernel lacks room for as many zeros as an extent of one of the tensors says. -/
theorem extent_of_lacksRoom
    {file : TensorFile}
    {position width : Nat}
    {kind : KernelKind}
    (lacking : lacksRoom file position width kind = true) :
    ∃ entry ∈ file.entries, ∃ extent ∈ entry.shape, capacity < extent := by
  cases kind with
  | dense =>
      obtain ⟨⟨outputs, weight⟩, isMatrix, stops⟩ := (Option.any_eq_true _ _).mp lacking
      obtain ⟨bias, _, stops⟩ := (Option.any_eq_true _ _).mp stops
      obtain ⟨entry, found, read⟩ := Option.bind_eq_some_iff.mp isMatrix
      obtain ⟨numbers, _, read⟩ := Option.bind_eq_some_iff.mp read
      obtain ⟨columns, isColumns, isPair⟩ := Option.map_eq_some_iff.mp read
      obtain rfl : columns = outputs := congrArg Prod.fst isPair
      have many : capacity < columns := by
        unfold Dense.make at stops
        split at stops <;> rename_i made
        · split at made
          · cases made
          · cases bias with
            | none =>
                dsimp only at made
                split at made
                · assumption
                · cases made
            | some bias =>
                dsimp only at made
                split at made <;> cases made
        · contradiction
      have isExtent : columns ∈ entry.shape := by
        unfold columns? at isColumns
        split at isColumns <;> simp_all
      exact ⟨entry, List.mem_of_find?_eq_some found, columns, isExtent, many⟩
  | _ =>
      exact absurd lacking Bool.false_ne_true

/-- Reading kernels stops only at an extent beyond what a buffer holds. -/
theorem extent_of_lackRoom
    {file : TensorFile}
    {position width : Nat}
    {kinds : List KernelKind}
    (lacking : lackRoom file position width kinds = true) :
    ∃ entry ∈ file.entries, ∃ extent ∈ entry.shape, capacity < extent := by
  induction kinds generalizing position width with
  | nil =>
      exact absurd lacking Bool.false_ne_true
  | cons kind rest inductionHypothesis =>
      rw [lackRoom, Bool.or_eq_true] at lacking
      obtain first | behind := lacking
      · exact extent_of_lacksRoom first
      · obtain ⟨kernel, _, behind⟩ := (Option.any_eq_true _ _).mp behind
        exact inductionHypothesis behind

/-- Reading bytes stops only at an extent beyond what a buffer holds. -/
theorem extent_of_load?_eq_none
    {bytes : List UInt8}
    (unread : load? bytes = none) :
    ∃ file, TensorFile.read? bytes = some file ∧
      ∃ entry ∈ file.entries, ∃ extent ∈ entry.shape, capacity < extent := by
  unfold load? at unread
  split at unread
  · rename_i stops
    obtain ⟨file, isFile, stops⟩ := (Option.any_eq_true _ _).mp stops
    obtain ⟨⟨inputSize, kinds⟩, _, lacking⟩ := (Option.any_eq_true _ _).mp stops
    exact ⟨file, isFile, extent_of_lackRoom lacking⟩
  · contradiction

theorem ofBytes_of_load?
    {bytes : List UInt8}
    {network : Trained}
    (loads : load? bytes = some network) :
    ofBytes bytes = network := by
  unfold load? at loads
  split at loads
  · contradiction
  · exact Option.some.inj loads

end Trained

end DpuCycles.Network
