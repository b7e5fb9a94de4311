import DpuCycles.Proofs.Network.Tensors
import DpuCycles.Proofs.Number.Halves

namespace DpuCycles.Network

/-!
# Drafts read back

The file of a draft gives back every tensor of it under its name and has no
others, so reading it rebuilds the kernels one after another.  A kernel that was
drafted without a bias has none in the file and is read with zeros.  The named
texts are looked up by their keys, so their order makes no difference.
-/

open Text

/-- Numbers in the right amounts make a dense kernel, if a missing bias has room. -/
theorem Dense.make_of_sizes
    {inputs outputs : Nat}
    {weight : Array Single}
    {bias? : Option (Array Single)}
    (weights : weight.size = inputs * outputs)
    (biases : ∀ bias ∈ bias?, bias.size = outputs)
    (room : bias? = none → outputs ≤ capacity) :
    Dense.make inputs outputs weight bias? =
      .ok ⟨inputs, outputs, weight, bias?.getD (Array.replicate outputs .zero)⟩ := by
  unfold Dense.make
  rw [if_neg (not_not_intro weights)]
  cases bias? with
  | none =>
      exact if_neg (Nat.not_lt.mpr (room rfl))
  | some bias =>
      exact if_neg (not_not_intro (biases bias rfl))

/-- A missing bias without room makes no dense kernel. -/
theorem Dense.make_noRoom
    {inputs outputs : Nat}
    {weight : Array Single}
    (weights : weight.size = inputs * outputs)
    (many : capacity < outputs) :
    Dense.make inputs outputs weight none = .error (.noRoom outputs) := by
  unfold Dense.make
  rw [if_neg (not_not_intro weights)]
  exact if_pos many

/-- Numbers in the right amounts and enough points make a regression. -/
theorem Nearest.make_of_sizes
    {inputs points neighbours : Nat}
    {weight target : Array Single}
    (weights : weight.size = inputs * points)
    (targets : target.size = points)
    (near : 1 ≤ neighbours ∧ neighbours ≤ points) :
    make inputs points neighbours weight target =
      .ok ⟨inputs, points, neighbours, weight, target⟩ := by
  rw [make, if_neg (by simp [weights, targets]), if_neg (by omega)]

namespace KernelDraft

/-- The kernel a draft describes for rows of a width, with the numbers as they are stored. -/
def kernel
    (half : Bool)
    (width : Nat) :
    KernelDraft → Kernel
  | .dense outputs weight bias =>
      let stored := bias.map fun bias => (bias.map (storedValue half)).toArray
      .dense ⟨width, outputs, (weight.map (storedValue half)).toArray,
        stored.getD (Array.replicate outputs .zero)⟩
  | .relu => .relu
  | .sigmoid => .sigmoid
  | .l2Norm => .l2Norm
  | .nearest neighbours points targets =>
      .nearest ⟨width, targets.length, neighbours, (points.map (storedValue half)).toArray,
        (targets.map (storedValue half)).toArray⟩

/-- At least one neighbour, and no more than there are targets. -/
def HasNeighbours : KernelDraft → Prop
  | .nearest neighbours _ targets => 1 ≤ neighbours ∧ neighbours ≤ targets.length
  | _ => True

/-- A missing bias stands for no more zeros than there is room for. -/
def HasRoom : KernelDraft → Prop
  | .dense outputs _ none => outputs ≤ capacity
  | _ => True

theorem outputWidth_kernel
    (half : Bool)
    (width : Nat)
    (draft : KernelDraft) :
    (draft.kernel half width).outputWidth width = draft.outputWidth width := by
  cases draft <;> rfl

end KernelDraft

namespace Draft

/-- The kernels that drafts describe for rows of a width. -/
def kernelsFrom
    (half : Bool) :
    Nat → List KernelDraft → List Kernel
  | _, [] => []
  | width, draft :: rest =>
      draft.kernel half width :: kernelsFrom half (draft.outputWidth width) rest

/-- Numbers of a draft that fit the words they are kept in. -/
structure InWords (draft : Draft) : Prop where
  inputVersion : draft.version.input ≤ greatest32
  outputVersion : draft.version.output ≤ greatest32
  inputSize : draft.inputSize ≤ greatest64
  kernels : ∀ kernel ∈ draft.kernels, kernel.InWords

/-- The tensors of a draft in the order of a file. -/
def sorted (draft : Draft) : List Stored :=
  draft.tensors.mergeSort storedBefore

theorem mem_sorted
    {draft : Draft}
    {stored : Stored} :
    stored ∈ draft.sorted ↔ stored ∈ draft.tensors :=
  List.mem_mergeSort

theorem sorted_pairwise (draft : Draft) :
    draft.sorted.Pairwise fun left right => left.name ≠ right.name :=
  (List.mergeSort_perm draft.tensors storedBefore).symm.pairwise
    (tensorsFrom_pairwise 0 draft.inputSize draft.kernels) fun different => Ne.symm different

/-- A file with the tensors of a draft and, in some order, its named texts. -/
structure Written
    (draft : Draft)
    (file : TensorFile) : Prop where
  fit : ∀ stored ∈ draft.tensors, fits stored = true
  texts : file.texts.Perm draft.texts
  entries : file.entries = place draft.dtype 0 draft.sorted
  data : file.data = draft.sorted.flatMap draft.tensorBytes

/-- The bytes a draft may be written as; the order of its named texts is left open. -/
def Writes
    (draft : Draft)
    (bytes : List UInt8) : Prop :=
  ∃ file texts, draft.toFile? = some file ∧ texts.Perm file.texts ∧
    bytes = TensorFile.write ⟨texts, file.entries, file.data⟩

variable {draft : Draft} {file : TensorFile} {bytes : List UInt8}

/-- The order in which a draft lists its texts is one of them. -/
theorem writes_of_toBytes?
    (written : draft.toBytes? = some bytes) :
    draft.Writes bytes := by
  obtain ⟨file, isFile, isBytes⟩ := Option.map_eq_some_iff.mp written
  exact ⟨file, file.texts, isFile, .refl _, isBytes.symm⟩

/-- Whatever is written is a file with the tensors and the texts of the draft. -/
theorem exists_of_writes
    (writes : draft.Writes bytes) :
    ∃ file, draft.Written file ∧ bytes = file.write := by
  obtain ⟨file, texts, isFile, reordered, isBytes⟩ := writes
  refine ⟨⟨texts, file.entries, file.data⟩, ?_, isBytes⟩
  rw [toFile?] at isFile
  split at isFile
  · rename_i allFit
    cases isFile
    exact ⟨List.all_eq_true.mp allFit, reordered, rfl, rfl⟩
  · contradiction

/-- A named text is found wherever it stands. -/
theorem text?_of_mem
    {name text : String}
    (texts : file.texts.Perm draft.texts)
    (member : (name, text) ∈ draft.texts)
    (unique : ∀ other ∈ draft.texts, other.1 = name → other.2 = text) :
    file.text? name = some text := by
  rw [TensorFile.text?]
  cases found : file.texts.reverse.find? fun member => member.1 == name with
  | none =>
      have missing := List.find?_eq_none.mp found (name, text)
        (List.mem_reverse.mpr (texts.mem_iff.mpr member))
      exact absurd BEq.rfl missing
  | some other =>
      have isOther := List.mem_reverse.mp (List.mem_of_find?_eq_some found)
      have named := List.find?_some found
      rw [beq_iff_eq] at named
      rw [Option.map_some, unique other (texts.mem_iff.mp isOther) named]

/-- The entries of a written file describe its numbers. -/
theorem Written.laid
    (written : draft.Written file)
    (inWords : draft.InWords)
    (addressable : file.data.length ≤ greatest64) :
    file.Laid := by
  obtain ⟨fit, -, entries, data⟩ := written
  have shaped : ∀ stored ∈ draft.sorted, Stored.Shaped stored.shape := fun stored member =>
    shaped_of_mem_tensorsFrom inWords.kernels inWords.inputSize (mem_sorted.mp member)
  have described : ∀ entry ∈ place draft.dtype 0 draft.sorted, ∃ stored ∈ draft.sorted,
      entry.name = stored.name ∧ entry.shape = stored.shape := by
    intro entry member
    have pair := List.mem_map_of_mem (f := fun entry => (entry.name, entry.shape)) member
    rw [map_place, List.mem_map] at pair
    obtain ⟨stored, isStored, same⟩ := pair
    exact ⟨stored, isStored, (Prod.mk.inj same).1.symm, (Prod.mk.inj same).2.symm⟩
  constructor
  case distinct =>
    have names : (draft.sorted.map fun stored => (stored.name, stored.shape)).Pairwise
        fun left right => left.1 ≠ right.1 :=
      List.pairwise_map.mpr draft.sorted_pairwise
    rw [← map_place draft.dtype 0, List.pairwise_map] at names
    rwa [entries]
  case unreserved =>
    rw [entries]
    intro entry member
    obtain ⟨stored, isStored, name, -⟩ := described entry member
    obtain ⟨position, -, part, -, tensorName⟩ := isPart_of_mem_tensorsFrom (mem_sorted.mp isStored)
    rw [name, tensorName]
    exact Trained.tensorName_ne_textsKey position part
  case extents =>
    rw [entries]
    intro entry member
    obtain ⟨stored, isStored, -, shape⟩ := described entry member
    rw [shape]
    exact (shaped stored isStored).le
  case filled =>
    have filled : Entry.stop? 0 (place draft.dtype 0 draft.sorted) =
        some (0 + (draft.sorted.flatMap draft.tensorBytes).length) :=
      stop?_place (fun stored member => fit stored (mem_sorted.mp member)) shaped
        (data ▸ addressable)
    rw [entries, filled, data, Nat.zero_add]
  case addressable =>
    exact addressable

/-- Every tensor of a draft is found in its file with the numbers as they are stored. -/
theorem Written.entryOf?_of_mem
    {stored : Stored}
    (written : draft.Written file)
    (member : stored ∈ draft.tensors) :
    ∃ entry, file.entryOf? stored.name = some entry ∧ entry.shape = stored.shape ∧
      Trained.floats? file entry = some (stored.values.map (storedValue draft.half)).toArray := by
  obtain ⟨entry, found, dtype, shape, bytes⟩ := find?_place draft.sorted_pairwise
    (mem_sorted.mpr member) (rfl : ([] : List UInt8).length = 0)
  rw [List.nil_append, ← written.data] at bytes
  rw [TensorFile.entryOf?, written.entries]
  exact ⟨entry, found, shape, floats?_tensorBytes dtype bytes⟩

/-- A file of a draft has no other tensors. -/
theorem Written.entryOf?_eq_none
    {name : String}
    (written : draft.Written file)
    (other : ∀ stored ∈ draft.tensors, stored.name ≠ name) :
    file.entryOf? name = none := by
  rw [TensorFile.entryOf?, written.entries]
  exact find?_place_eq_none fun stored member => other stored (mem_sorted.mp member)

/-- A file that holds the tensors of kernels from a position on, and no other ones from there. -/
structure Held
    (file : TensorFile)
    (half : Bool)
    (position width : Nat)
    (kernels : List KernelDraft) : Prop where
  found : ∀ stored ∈ tensorsFrom position width kernels, ∃ entry,
    file.entryOf? stored.name = some entry ∧ entry.shape = stored.shape ∧
      Trained.floats? file entry = some (stored.values.map (storedValue half)).toArray
  nothingElse : ∀ later, position ≤ later → ∀ part ∈ Stored.partNames,
    (∀ stored ∈ tensorsFrom position width kernels, stored.name ≠ Trained.tensorName later part) →
      file.entryOf? (Trained.tensorName later part) = none

theorem Held.tail
    {half : Bool}
    {position width : Nat}
    {kernel : KernelDraft}
    {rest : List KernelDraft}
    (held : Held file half position width (kernel :: rest)) :
    Held file half (position + 1) (kernel.outputWidth width) rest := by
  constructor
  case found =>
    exact fun stored member => held.found stored (List.mem_append_right _ member)
  case nothingElse =>
    intro later behind part isPart other
    refine held.nothingElse later (Nat.le_of_succ_le behind) part isPart fun stored member => ?_
    rcases List.mem_append.mp member with isFirst | isLater
    · -- the first kernel stands at a position before all others
      intro same
      obtain ⟨firstPart, isFirstPart, name⟩ := KernelDraft.isPart_of_mem_tensors isFirst
      have position := (Trained.tensorName_inj (kernel.parts_subset isFirstPart) isPart
        (name.symm.trans same)).1
      omega
    · exact other stored isLater

/-- The first kernel has no tensor for a part it does not store. -/
theorem Held.missing
    {half : Bool}
    {position width : Nat}
    {kernel : KernelDraft}
    {rest : List KernelDraft}
    {part : String}
    (held : Held file half position width (kernel :: rest))
    (isPart : part ∈ Stored.partNames)
    (notStored : part ∉ kernel.parts) :
    file.entryOf? (Trained.tensorName position part) = none := by
  refine held.nothingElse position (Nat.le_refl position) part isPart fun stored member same => ?_
  rcases List.mem_append.mp member with isFirst | isLater
  · obtain ⟨firstPart, isFirstPart, name⟩ := KernelDraft.isPart_of_mem_tensors isFirst
    have part := (Trained.tensorName_inj (kernel.parts_subset isFirstPart) isPart
      (name.symm.trans same)).2
    exact notStored (part ▸ isFirstPart)
  · obtain ⟨later, behind, laterPart, isLaterPart, name⟩ := isPart_of_mem_tensorsFrom isLater
    have position := (Trained.tensorName_inj isLaterPart isPart (name.symm.trans same)).1
    omega

/-- A stored matrix is read with its columns. -/
theorem Held.matrix?
    {half : Bool}
    {position width columns : Nat}
    {kernels : List KernelDraft}
    {values : List Single}
    (held : Held file half position width kernels)
    (member : ⟨Trained.tensorName position "weight", [width, columns], values⟩ ∈
      tensorsFrom position width kernels) :
    Trained.matrix? file position width =
      some (columns, (values.map (storedValue half)).toArray) := by
  obtain ⟨entry, found, shape, numbers⟩ := held.found _ member
  have fitting : Trained.columns? width [width, columns] = some columns := if_pos rfl
  simp only [Trained.matrix?, found, Option.bind_some, numbers, shape, fitting, Option.map_some]

/-- The values of a matrix are counted by its rows and columns. -/
theorem length_of_fits_matrix
    {name : String}
    {rows columns : Nat}
    {values : List Single}
    (fit : fits ⟨name, [rows, columns], values⟩ = true) :
    values.length = rows * columns := by
  simpa [fits] using fit

theorem length_of_fits_row
    {name : String}
    {count : Nat}
    {values : List Single}
    (fit : fits ⟨name, [count], values⟩ = true) :
    values.length = count := by
  simpa [fits] using fit

/-- The bias of a dense kernel is read where there is one. -/
theorem Held.bias?
    {half : Bool}
    {position width outputs : Nat}
    {weight : List Single}
    {bias : Option (List Single)}
    {rest : List KernelDraft}
    (held : Held file half position width (.dense outputs weight bias :: rest)) :
    Trained.bias? file position =
      some (bias.map fun bias => (bias.map (storedValue half)).toArray) := by
  cases bias with
  | none =>
      have missing : file.entryOf? (Trained.tensorName position "bias") = none :=
        held.missing (by decide) (by rw [KernelDraft.parts]; decide)
      rw [Trained.bias?, missing]
      rfl
  | some bias =>
      obtain ⟨entry, found, -, numbers⟩ := held.found _
        (List.mem_append_left _ (List.mem_cons_of_mem _ List.mem_cons_self))
      rw [Trained.bias?, found]
      exact congrArg (Option.map some) numbers

/-- The first kernel is read as it was drafted. -/
theorem Held.kernel?
    {half : Bool}
    {position width : Nat}
    {kernel : KernelDraft}
    {rest : List KernelDraft}
    (held : Held file half position width (kernel :: rest))
    (fit : ∀ stored ∈ kernel.tensors position width, fits stored = true)
    (neighbours : kernel.HasNeighbours)
    (room : kernel.HasRoom) :
    Trained.kernel? file position width kernel.kind = some (kernel.kernel half width) ∧
      Trained.lacksRoom file position width kernel.kind = false := by
  have here : ∀ stored ∈ kernel.tensors position width,
      stored ∈ tensorsFrom position width (kernel :: rest) :=
    fun stored member => List.mem_append_left _ member
  cases kernel with
  | dense outputs weight bias =>
      have isWeight : ⟨Trained.tensorName position "weight", [width, outputs], weight⟩ ∈
          KernelDraft.tensors position width (.dense outputs weight bias) := by
        cases bias <;> exact List.mem_cons_self
      have biases : ∀ values ∈ bias, values.length = outputs := by
        rintro values rfl
        exact length_of_fits_row (fit _ (List.mem_cons_of_mem _ List.mem_cons_self))
      have matrix := held.matrix? (here _ isWeight)
      have weights := length_of_fits_matrix (fit _ isWeight)
      have zeros : (bias.map fun bias => (bias.map (storedValue half)).toArray) = none →
          outputs ≤ capacity := by
        intro missing
        obtain rfl := Option.map_eq_none_iff.mp missing
        exact room
      have made : Dense.make width outputs (weight.map (storedValue half)).toArray
          (bias.map fun bias => (bias.map (storedValue half)).toArray) = .ok _ :=
        Dense.make_of_sizes (by simpa using weights) (by simpa using biases) zeros
      simp only [KernelDraft.kind, Trained.kernel?, Trained.lacksRoom, matrix, Option.bind_some,
        Option.any_some, held.bias?, made]
      exact ⟨rfl, trivial⟩
  | nearest count points targets =>
      have isTarget : ⟨Trained.tensorName position "target", [targets.length], targets⟩ ∈
          KernelDraft.tensors position width (.nearest count points targets) :=
        List.mem_cons_of_mem _ List.mem_cons_self
      have matrix := held.matrix? (here _ List.mem_cons_self)
      have weights := length_of_fits_matrix (fit _ List.mem_cons_self)
      obtain ⟨entry, found, -, numbers⟩ := held.found _ (here _ isTarget)
      have made : Nearest.make width targets.length count (points.map (storedValue half)).toArray
          (targets.map (storedValue half)).toArray = .ok _ :=
        Nearest.make_of_sizes (by simpa using weights) (by simp) neighbours
      simp only [KernelDraft.kind, Trained.kernel?, matrix, Option.bind_some, found, numbers, made]
      exact ⟨rfl, rfl⟩
  | _ =>
      exact ⟨rfl, rfl⟩

/-- Reading stops at a kernel whose missing bias has no room. -/
theorem Held.lacksRoom
    {half : Bool}
    {position width : Nat}
    {kernel : KernelDraft}
    {rest : List KernelDraft}
    (held : Held file half position width (kernel :: rest))
    (fit : ∀ stored ∈ kernel.tensors position width, fits stored = true)
    (noRoom : ¬ kernel.HasRoom) :
    Trained.lacksRoom file position width kernel.kind = true := by
  cases kernel with
  | dense outputs weight bias =>
      cases bias with
      | none =>
          have isWeight : ⟨Trained.tensorName position "weight", [width, outputs], weight⟩ ∈
              KernelDraft.tensors position width (.dense outputs weight none) :=
            List.mem_cons_self
          have matrix := held.matrix? (List.mem_append_left _ isWeight)
          have weights := length_of_fits_matrix (fit _ isWeight)
          have made : Dense.make width outputs (weight.map (storedValue half)).toArray none =
              .error (.noRoom outputs) :=
            Dense.make_noRoom (by simpa using weights) (Nat.lt_of_not_le noRoom)
          simp only [KernelDraft.kind, Trained.lacksRoom, matrix, Option.any_some, held.bias?,
            Option.map_none, made]
      | some bias =>
          exact absurd trivial noRoom
  | _ =>
      exact absurd trivial noRoom

/-- Kernels are read one after another as they were drafted. -/
theorem Held.kernels?
    {half : Bool}
    {position width : Nat}
    {kernels : List KernelDraft}
    (held : Held file half position width kernels)
    (fit : ∀ stored ∈ tensorsFrom position width kernels, fits stored = true)
    (neighbours : ∀ kernel ∈ kernels, kernel.HasNeighbours)
    (room : ∀ kernel ∈ kernels, kernel.HasRoom) :
    Trained.kernels? file position width (kernels.map KernelDraft.kind) =
        some (kernelsFrom half width kernels) ∧
      Trained.lackRoom file position width (kernels.map KernelDraft.kind) = false := by
  induction kernels generalizing position width with
  | nil =>
      exact ⟨rfl, rfl⟩
  | cons kernel rest inductionHypothesis =>
      obtain ⟨first, firstRoom⟩ := held.kernel?
        (fun stored member => fit stored (List.mem_append_left _ member))
        (neighbours kernel List.mem_cons_self) (room kernel List.mem_cons_self)
      obtain ⟨others, otherRoom⟩ := inductionHypothesis held.tail
        (fun stored member => fit stored (List.mem_append_right _ member))
        (fun other member => neighbours other (List.mem_cons_of_mem _ member))
        (fun other member => room other (List.mem_cons_of_mem _ member))
      constructor
      · simp only [List.map_cons, Trained.kernels?, first, Option.bind_some,
          KernelDraft.outputWidth_kernel, others, Option.map_some, kernelsFrom]
      · simp only [List.map_cons, Trained.lackRoom, firstRoom, first, Bool.false_or,
          Option.any_some, KernelDraft.outputWidth_kernel, otherRoom]

/-- Reading stops at the first kernel whose missing bias has no room. -/
theorem Held.lackRoom
    {half : Bool}
    {position width : Nat}
    {kernels : List KernelDraft}
    (held : Held file half position width kernels)
    (fit : ∀ stored ∈ tensorsFrom position width kernels, fits stored = true)
    (neighbours : ∀ kernel ∈ kernels, kernel.HasNeighbours)
    (noRoom : ∃ kernel ∈ kernels, ¬ kernel.HasRoom) :
    Trained.lackRoom file position width (kernels.map KernelDraft.kind) = true := by
  induction kernels generalizing position width with
  | nil =>
      obtain ⟨_, member, -⟩ := noRoom
      contradiction
  | cons kernel rest inductionHypothesis =>
      have fitFirst : ∀ stored ∈ kernel.tensors position width, fits stored = true :=
        fun stored member => fit stored (List.mem_append_left _ member)
      rw [List.map_cons, Trained.lackRoom, Bool.or_eq_true]
      by_cases room : kernel.HasRoom
      · have first := (held.kernel? fitFirst (neighbours kernel List.mem_cons_self) room).1
        have noRoomBehind : ∃ kernel ∈ rest, ¬ kernel.HasRoom := by
          obtain ⟨other, member, lacking⟩ := noRoom
          obtain rfl | behind := List.mem_cons.mp member
          · exact absurd room lacking
          · exact ⟨other, behind, lacking⟩
        right
        rw [first, Option.any_some, KernelDraft.outputWidth_kernel]
        exact inductionHypothesis held.tail
          (fun stored member => fit stored (List.mem_append_right _ member))
          (fun other member => neighbours other (List.mem_cons_of_mem _ member)) noRoomBehind
      · exact .inl (held.lacksRoom fitFirst room)

/-- The file of a draft holds the tensors of its kernels and no other ones. -/
theorem Written.held (written : draft.Written file) :
    Held file draft.half 0 draft.inputSize draft.kernels where
  found _ member := written.entryOf?_of_mem member
  nothingElse _ _ _ _ other := written.entryOf?_eq_none other

/-- The network that a draft describes, in a file of a length. -/
def trained
    (draft : Draft)
    (length : Nat) : Trained :=
  ⟨draft.version, draft.inputSize, kernelsFrom draft.half draft.inputSize draft.kernels, length⟩

/-- The file of a draft names its width and the kinds of its kernels. -/
theorem Written.shape?
    (written : draft.Written file)
    (inWords : draft.InWords)
    (some : draft.kernels ≠ [])
    (wide : 1 ≤ draft.inputSize)
    (neighbours : ∀ kernel ∈ draft.kernels, kernel.HasNeighbours) :
    Trained.shape? file = .some (draft.inputSize, draft.kernels.map KernelDraft.kind) := by
  have kinds : (file.text? Trained.kindsKey).bind KernelKind.readAll? =
      .some (draft.kernels.map KernelDraft.kind) := by
    have text : file.text? Trained.kindsKey =
        .some (KernelKind.writeAll (draft.kernels.map KernelDraft.kind)) :=
      text?_of_mem written.texts (by simp [Draft.texts])
        (by simp [Draft.texts, Trained.versionKey, Trained.kindsKey, Trained.inputSizeKey])
    rw [text, Option.bind_some]
    refine KernelKind.readAll?_writeAll fun count isKind => ?_
    obtain ⟨kernel, member, kind⟩ := List.mem_map.mp isKind
    have near := neighbours kernel member
    have fits := inWords.kernels kernel member
    cases kernel <;> simp only [KernelDraft.kind, KernelKind.nearest.injEq, reduceCtorEq] at kind
    subst kind
    exact Nat.le_trans near.2 fits
  have inputSize : ((file.text? Trained.inputSizeKey).bind fun text =>
      unsigned? greatest64 (trim text.toList)) = .some draft.inputSize := by
    have text : file.text? Trained.inputSizeKey = .some (toString draft.inputSize) :=
      text?_of_mem written.texts (by simp [Draft.texts])
        (by simp [Draft.texts, Trained.versionKey, Trained.kindsKey, Trained.inputSizeKey])
    rw [text, Option.bind_some, trim_toString, unsigned?_toString inWords.inputSize]
  have present :
      ((draft.kernels.map KernelDraft.kind).isEmpty || draft.inputSize == 0) = false := by
    simp only [List.isEmpty_map, Bool.or_eq_false_iff, List.isEmpty_eq_false_iff,
      beq_eq_false_iff_ne]
    exact ⟨some, Nat.ne_of_gt wide⟩
  simp only [Trained.shape?, kinds, Option.bind_some, inputSize, present, Bool.false_eq_true,
    if_false]

/-- The file of a draft describes its network. -/
theorem Written.ofFile?
    {length : Nat}
    (written : draft.Written file)
    (inWords : draft.InWords)
    (some : draft.kernels ≠ [])
    (wide : 1 ≤ draft.inputSize)
    (neighbours : ∀ kernel ∈ draft.kernels, kernel.HasNeighbours)
    (room : ∀ kernel ∈ draft.kernels, kernel.HasRoom)
    (named : draft.version.name ≠ "")
    (unbroken : '-' ∉ draft.version.name.toList) :
    Trained.ofFile? length file = .some (draft.trained length) := by
  have version : (file.text? Trained.versionKey).map Version.parse = .some draft.version := by
    have text : file.text? Trained.versionKey = .some draft.version.text :=
      text?_of_mem written.texts (by simp [Draft.texts])
        (by simp [Draft.texts, Trained.versionKey, Trained.kindsKey, Trained.inputSizeKey])
    rw [text, Option.map_some,
      Version.parse_text named unbroken inWords.inputVersion inWords.outputVersion]
  have kernels := (written.held.kernels? written.fit neighbours room).1
  simp only [Trained.ofFile?, version, Option.getD_some,
    written.shape? inWords some wide neighbours, Option.bind_some, kernels, Option.map_some,
    trained]

/-- The bytes of a draft are read as the file they were written from. -/
theorem Written.read?
    (written : draft.Written file)
    (inWords : draft.InWords)
    (addressable : file.write.length ≤ greatest64)
    (limited : Bytes.toNat (file.write.take 8) ≤ TensorFile.headerLimit) :
    TensorFile.read? file.write = some file := by
  have length : file.write.length = 8 + file.headerBytes.length + file.data.length := by
    simp only [TensorFile.write, List.length_append, Bytes.length_ofNat]
  have short : file.headerBytes.length < 256 ^ 8 :=
    Nat.lt_of_le_of_lt (by omega : _ ≤ greatest64) (by decide)
  rw [TensorFile.write, List.append_assoc, List.take_left' (Bytes.length_ofNat 8 _),
    Bytes.toNat_ofNat, Nat.mod_eq_of_lt short] at limited
  exact (written.laid inWords (by omega)).read?_write limited

/--
A written draft is read as the network it describes, in whatever order its texts stand,
as long as a reader accepts the length of its header and there is room for the biases it
leaves out; without that room reading stops.  Numbers that are stored as halves are read
as the nearest halves.
-/
theorem load?_of_written
    (draft : Draft)
    (bytes : List UInt8)
    (inWords : draft.InWords)
    (some : draft.kernels ≠ [])
    (wide : 1 ≤ draft.inputSize)
    (neighbours : ∀ kernel ∈ draft.kernels, kernel.HasNeighbours)
    (named : draft.version.name ≠ "")
    (unbroken : '-' ∉ draft.version.name.toList)
    (writes : draft.Writes bytes)
    (addressable : bytes.length ≤ greatest64)
    (limited : Bytes.toNat (bytes.take 8) ≤ TensorFile.headerLimit) :
    (draft.trained bytes.length).isPresent = true ∧
      ((∀ kernel ∈ draft.kernels, kernel.HasRoom) →
        Trained.load? bytes = .some (draft.trained bytes.length)) ∧
      ((∃ kernel ∈ draft.kernels, ¬ kernel.HasRoom) → Trained.load? bytes = none) ∧
      ∀ value, if draft.half then
          value.IsHalved (storedValue draft.half value)
        else
          storedValue draft.half value = value := by
  obtain ⟨file, written, rfl⟩ := exists_of_writes writes
  have read := written.read? inWords addressable limited
  have stops : Trained.stopsAt file.write =
      Trained.lackRoom file 0 draft.inputSize (draft.kernels.map KernelDraft.kind) := by
    rw [Trained.stopsAt, read, Option.any_some, written.shape? inWords some wide neighbours,
      Option.any_some]
  refine ⟨?present, fun room => ?loaded, fun noRoom => ?stopped, fun value => ?stored⟩
  case present =>
    cases kernels : draft.kernels with
    | nil =>
        exact absurd kernels some
    | cons kernel rest =>
        simp only [Trained.isPresent, trained, kernels, kernelsFrom, List.isEmpty_cons,
          Bool.not_false]
  case loaded =>
    rw [Trained.load?, stops, (written.held.kernels? written.fit neighbours room).2,
      if_neg Bool.false_ne_true, Trained.ofBytes, read, Option.bind_some,
      written.ofFile? inWords some wide neighbours room named unbroken, Option.getD_some]
  case stopped =>
    rw [Trained.load?, stops, written.held.lackRoom written.fit neighbours noRoom, if_pos rfl]
  case stored =>
    split
    · rename_i half
      rw [half]
      exact Half.isHalved value
    · rename_i full
      rw [Bool.eq_false_iff.mpr full]
      rfl

/-- A dense kernel without a bias and a regression, stored as halves. -/
def smallDraft : Draft where
  version := ⟨"unit", 11, 2⟩
  inputSize := 1
  half := true
  kernels := [.dense 1 [⟨0x3f800001⟩] none, .relu, .nearest 1 [.one] [.zero]]

/-- The file of the small draft, where the targets stand in front of the points. -/
def smallFile : TensorFile where
  texts := smallDraft.texts
  entries :=
    [⟨"layer.0.weight", .f16, [1, 1], 0, 2⟩, ⟨"layer.2.target", .f16, [1], 2, 4⟩,
      ⟨"layer.2.weight", .f16, [1, 1], 4, 6⟩]
  data := [0x00, 0x3c, 0x00, 0x00, 0x00, 0x3c]

theorem toFile?_smallDraft :
    smallDraft.toFile? = some smallFile := by
  have tensors : smallDraft.tensors =
      [⟨"layer.0.weight", [1, 1], [⟨0x3f800001⟩]⟩, ⟨"layer.2.weight", [1, 1], [.one]⟩,
        ⟨"layer.2.target", [1], [.zero]⟩] := by
    decide +kernel
  have kernels : ∀ stored : Stored, stored ∈ smallDraft.tensors.drop 1 →
      storedBefore ⟨"layer.0.weight", [1, 1], [⟨0x3f800001⟩]⟩ stored = true := by
    decide +kernel
  have parts : storedBefore ⟨"layer.2.weight", [1, 1], [.one]⟩
      ⟨"layer.2.target", [1], [.zero]⟩ = false := by
    decide +kernel
  have sorted : smallDraft.tensors.mergeSort storedBefore =
      [⟨"layer.0.weight", [1, 1], [⟨0x3f800001⟩]⟩, ⟨"layer.2.target", [1], [.zero]⟩,
        ⟨"layer.2.weight", [1, 1], [.one]⟩] := by
    simp only [tensors, List.drop_succ_cons, List.drop_zero, List.mem_cons, List.not_mem_nil,
      or_false, forall_eq_or_imp, forall_eq] at kernels
    simp [tensors, List.mergeSort, List.MergeSort.Internal.splitInTwo, kernels, parts]
  rw [toFile?, sorted, tensors, if_pos (by decide)]
  decide +kernel

theorem length_headerBytes_smallFile :
    smallFile.headerBytes.length = 352 := by
  simp only [TensorFile.headerBytes, toList_bytes]
  decide +kernel

/-- The weight that is no half is read rounded, and the missing bias is read as zero. -/
theorem load?_of_smallDraft :
    let bytes := smallFile.write
    smallDraft.InWords ∧
      smallDraft.kernels ≠ [] ∧
      1 ≤ smallDraft.inputSize ∧
      (∀ kernel ∈ smallDraft.kernels, kernel.HasNeighbours) ∧
      (∀ kernel ∈ smallDraft.kernels, kernel.HasRoom) ∧
      smallDraft.version.name ≠ "" ∧
      '-' ∉ smallDraft.version.name.toList ∧
      smallDraft.toBytes? = some bytes ∧
      bytes.length ≤ greatest64 ∧
      Bytes.toNat (bytes.take 8) ≤ TensorFile.headerLimit ∧
      Trained.load? bytes =
        some ⟨⟨"unit", 11, 2⟩, 1,
          [.dense ⟨1, 1, #[.one], #[.zero]⟩, .relu, .nearest ⟨1, 1, 1, #[.one], #[.zero]⟩],
          bytes.length⟩ := by
  intro bytes
  have inWords : smallDraft.InWords := by
    refine ⟨by decide, by decide, by decide, ?_⟩
    simp [smallDraft, KernelDraft.InWords, greatest64]
  have neighbours : ∀ kernel ∈ smallDraft.kernels, kernel.HasNeighbours := by
    simp [smallDraft, KernelDraft.HasNeighbours]
  have room : ∀ kernel ∈ smallDraft.kernels, kernel.HasRoom := by
    simp [smallDraft, KernelDraft.HasRoom, capacity]
  have written : smallDraft.toBytes? = some bytes := by
    rw [toBytes?, toFile?_smallDraft]
    rfl
  have addressable : bytes.length ≤ greatest64 := by
    simp only [bytes, TensorFile.write, List.length_append, Bytes.length_ofNat,
      length_headerBytes_smallFile]
    decide
  have limited : Bytes.toNat (bytes.take 8) ≤ TensorFile.headerLimit := by
    simp only [bytes, TensorFile.write, List.append_assoc,
      List.take_left' (Bytes.length_ofNat 8 _), length_headerBytes_smallFile]
    decide
  have read := (load?_of_written smallDraft bytes inWords (by decide) (by decide) neighbours
    (by decide) (by decide) (writes_of_toBytes? written) addressable limited).2.1 room
  have kernels : kernelsFrom true 1 smallDraft.kernels =
      [.dense ⟨1, 1, #[.one], #[.zero]⟩, .relu, .nearest ⟨1, 1, 1, #[.one], #[.zero]⟩] := by
    decide +kernel
  refine ⟨inWords, by decide, by decide, neighbours, room, by decide, by decide, written,
    addressable, limited, read.trans ?_⟩
  exact congrArg (some ∘ fun kernels => Trained.mk _ 1 kernels bytes.length) kernels

/--
The second kernel takes no inputs, so it has no weights, and it has more outputs than a
buffer holds.
-/
def wideDraft : Draft where
  version := ⟨"wide", 1, 1⟩
  inputSize := 1
  half := false
  kernels := [.dense 0 [] none, .dense (2 ^ 62) [] none]

/-- The file of the wide draft. -/
def wideFile : TensorFile where
  texts := wideDraft.texts
  entries := [⟨"layer.0.weight", .f32, [1, 0], 0, 0⟩, ⟨"layer.1.weight", .f32, [0, 2 ^ 62], 0, 0⟩]
  data := []

theorem toFile?_wideDraft :
    wideDraft.toFile? = some wideFile := by
  have tensors : wideDraft.tensors =
      [⟨"layer.0.weight", [1, 0], []⟩, ⟨"layer.1.weight", [0, 2 ^ 62], []⟩] := by
    decide +kernel
  have ordered : storedBefore ⟨"layer.0.weight", [1, 0], []⟩
      ⟨"layer.1.weight", [0, 2 ^ 62], []⟩ = true := by
    decide +kernel
  have sorted : wideDraft.tensors.mergeSort storedBefore = wideDraft.tensors := by
    simp [tensors, List.mergeSort, List.MergeSort.Internal.splitInTwo, ordered]
  rw [toFile?, sorted, tensors, if_pos (by decide)]
  decide +kernel

theorem length_headerBytes_wideFile :
    wideFile.headerBytes.length = 264 := by
  simp only [TensorFile.headerBytes, toList_bytes]
  decide +kernel

/-- The wide draft can be written, and reading it stops. -/
theorem load?_of_wideDraft :
    let bytes := wideFile.write
    wideDraft.InWords ∧
      wideDraft.kernels ≠ [] ∧
      1 ≤ wideDraft.inputSize ∧
      (∀ kernel ∈ wideDraft.kernels, kernel.HasNeighbours) ∧
      wideDraft.version.name ≠ "" ∧
      '-' ∉ wideDraft.version.name.toList ∧
      wideDraft.toBytes? = some bytes ∧
      bytes.length ≤ greatest64 ∧
      Bytes.toNat (bytes.take 8) ≤ TensorFile.headerLimit ∧
      Trained.load? bytes = none := by
  intro bytes
  have inWords : wideDraft.InWords := by
    refine ⟨by decide, by decide, by decide, ?_⟩
    simp [wideDraft, KernelDraft.InWords, greatest64]
  have neighbours : ∀ kernel ∈ wideDraft.kernels, kernel.HasNeighbours := by
    simp [wideDraft, KernelDraft.HasNeighbours]
  have noRoom : ∃ kernel ∈ wideDraft.kernels, ¬ kernel.HasRoom := by
    simp [wideDraft, KernelDraft.HasRoom, capacity]
  have isWritten : wideDraft.toBytes? = some bytes := by
    rw [toBytes?, toFile?_wideDraft]
    rfl
  have addressable : bytes.length ≤ greatest64 := by
    simp only [bytes, TensorFile.write, List.length_append, Bytes.length_ofNat,
      length_headerBytes_wideFile]
    decide
  have limited : Bytes.toNat (bytes.take 8) ≤ TensorFile.headerLimit := by
    simp only [bytes, TensorFile.write, List.append_assoc,
      List.take_left' (Bytes.length_ofNat 8 _), length_headerBytes_wideFile]
    decide
  have stops : Trained.stopsAt bytes = true := by
    obtain ⟨file, written, isBytes⟩ := exists_of_writes (writes_of_toBytes? isWritten)
    rw [isBytes] at addressable limited ⊢
    rw [Trained.stopsAt, written.read? inWords addressable limited, Option.any_some,
      written.shape? inWords (by decide) (by decide) neighbours, Option.any_some]
    exact written.held.lackRoom written.fit neighbours noRoom
  refine ⟨inWords, by decide, by decide, neighbours, by decide, by decide, isWritten, addressable,
    limited, ?_⟩
  rw [Trained.load?, stops, if_pos rfl]

end Draft

end DpuCycles.Network
