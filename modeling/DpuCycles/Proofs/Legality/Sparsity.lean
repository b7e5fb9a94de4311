import DpuCycles.Proofs.Legality.ExactMemory

namespace DpuCycles

/-!
# Admission without sparse operands

A workload with two sparse operands is priced by its variants with one of them.
Dropping the sparsity of an operand commutes with bringing a workload into
canonical form and with choosing its second operand.  A dense input needs no map
of its zeros and breaks no rule, so the variant with a dense input is admitted
whenever the workload is, and takes no more memory.  Dense weights may need more
memory, so the other variant can be refused.
-/

namespace Job

/-- The job with a dense input. -/
def withoutInputSparsity (job : Job) : Job :=
  { job with
    input := { job.input with sparse := false }, inputSparsity := 0 }

/-- The job with dense weights. -/
def withoutWeightSparsity (job : Job) : Job :=
  { job with
    weights := { job.weights with sparse := false }, weightSparsity := 0 }

theorem ofWorkload_withoutInputSparsity
    (workload : Workload)
    (family : Family) :
    ofWorkload workload.withoutInputSparsity family =
      (ofWorkload workload family).withoutInputSparsity := by
  cases family <;> rfl

theorem ofWorkload_withoutWeightSparsity
    (workload : Workload)
    (family : Family) :
    ofWorkload workload.withoutWeightSparsity family =
      (ofWorkload workload family).withoutWeightSparsity := by
  cases family <;> rfl

end Job

namespace Workload

theorem canonicalize_withoutInputSparsity (workload : Workload) :
    workload.withoutInputSparsity.canonicalize = workload.canonicalize.withoutInputSparsity := by
  have sameOperation :
      workload.withoutInputSparsity.canonicalOperation = workload.canonicalOperation := rfl
  simp only [canonicalize, sameOperation]
  split <;> rfl

theorem canonicalize_withoutWeightSparsity (workload : Workload) :
    workload.withoutWeightSparsity.canonicalize =
      workload.canonicalize.withoutWeightSparsity := by
  have sameOperation :
      workload.withoutWeightSparsity.canonicalOperation = workload.canonicalOperation := rfl
  simp only [canonicalize, sameOperation]
  split <;> rfl

end Workload

namespace Footprint

theorem wholePages_mono
    {size greater : Nat}
    (page : Nat)
    (within : size ≤ greater) :
    wholePages id size page ≤ wholePages id greater page := by
  unfold wholePages
  split
  · exact within
  · exact roundUp_mono page within

theorem tensorBytes_dense_le
    (tensor : Tensor)
    (volume : Nat) :
    tensorBytes id { tensor with sparse := false } volume ≤ tensorBytes id tensor volume :=
  Nat.add_le_add_left (Nat.zero_le _) _

theorem inputBytes_withoutInputSparsity_le (job : Job) :
    inputBytes id job.withoutInputSparsity ≤ inputBytes id job := by
  have sameTable : job.withoutInputSparsity.pointerTable = job.pointerTable := rfl
  have sameOperation : job.withoutInputSparsity.operation = job.operation := rfl
  simp only [inputBytes, sameTable, sameOperation]
  split
  · exact Nat.le_refl _
  · split <;> exact tensorBytes_dense_le job.input _

/-- A dense input may take less memory; all the rest takes as much as before. -/
structure Relieves (relieved whole : Footprint) : Prop where
  total : relieved.total ≤ whole.total
  input : relieved.input ≤ whole.input
  weights : relieved.weights = whole.weights
  output : relieved.output = whole.output
  inPlace : relieved.inPlace = whole.inPlace

theorem inFull_relieves
    (table : Capability)
    (ignoreOverhead : Bool)
    (job : Job) :
    (inFull table ignoreOverhead job.withoutInputSparsity).Relieves
      (inFull table ignoreOverhead job) where
  total := by
    have input := wholePages_mono table.page (inputBytes_withoutInputSparsity_le job)
    exact Nat.add_le_add_right (Nat.add_le_add_right (Nat.add_le_add_left input _) _) _
  input := wholePages_mono table.page (inputBytes_withoutInputSparsity_le job)
  weights := rfl
  output := rfl
  inPlace := rfl

variable
  {table : Capability}
  {ignoreOverhead : Bool}
  {job : Job}

/-- Without the map of the zeros of the input no more is lost than with it. -/
theorem InWords.withoutInputSparsity
    (inWords : InWords table ignoreOverhead job) :
    InWords table ignoreOverhead job.withoutInputSparsity :=
  have relieves := inFull_relieves table ignoreOverhead job
  { total := Nat.lt_of_le_of_lt relieves.total inWords.total
    output := relieves.output ▸ inWords.output
    kernelBits := inWords.kernelBits
    kernels := inWords.kernels
    map := inWords.map }

theorem InWords.relieves
    (inWords : InWords table ignoreOverhead job) :
    (ofJob table ignoreOverhead job.withoutInputSparsity).Relieves
      (ofJob table ignoreOverhead job) := by
  rw [inWords.ofJob_eq_inFull, inWords.withoutInputSparsity.ofJob_eq_inFull]
  exact inFull_relieves table ignoreOverhead job

end Footprint

namespace Rules

variable {table : Capability} {job : Job}

/-- A legal job stays legal with a dense input, of which no zeros are counted. -/
theorem findings_withoutInputSparsity
    (legal : findings table job = []) :
    findings table job.withoutInputSparsity = [] := by
  obtain ⟨options, tensors, kernel, sparsity, halo, pointers⟩ := findings_eq_nil.mp legal
  -- Only the rules of sparsity read what is dropped.
  refine findings_eq_nil.mpr ⟨options, tensors, kernel, ?_, halo, pointers⟩
  simp only [Rules.sparsity, List.append_eq_nil_iff] at sparsity ⊢
  obtain ⟨⟨⟨_, weightFraction⟩, weights⟩, _⟩ := sparsity
  have zeroIsFraction : isFraction 0 = true := by decide
  have zeroIsZero : ((0 : Float32) == 0) = true := by decide
  exact ⟨⟨⟨require_eq_nil.mpr zeroIsFraction, weightFraction⟩, weights⟩,
    require_eq_nil.mpr zeroIsZero⟩

end Rules

namespace Gate

variable
  {gate : Gate}
  {workload : Workload}
  {table : Capability}
  {family : Family}
  {job variant : Job}

/-- What a workload passes, it passes with a dense input, unless its memory is counted wrong. -/
theorem Admits.withoutInputSparsity
    (admits : gate.Admits workload table family job)
    (inWords : Footprint.InWords table gate.ignoreOverhead job) :
    gate.Admits workload.withoutInputSparsity table family job.withoutInputSparsity := by
  obtain ⟨isTable, isFamily, rfl, fits, legal⟩ := admits
  refine
    { isTable := isTable
      isFamily := ?_
      isJob := ?_
      fits := Nat.le_trans inWords.relieves.total fits
      legal := Rules.findings_withoutInputSparsity legal }
  · rw [Workload.canonicalize_withoutInputSparsity]
    exact isFamily
  · rw [Workload.canonicalize_withoutInputSparsity]
    exact Job.ofWorkload_withoutInputSparsity (workload.canonicalize.fold table) family

/-- The memory of an admitted job is counted by the table that admitted it. -/
theorem Admits.footprint?_eq
    (admits : gate.Admits workload table family job) :
    gate.footprint? job = some (Footprint.ofJob table gate.ignoreOverhead job) := by
  have sameDevice : job.device = workload.device := by
    rw [← admits.isJob, Workload.canonicalize_eq]
    rfl
  rw [footprint?, sameDevice, admits.isTable]
  rfl

theorem accept_withoutInputSparsity
    (inWords : gate.InWords workload)
    (accepted : gate.accept workload = .ok job) :
    gate.accept workload.withoutInputSparsity = .ok job.withoutInputSparsity := by
  obtain ⟨table, family, admits⟩ := accept_eq_ok_iff.mp accepted
  exact accept_eq_ok_iff.mpr ⟨table, family, admits.withoutInputSparsity (admits.inWords inWords)⟩

/--
Whatever the tables are, and whether or not the fixed share of memory counts: an
admitted workload, with two sparse operands or fewer, is admitted with a dense input
as well, as long as nothing is lost where its memory is counted.  Its memory shrinks
by what the map of the zeros took, if it changes at all.
-/
theorem accepts_denseInput
    (inWords : gate.InWords workload)
    (accepted : gate.accept workload = .ok job) :
    gate.accept workload.withoutInputSparsity = .ok job.withoutInputSparsity ∧
      ∃ relieved whole,
        gate.footprint? job.withoutInputSparsity = some relieved ∧
          gate.footprint? job = some whole ∧ relieved.Relieves whole := by
  obtain ⟨table, family, admits⟩ := accept_eq_ok_iff.mp accepted
  have inWordsHere := admits.inWords inWords
  exact
    ⟨accept_withoutInputSparsity inWords accepted,
      _, _, (admits.withoutInputSparsity inWordsHere).footprint?_eq, admits.footprint?_eq,
      inWordsHere.relieves⟩

/-- A convolution with two sparse operands, whose input fills a page without the map. -/
def fullPage : Workload :=
  let tensor := Tensor.dense ⟨16, 16, 64, 1⟩ .uint8
  let plain := Workload.plain .vpu27 .convolution tensor tensor .cuboid16x16
  (plain.withInputSparsity 0).withWeightSparsity 1

theorem inWords_fullPage : standard.InWords fullPage :=
  inWords_of_family rfl rfl (by decide +kernel)

/-- With a dense input it is admitted too, and takes a page less. -/
theorem accepts_denseInput_of_fullPage :
    let job := Job.ofWorkload fullPage .convolution
    fullPage.isDual = true ∧
      standard.InWords fullPage ∧
      standard.accept fullPage = .ok job ∧
      standard.accept fullPage.withoutInputSparsity = .ok job.withoutInputSparsity ∧
      ∃ relieved whole,
        standard.footprint? job.withoutInputSparsity = some relieved ∧
          standard.footprint? job = some whole ∧
          relieved.Relieves whole ∧ whole.total = relieved.total + 16384 := by
  have accepted : standard.accept fullPage = .ok (.ofWorkload fullPage .convolution) :=
    accept_eq_ok_iff.mpr
      ⟨.vpu27, .convolution,
        { isTable := rfl
          isFamily := rfl
          isJob := rfl
          fits := by decide +kernel
          legal := by decide +kernel }⟩
  obtain ⟨denseAccepted, relieved, whole, isRelieved, isWhole, relieves⟩ :=
    accepts_denseInput inWords_fullPage accepted
  refine
    ⟨rfl, inWords_fullPage, accepted, denseAccepted, relieved, whole, isRelieved, isWhole,
      relieves, ?_⟩
  have page :
      (standard.footprint? (.ofWorkload fullPage .convolution)).map Footprint.total =
        (standard.footprint? (Job.ofWorkload fullPage .convolution).withoutInputSparsity).map
          (Footprint.total · + 16384) := by
    decide +kernel
  rw [isRelieved, isWhole] at page
  exact Option.some.inj page

/--
A convolution with two sparse operands, whose halo makes it read so much that the
bytes of its input are a word only without the map of the zeros.
-/
def farReaching : Workload :=
  let plain :=
    Workload.plain .vpu40 .convolution (.dense ⟨4, 4, 1024, 1⟩ .float16)
      (.dense ⟨4, 4, 1024, 1⟩ .float16) .cuboid16x16
  let reaching :=
    plain.withHalo { HaloExchange.none with input := ⟨-211281295, 0, -40123585, 0, 0, 0⟩ }
  (reaching.withInputSparsity 0).withWeightSparsity 0.5

/-- With a dense input, of which nothing is lost, it does not fit the local memory. -/
theorem denseInput_refused_of_farReaching :
    let job := Job.ofWorkload farReaching .convolution
    farReaching.isDual = true ∧
      standard.accept farReaching = .ok job ∧
      (standard.footprint? job).map Footprint.total = some 1245184 ∧
      standard.accept farReaching.withoutInputSparsity =
        .error (.tooBig 17361641481139634176 1572864) := by
  have accepted : standard.accept farReaching = .ok (.ofWorkload farReaching .convolution) :=
    accept_eq_ok_iff.mpr
      ⟨.vpu40, .convolution,
        { isTable := rfl
          isFamily := rfl
          isJob := rfl
          fits := by decide +kernel
          legal := by decide +kernel }⟩
  have refused :
      standard.accept farReaching.withoutInputSparsity =
        .error (.tooBig 17361641481139634176 1572864) := by
    have isTable :
        Capability.ofDevice? standard.tables farReaching.withoutInputSparsity.device =
          some .vpu40 :=
      rfl
    have isFamily :
        family? .vpu40 farReaching.withoutInputSparsity.canonicalize.operation =
          some .convolution :=
      rfl
    rw [accept_of_family isTable isFamily, inspect_eq_error_iff]
    exact .inl ⟨by decide +kernel, by decide +kernel⟩
  exact ⟨rfl, accepted, by decide +kernel, refused⟩

/-- The job of an admitted workload with dense weights, if that is admitted too. -/
theorem eq_of_accept_withoutWeightSparsity
    (accepted : gate.accept workload = .ok job)
    (variantAccepted : gate.accept workload.withoutWeightSparsity = .ok variant) :
    variant = job.withoutWeightSparsity := by
  obtain ⟨table, family, isTable, isFamily, rfl, _, _⟩ := accept_eq_ok_iff.mp accepted
  have variantTable :
      Capability.ofDevice? gate.tables workload.withoutWeightSparsity.device = some table :=
    isTable
  have variantFamily :
      family? table workload.withoutWeightSparsity.canonicalize.operation = some family := by
    rw [Workload.canonicalize_withoutWeightSparsity]
    exact isFamily
  rw [accept_of_family variantTable variantFamily,
    Workload.canonicalize_withoutWeightSparsity] at variantAccepted
  obtain ⟨isJob, _, _⟩ := inspect_eq_ok_iff.mp variantAccepted
  rw [← isJob]
  exact Job.ofWorkload_withoutWeightSparsity (workload.canonicalize.fold table) family

end Gate

end DpuCycles
