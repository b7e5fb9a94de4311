import DpuCycles.Proofs.Estimate.Aliases
import DpuCycles.Proofs.Legality.CanonicalForm
import DpuCycles.Proofs.Split.Refusals
import DpuCycles.Proofs.Split.Selection

namespace DpuCycles

open Network

/-!
# Searching layers that are treated alike

Admission takes an average for a depthwise convolution, and a convolution of few
channels for a channel-major one.  A search asks for the operation before admission
does: it chooses the execution modes and the cuts by it.

Averages and depthwise convolutions are both left uncut, so their searches come to
the same.  So are channel-major convolutions, but a convolution of few channels is
cut like any other.  Its search tries all that the search of the channel-major one
tries, and more, so it never takes more time.
-/

namespace Workload

theorem canonicalOperation_idempotent (workload : Workload) :
    canonicalOperation { workload with operation := workload.canonicalOperation } =
      workload.canonicalOperation :=
  canonicalOperation_of_canonical rfl fun _ => rfl

/-- A convolution of so few channels that admission takes it for a channel-major one. -/
def HasFewChannels (workload : Workload) : Prop :=
  workload.operation = .convolution ∧
    1 ≤ workload.input.shape.channels ∧ workload.input.shape.channels < 16

/-- Admission does not tell an operation from its canonical one. -/
theorem agrees_canonicalOperation (workload : Workload) :
    workload.Agrees { workload with operation := workload.canonicalOperation } := by
  intro table
  have same := workload.canonicalOperation_idempotent
  exact (representative_congr table (congrArg _ same) (by rw [same]) rfl rfl rfl).symm

end Workload

namespace Layer

/-- The layer with the operation that admission takes its own for. -/
def canonical (layer : Layer) : Layer :=
  { layer with
    workload := { layer.workload with operation := layer.workload.canonicalOperation } }

variable {layer : Layer}

theorem canonical_eq_self
    (same : layer.workload.canonicalOperation = layer.workload.operation) :
    layer.canonical = layer := by
  rw [canonical, same]

theorem limitsChannels_canonical
    (cuboid : layer.device.isCuboid = true)
    (limited :
      layer.workload.canonicalOperation = .depthwise ∨
        layer.workload.canonicalOperation = .channelMajor) :
    layer.canonical.limitsChannels = true := by
  have sameDevice : layer.canonical.device = layer.device := rfl
  have isCanonical : layer.canonical.operation = layer.workload.canonicalOperation := rfl
  rw [limitsChannels, sameDevice, cuboid, isCanonical]
  rcases limited with isDepthwise | isChannelMajor
  · rw [isDepthwise]
    rfl
  · rw [isChannelMajor]
    rfl

/-- A box of the canonical layer is the box of the layer with the canonical operation. -/
theorem box_canonical
    (layer : Layer)
    (mode : ExecutionMode)
    (output : Shape)
    (offset : Offset) :
    layer.canonical.box mode output offset =
      { layer.box mode output offset with operation := layer.workload.canonicalOperation } := by
  simp only [canonical, box, inferInput, Workload.isConvolution_canonicalOperation]
  rfl

theorem agrees_box_canonical
    (layer : Layer)
    (mode : ExecutionMode)
    (output : Shape)
    (offset : Offset) :
    (layer.box mode output offset).Agrees (layer.canonical.box mode output offset) := by
  rw [box_canonical, ← canonicalOperation_box]
  exact (layer.box mode output offset).agrees_canonicalOperation

end Layer

namespace CostModel

variable
  {model : CostModel}
  {options : SearchOptions}
  {layer : Layer}

/-- The cost that a search answers with, or why it has no answer. -/
def searchCost
    (model : CostModel)
    (layer : Layer)
    (options : SearchOptions) : Except SearchFailure Nat :=
  (model.search layer options).best.map Split.cost

theorem searchCost_eq_ok_iff
    {cycles : Nat} :
    model.searchCost layer options = .ok cycles ↔
      ∃ split, (model.search layer options).best = .ok split ∧ split.cost = cycles := by
  unfold searchCost
  cases (model.search layer options).best with
  | error failure =>
      simp [Except.map]
  | ok split =>
      simp [Except.map]

theorem searchCost_eq_error_iff
    {failure : SearchFailure} :
    model.searchCost layer options = .error failure ↔
      (model.search layer options).best = .error failure := by
  unfold searchCost
  cases (model.search layer options).best with
  | error other =>
      simp [Except.map]
  | ok split =>
      simp [Except.map]

/-- The whole output of a layer as the only workload, in the greatest cuboids. -/
def uncut (layer : Layer) : List Workload :=
  [layer.wholeBox .cuboid16x16]

theorem mem_candidatesOf_of_limitsChannels
    {workloads : List Workload}
    (limits : layer.limitsChannels = true) :
    workloads ∈ candidatesOf layer options ↔
      Cut.channels ∈ options.cuts ∧ workloads = uncut layer :=
  Layer.mem_candidates_of_limitsChannels limits

/-- A search that leaves a layer uncut answers with the time of the whole output. -/
theorem searchCost_eq_ok_iff_of_limitsChannels
    {cycles : Nat}
    (latency : options.objective = .latency)
    (limits : layer.limitsChannels = true) :
    model.searchCost layer options = .ok cycles ↔
      Cut.channels ∈ options.cuts ∧
        model.Feasible options (options.processorsFor layer) (uncut layer) ∧
        model.splitTime options (options.processorsFor layer) (uncut layer) = cycles := by
  have answers : ∀ split, (model.search layer options).best = .ok split →
      Cut.channels ∈ options.cuts ∧
        model.Feasible options (options.processorsFor layer) (uncut layer) ∧
        model.splitTime options (options.processorsFor layer) (uncut layer) = split.cost := by
    intro split isBest
    obtain ⟨cost, position, wins⟩ := (best_eq_ok_iff latency).mp isBest
    obtain ⟨member, isUncut⟩ :=
      (mem_candidatesOf_of_limitsChannels limits).mp (List.mem_of_getElem? wins.found)
    exact ⟨member, isUncut ▸ wins.itCounts, isUncut ▸ cost.symm⟩
  rw [searchCost_eq_ok_iff]
  constructor
  · rintro ⟨split, isBest, rfl⟩
    exact answers split isBest
  · rintro ⟨member, feasible, rfl⟩
    obtain ⟨split, isBest⟩ := (exists_best_iff latency).mpr
      ⟨uncut layer, (mem_candidatesOf_of_limitsChannels limits).mpr ⟨member, rfl⟩, feasible⟩
    exact ⟨split, isBest, (answers split isBest).2.2.symm⟩

theorem searchCost_eq_error_iff_of_limitsChannels
    {failure : SearchFailure}
    (latency : options.objective = .latency)
    (limits : layer.limitsChannels = true) :
    model.searchCost layer options = .error failure ↔
      (Cut.channels ∈ options.cuts →
          ¬model.Feasible options (options.processorsFor layer) (uncut layer)) ∧
        ∃ allZero,
          failure = .noSplit allZero ∧
            (allZero = true ↔
              Cut.channels ∈ options.cuts ∧ model.HasCosts (uncut layer) ∧
                model.splitTime options (options.processorsFor layer) (uncut layer) = 0) := by
  have members : ∀ workloads, workloads ∈ candidatesOf layer options ↔
      Cut.channels ∈ options.cuts ∧ workloads = uncut layer :=
    fun workloads => mem_candidatesOf_of_limitsChannels limits
  have noneFeasible :
      (∀ workloads ∈ candidatesOf layer options,
          ¬model.Feasible options (options.processorsFor layer) workloads) ↔
        (Cut.channels ∈ options.cuts →
          ¬model.Feasible options (options.processorsFor layer) (uncut layer)) := by
    simp only [members]
    constructor
    · intro none member
      exact none _ ⟨member, rfl⟩
    · rintro none workloads ⟨member, rfl⟩
      exact none member
  have isAllZero :
      model.AllZero layer options ↔
        Cut.channels ∈ options.cuts ∧ model.HasCosts (uncut layer) ∧
          model.splitTime options (options.processorsFor layer) (uncut layer) = 0 := by
    constructor
    · rintro ⟨notEmpty, each⟩
      obtain ⟨workloads, candidate⟩ := List.exists_mem_of_ne_nil _ notEmpty
      obtain ⟨member, rfl⟩ := (members workloads).mp candidate
      exact ⟨member, each _ candidate⟩
    · rintro ⟨member, idle⟩
      refine ⟨List.ne_nil_of_mem ((members _).mpr ⟨member, rfl⟩), ?_⟩
      intro workloads candidate
      obtain ⟨_, rfl⟩ := (members workloads).mp candidate
      exact idle
  rw [searchCost_eq_error_iff, best_eq_error_iff latency]
  simp only [noneFeasible, isAllZero]

/-- Layers that are left uncut and whose whole outputs cost the same are searched alike. -/
theorem searchCost_congr_of_limitsChannels
    {other : Layer}
    (latency : options.objective = .latency)
    (limits : layer.limitsChannels = true)
    (otherLimits : other.limitsChannels = true)
    (sameProcessors : options.processorsFor layer = options.processorsFor other)
    (sameCosts : model.costs (uncut layer) = model.costs (uncut other)) :
    model.searchCost layer options = model.searchCost other options := by
  cases answer : model.searchCost other options with
  | ok cycles =>
      rw [searchCost_eq_ok_iff_of_limitsChannels latency otherLimits] at answer
      rw [searchCost_eq_ok_iff_of_limitsChannels latency limits]
      simp only [Feasible, HasCosts, splitTime, sameCosts, sameProcessors] at answer ⊢
      exact answer
  | error failure =>
      rw [searchCost_eq_error_iff_of_limitsChannels latency otherLimits] at answer
      rw [searchCost_eq_error_iff_of_limitsChannels latency limits]
      simp only [Feasible, HasCosts, splitTime, sameCosts, sameProcessors] at answer ⊢
      exact answer

theorem costs_uncut_canonical
    (fits : model.Fits)
    (registered : model.Registered)
    (layer : Layer) :
    model.costs (uncut layer) = model.costs (uncut layer.canonical) := by
  have agrees : (layer.wholeBox .cuboid16x16).Agrees (layer.canonical.wholeBox .cuboid16x16) :=
    layer.agrees_box_canonical _ _ _
  rw [costs_eq_map fits, costs_eq_map fits]
  exact congrArg (fun cost => [cost]) (cost_congr fits registered agrees)

/-- Unless it has few channels, a layer is searched like its canonical form. -/
theorem searchCost_eq_searchCost_canonical
    (fits : model.Fits)
    (registered : model.Registered)
    (latency : options.objective = .latency)
    (cuboid : layer.device.isCuboid = true)
    (many : ¬layer.workload.HasFewChannels) :
    model.searchCost layer options = model.searchCost layer.canonical options := by
  cases isOperation : layer.workload.operation with
  | avePool =>
      have limits : layer.limitsChannels = true := by
        simp [Layer.limitsChannels, Layer.operation, cuboid, isOperation]
      have isDepthwise : layer.workload.canonicalOperation = .depthwise := by
        simp only [Workload.canonicalOperation, isOperation]
      exact searchCost_congr_of_limitsChannels latency limits
        (Layer.limitsChannels_canonical cuboid (.inl isDepthwise)) rfl
        (costs_uncut_canonical fits registered layer)
  | convolution =>
      have same : layer.workload.canonicalOperation = layer.workload.operation := by
        have channels : ¬(1 ≤ layer.workload.input.shape.channels ∧
            layer.workload.input.shape.channels < 16) :=
          fun few => many ⟨isOperation, few⟩
        simp only [Workload.canonicalOperation, isOperation, if_neg channels]
      rw [Layer.canonical_eq_self same]
  | depthwise | eltwise | maxPool | channelMajor | layerNorm | eltwiseMul =>
      have same : layer.workload.canonicalOperation = layer.workload.operation := by
        simp only [Workload.canonicalOperation, isOperation]
      rw [Layer.canonical_eq_self same]

/-- The search of a convolution of few channels tries what that of its canonical form tries. -/
theorem searchCost_le_of_hasFewChannels
    {cycles : Nat}
    (fits : model.Fits)
    (registered : model.Registered)
    (latency : options.objective = .latency)
    (cuboid : layer.device.isCuboid = true)
    (few : layer.workload.HasFewChannels)
    (answers : model.searchCost layer.canonical options = .ok cycles) :
    ∃ fewer, fewer ≤ cycles ∧ model.searchCost layer options = .ok fewer := by
  have isChannelMajor : layer.workload.canonicalOperation = .channelMajor := by
    simp only [Workload.canonicalOperation, few.1, few.2, and_self, if_true]
  have canonicalLimits := Layer.limitsChannels_canonical cuboid (.inr isChannelMajor)
  obtain ⟨member, canonicalFeasible, rfl⟩ :=
    (searchCost_eq_ok_iff_of_limitsChannels latency canonicalLimits).mp answers
  have sameCosts := costs_uncut_canonical fits registered layer
  have feasible : model.Feasible options (options.processorsFor layer) (uncut layer) := by
    simp only [Feasible, HasCosts, splitTime, sameCosts]
    exact canonicalFeasible
  have isMode : ExecutionMode.cuboid16x16 ∈ layer.modes := by
    simp [Layer.modes, Layer.operation, cuboid, few.1]
  have candidate : uncut layer ∈ candidatesOf layer options :=
    Layer.wholeBox_mem_candidates _ _ member isMode
  obtain ⟨split, isBest, atMost⟩ := exists_best_le latency candidate feasible
  refine ⟨split.cost, ?_, searchCost_eq_ok_iff.mpr ⟨split, isBest, rfl⟩⟩
  calc split.cost
      ≤ model.splitTime options (options.processorsFor layer) (uncut layer) := atMost
    _ = model.splitTime options (options.processorsFor layer.canonical)
          (uncut layer.canonical) := by
        simp only [splitTime, sameCosts]
        rfl

/--
A layer and its canonical form are searched for the same cost, or fail for the same
reason, unless the layer is a convolution of few channels.  The search of such a
layer answers whenever that of its canonical form does, and with no greater cost.
-/
theorem searchCost_of_canonical
    {settings : Settings}
    {network : Trained}
    (loaded : network = .absent ∨ ∃ bytes, network = .ofBytes bytes)
    (made : ofNetwork settings network = .ok model)
    (latency : options.objective = .latency)
    (cuboid : layer.device.isCuboid = true) :
    (¬layer.workload.HasFewChannels →
        model.searchCost layer options = model.searchCost layer.canonical options) ∧
      ∀ cycles, model.searchCost layer.canonical options = .ok cycles →
        ∃ fewer, fewer ≤ cycles ∧ model.searchCost layer options = .ok fewer := by
  have fits := fits_of_ofNetwork loaded made
  have registered := registered_of_ofNetwork made
  have same : ¬layer.workload.HasFewChannels →
      model.searchCost layer options = model.searchCost layer.canonical options :=
    searchCost_eq_searchCost_canonical fits registered latency cuboid
  refine ⟨same, ?_⟩
  intro cycles answers
  by_cases few : layer.workload.HasFewChannels
  · exact searchCost_le_of_hasFewChannels fits registered latency cuboid few answers
  · exact ⟨cycles, Nat.le_refl _, (same few).trans answers⟩

/-- A convolution of three channels. -/
def threeChannels : Layer :=
  let input := Tensor.dense ⟨16, 16, 3, 1⟩ .uint8
  let output := Tensor.dense ⟨16, 16, 64, 1⟩ .uint8
  .ofWorkload
    { Workload.plain .vpu27 .convolution input output .cuboid16x16 with
      kernel := ⟨3, 3⟩
      padding := ⟨1, 1, 1, 1⟩ }

/-- An average costs what a depthwise convolution costs, by a network too. -/
theorem searchCost_of_averaged :
    twoProcessors.objective = .latency ∧
      (Layer.ofWorkload averaged).device.isCuboid = true ∧
      (Layer.ofWorkload averaged).canonical.operation = .depthwise ∧
      ∃ model,
        ofNetwork .initial (.ofBytes reluFile) = .ok model ∧
          model.searchCost (.ofWorkload averaged) twoProcessors =
            model.searchCost (Layer.ofWorkload averaged).canonical twoProcessors := by
  have many : ¬(Layer.ofWorkload averaged).workload.HasFewChannels := by
    rintro ⟨isConvolution, _⟩
    contradiction
  have latency : twoProcessors.objective = .latency := rfl
  have cuboid : (Layer.ofWorkload averaged).device.isCuboid = true := rfl
  obtain ⟨model, made, _⟩ := exists_model_of_reluFile
  obtain ⟨same, _⟩ := searchCost_of_canonical (.inr ⟨reluFile, rfl⟩) made latency cuboid
  exact ⟨latency, cuboid, rfl, model, made, same many⟩

/-- Three channels are searched for half the cost of their canonical form on two processors. -/
theorem searchCost_of_threeChannels :
    threeChannels.canonical.operation = .channelMajor ∧
      (initial.searchCost threeChannels twoProcessors).toOption = some 98 ∧
      (initial.searchCost threeChannels.canonical twoProcessors).toOption = some 199 ∧
      initial.searchCost threeChannels twoProcessors ≠
        initial.searchCost threeChannels.canonical twoProcessors := by
  have cost : (initial.searchCost threeChannels twoProcessors).toOption = some 98 := by
    decide +kernel
  have canonicalCost :
      (initial.searchCost threeChannels.canonical twoProcessors).toOption = some 199 := by
    decide +kernel
  refine ⟨rfl, cost, canonicalCost, ?_⟩
  intro same
  rw [same, canonicalCost] at cost
  contradiction

end CostModel

end DpuCycles
