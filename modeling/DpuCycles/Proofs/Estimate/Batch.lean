import DpuCycles.Estimate.CostModel
import DpuCycles.Proofs.Descriptor.Encoding
import DpuCycles.Proofs.Network.Contexts

namespace DpuCycles

open Network

/-!
# Many workloads cost what each of them costs

Workloads that are priced at once share one run of the network.  Refused ones
have no row in it and those with two sparse operands have two, so the outputs are
handed back to other positions than they come from.  Here every workload gets an
evaluation that does not mention the others, and pricing many is shown to give
these evaluations in order.
-/

namespace Predictor

/-- A predictor whose network is sound and takes its descriptors. -/
structure Fits (predictor : Predictor) : Prop where
  sound : predictor.network.Sound
  width : predictor.schema.width = predictor.network.inputSize

/-- The descriptor of a job as a row of the network. -/
def row
    (predictor : Predictor)
    (job : Job) : Array Single :=
  ((predictor.schema.vector job).map Single.ofFloat32).toArray

/-- The output for a job alone, `none` when rows of the network end empty. -/
def output?
    (predictor : Predictor)
    (job : Job) : Option Float32 :=
  if predictor.network.outputSize = 0 then
    none
  else
    some ((predictor.network.apply (predictor.row job)).getD 0 .zero).toFloat32

theorem output?_eq_none
    {predictor : Predictor}
    (empty : predictor.network.outputSize = 0) :
    predictor.output? = fun _ => none :=
  funext fun _ => if_pos empty

theorem output?_eq_some
    {predictor : Predictor}
    (nonempty : predictor.network.outputSize ≠ 0) :
    predictor.output? = some ∘ fun job =>
      ((predictor.network.apply (predictor.row job)).getD 0 .zero).toFloat32 :=
  funext fun _ => if_neg nonempty

theorem getD_extract_start
    {values : Array Single}
    {first width : Nat}
    (widthPositive : 0 < width)
    (inside : first < values.size) :
    (values.extract first (first + width)).getD 0 .zero = values.getD first .zero := by
  simp only [Array.getD_eq_getD_getElem?, Array.getElem?_extract]
  rw [if_pos (by omega), Nat.add_zero]

/-- The first values of rows are those of each row. -/
theorem firsts_joined
    {width : Nat}
    {rows : List (Array Single)}
    (widthPositive : 0 < width)
    (widths : HaveWidth width rows) :
    firsts width (joined rows) = rows.map fun row => (row.getD 0 .zero).toFloat32 := by
  have count : ceilDiv (joined rows).size width = rows.length := by
    have wholeRows : rows.length * width + (width - 1) = width - 1 + rows.length * width :=
      Nat.add_comm _ _
    rw [widths.size_joined, ceilDiv, wholeRows, Nat.add_mul_div_right _ _ widthPositive,
      Nat.div_eq_of_lt (by omega), Nat.zero_add]
  conv => rhs; rw [← widths.rows_of_joined]
  rw [firsts, count, List.map_map]
  refine List.map_congr_left fun row member => ?_
  have inside : row * width < (joined rows).size := by
    rw [widths.size_joined]
    exact Nat.mul_lt_mul_of_pos_right (List.mem_range.mp member) widthPositive
  exact congrArg Single.toFloat32 (getD_extract_start widthPositive inside).symm

/-- The descriptors of jobs are their rows. -/
theorem descriptors_eq_joined
    (predictor : Predictor)
    (jobs : List Job) :
    predictor.descriptors jobs = joined (jobs.map predictor.row) := by
  induction jobs with
  | nil =>
      rfl
  | cons job rest inductionHypothesis =>
      rw [descriptors, List.flatMap_cons, List.map_append, ← List.append_toArray, List.map_cons,
        joined_cons, ← inductionHypothesis]
      rfl

theorem size_descriptors
    (predictor : Predictor)
    (jobs : List Job) :
    (predictor.descriptors jobs).size = jobs.length * predictor.schema.width := by
  have widths : HaveWidth predictor.schema.width (jobs.map predictor.row) := by
    intro row member
    obtain ⟨job, _, rfl⟩ := List.mem_map.mp member
    rw [row, List.size_toArray, List.length_map, predictor.schema.length_vector]
  rw [descriptors_eq_joined, widths.size_joined, List.length_map]

/-- In any valid context the outputs are those of each job alone. -/
theorem outputs_eq_filterMap
    {predictor : Predictor}
    {context : Context}
    (fits : predictor.Fits)
    (valid : context.Valid)
    (jobs : List Job) :
    (predictor.outputs context jobs).2 = jobs.filterMap predictor.output? := by
  have rowWidths : HaveWidth predictor.network.inputSize (jobs.map predictor.row) := by
    intro row member
    obtain ⟨job, _, rfl⟩ := List.mem_map.mp member
    rw [← fits.width, Predictor.row, List.size_toArray, List.length_map,
      predictor.schema.length_vector]
  have outputWidths := rowWidths.map fun _ => predictor.network.size_apply
  have ran := predictor.network.predict_joined fits.sound valid rowWidths
  have given : (predictor.outputs context jobs).2 =
      firsts (max predictor.network.outputSize 1)
        (joined ((jobs.map predictor.row).map predictor.network.apply)) := by
    unfold outputs
    rw [descriptors_eq_joined]
    split <;> rename_i taken <;> rw [taken] at ran
    · rw [← Except.ok.inj ran]
    · contradiction
  rw [given]
  by_cases empty : predictor.network.outputSize = 0
  · have noValues := outputWidths.size_joined
    rw [empty, Nat.mul_zero] at noValues
    rw [Array.eq_empty_of_size_eq_zero noValues, output?_eq_none empty, empty]
    simp [firsts, ceilDiv]
  · have outputPositive : 0 < predictor.network.outputSize := Nat.pos_of_ne_zero empty
    rw [Nat.max_eq_left outputPositive, firsts_joined outputPositive outputWidths,
      output?_eq_some empty, List.filterMap_eq_map, List.map_map, List.map_map]
    rfl

end Predictor

namespace CostModel

/-- A model whose network, if there is one, fits. -/
def Fits (model : CostModel) : Prop :=
  ∀ predictor, model.predictor? = some predictor → predictor.Fits

/-- Models of no network and of networks that are read from bytes fit. -/
theorem fits_of_ofNetwork
    {settings : Settings}
    {network : Trained}
    {model : CostModel}
    (loaded : network = .absent ∨ ∃ bytes, network = .ofBytes bytes)
    (made : ofNetwork settings network = .ok model) :
    model.Fits := by
  have absentOrSound : network = .absent ∨ network.Sound := by
    rcases loaded with absent | ⟨bytes, rfl⟩
    · exact .inl absent
    · exact Trained.ofBytes_absent_or_sound bytes
  intro predictor isPredictor
  unfold ofNetwork at made
  split at made
  · rename_i present
    have sound : network.Sound := by
      rcases absentOrSound with rfl | sound
      · contradiction
      · exact sound
    cases ofThis : Predictor.ofNetwork network with
    | error fault =>
        rw [ofThis] at made
        contradiction
    | ok known =>
        rw [ofThis, Except.ok.injEq] at made
        subst made
        obtain rfl := Option.some.inj isPredictor
        simp only [Predictor.ofNetwork, bind, Except.bind] at ofThis
        split at ofThis
        · contradiction
        · split at ofThis
          · contradiction
          · split at ofThis
            · contradiction
            · split at ofThis
              · rename_i width
                rw [Except.ok.injEq] at ofThis
                subst ofThis
                exact ⟨sound, width⟩
              · contradiction
  · rw [Except.ok.injEq] at made
    subst made
    contradiction

/-- The evaluation of an admitted or refused workload alone. -/
def evaluateAdmitted
    (model : CostModel) :
    Except Refusal Job → Evaluation
  | .error refusal => .ofRefusal refusal
  | .ok job =>
      match model.predictor? with
      | none => model.evaluateJob job
      | some predictor =>
          match predictor.output? job with
          | some raw => evaluateOutput predictor.reading job raw
          | none => .failed .invalidOutputRange "NN produced no output"

/-- Outputs of the admitted jobs are handed to the jobs they were computed for. -/
theorem distribute_map
    (reading : OutputReading)
    (output : Job → Float32)
    (admitted : List (Except Refusal Job)) :
    distribute reading admitted ((admitted.filterMap Except.toOption).map output) =
      admitted.map fun
        | .ok job => evaluateOutput reading job (output job)
        | .error refusal => .ofRefusal refusal := by
  induction admitted with
  | nil =>
      rfl
  | cons first rest inductionHypothesis =>
      cases first with
      | error refusal =>
          exact congrArg (List.cons (.ofRefusal refusal)) inductionHypothesis
      | ok job =>
          exact congrArg (List.cons (evaluateOutput reading job (output job))) inductionHypothesis

theorem distribute_nil
    (reading : OutputReading)
    (admitted : List (Except Refusal Job)) :
    distribute reading admitted [] =
      admitted.map fun
        | .ok _ => .failed .invalidOutputRange "NN produced no output"
        | .error refusal => .ofRefusal refusal := by
  induction admitted with
  | nil =>
      rfl
  | cons first rest inductionHypothesis =>
      cases first with
      | error refusal =>
          exact congrArg (List.cons (.ofRefusal refusal)) inductionHypothesis
      | ok job =>
          exact congrArg (List.cons (.failed .invalidOutputRange "NN produced no output"))
            inductionHypothesis

/-- Outputs of a predictor are handed to the jobs they were computed for. -/
theorem distribute_filterMap
    (predictor : Predictor)
    (admitted : List (Except Refusal Job)) :
    distribute predictor.reading admitted
        ((admitted.filterMap Except.toOption).filterMap predictor.output?) =
      admitted.map fun
        | .ok job =>
            match predictor.output? job with
            | some raw => evaluateOutput predictor.reading job raw
            | none => .failed .invalidOutputRange "NN produced no output"
        | .error refusal => .ofRefusal refusal := by
  by_cases empty : predictor.network.outputSize = 0
  · have noOutput := Predictor.output?_eq_none empty
    have noOutputs :
        (admitted.filterMap Except.toOption).filterMap predictor.output? = [] := by
      simp [noOutput]
    rw [noOutputs, noOutput]
    exact distribute_nil predictor.reading admitted
  · rw [Predictor.output?_eq_some empty, List.filterMap_eq_map]
    exact distribute_map predictor.reading _ admitted

/-- In any valid context workloads as they are get the evaluations of each alone. -/
theorem evaluatePlain_eq_map
    {model : CostModel}
    {context : Context}
    (fits : model.Fits)
    (valid : context.Valid)
    (workloads : List Workload) :
    (model.evaluatePlain context workloads).2 =
      workloads.map fun workload => model.evaluateAdmitted (model.gate.accept workload) := by
  have together : (model.evaluatePlain context workloads).2 =
      (workloads.map model.gate.accept).map model.evaluateAdmitted := by
    unfold evaluatePlain
    dsimp only
    cases isPredictor : model.predictor? with
    | none =>
        refine List.map_congr_left fun admitted _ => ?_
        cases admitted <;> simp [evaluateAdmitted, isPredictor]
    | some predictor =>
        dsimp only
        rw [predictor.outputs_eq_filterMap (fits predictor isPredictor) valid,
          distribute_filterMap]
        refine List.map_congr_left fun admitted _ => ?_
        cases admitted <;> simp [evaluateAdmitted, isPredictor]
  rw [together, List.map_map]
  rfl

/-- The evaluation of a workload by its variants, each of them alone. -/
def evaluateAlone
    (model : CostModel)
    (workload : Workload) : Evaluation :=
  match model.variants workload with
  | .error refusal => .ofRefusal refusal
  | .ok group =>
      .cheapest (group.map fun variant => model.evaluateAdmitted (model.gate.accept variant))

/-- Evaluations of variants are handed to the workloads they are variants of. -/
theorem regroup_map
    (evaluation : Workload → Evaluation)
    (groups : List (Except Refusal (List Workload))) :
    regroup groups ((groups.flatMap fun group => group.toOption.getD []).map evaluation) =
      groups.map fun
        | .error refusal => .ofRefusal refusal
        | .ok group => .cheapest (group.map evaluation) := by
  induction groups with
  | nil =>
      rfl
  | cons first rest inductionHypothesis =>
      cases first with
      | error refusal =>
          exact congrArg (List.cons (.ofRefusal refusal)) inductionHypothesis
      | ok group =>
          -- A group takes as many evaluations as it has variants, so the others stay in step.
          have length : group.length = (group.map evaluation).length := (List.length_map _).symm
          rw [List.flatMap_cons, List.map_append, regroup, List.map_cons]
          simp only [Except.toOption, Option.getD_some]
          rw [length, List.take_left, List.drop_left]
          exact congrArg (List.cons (.cheapest (group.map evaluation))) inductionHypothesis

/-- Every workload gets an evaluation, however many variants there were. -/
theorem length_regroup
    (groups : List (Except Refusal (List Workload)))
    (evaluations : List Evaluation) :
    (regroup groups evaluations).length = groups.length := by
  induction groups generalizing evaluations with
  | nil =>
      rfl
  | cons first rest inductionHypothesis =>
      cases first with
      | error refusal =>
          exact congrArg (· + 1) (inductionHypothesis evaluations)
      | ok group =>
          exact congrArg (· + 1) (inductionHypothesis (evaluations.drop group.length))

/-- In any valid context workloads get the evaluations of each alone. -/
theorem evaluateIn_eq_map
    {model : CostModel}
    {context : Context}
    (fits : model.Fits)
    (valid : context.Valid)
    (workloads : List Workload) :
    (model.evaluateIn context workloads).2 = workloads.map model.evaluateAlone := by
  unfold evaluateIn allVariants
  dsimp only
  rw [evaluatePlain_eq_map fits valid, regroup_map, List.map_map]
  rfl

/-- Workloads are priced in one run of the network. -/
theorem costsIn_context
    {model : CostModel}
    {predictor : Predictor}
    (isPredictor : model.predictor? = some predictor)
    (context : Context)
    (workloads : List Workload) :
    (model.costsIn context workloads).1 =
      (predictor.network.predict context (predictor.descriptors (model.jobsOf workloads))).1 := by
  unfold costsIn evaluateIn evaluatePlain jobsOf Predictor.outputs
  dsimp only
  rw [isPredictor]
  dsimp only
  split <;> rename_i ran <;> rw [ran]

/-- One workload gets its own evaluation. -/
theorem evaluate_eq_evaluateAlone
    {model : CostModel}
    (fits : model.Fits)
    (workload : Workload) :
    model.evaluate workload = model.evaluateAlone workload := by
  have valid : model.newContext.Valid := Context.valid_make _ _
  rw [evaluate, evaluateIn_eq_map fits valid]
  rfl

/-- One workload costs what it costs alone, by any network. -/
theorem costs_singleton
    (model : CostModel)
    (workload : Workload) :
    model.costs [workload] = [model.cost workload] := by
  have single : (model.evaluateIn model.newContext [workload]).2.length = 1 :=
    length_regroup _ _
  obtain ⟨evaluation, isOnly⟩ := List.length_eq_one_iff.mp single
  rw [costs, cost, evaluate, isOnly]
  rfl

/-- Costs in a new context are those of each workload. -/
theorem costs_eq_map
    {model : CostModel}
    (fits : model.Fits)
    (workloads : List Workload) :
    model.costs workloads = workloads.map model.cost := by
  have own : model.newContext.Valid := Context.valid_make _ _
  rw [costs, evaluateIn_eq_map fits own, List.map_map]
  refine List.map_congr_left fun workload _ => ?_
  exact congrArg Evaluation.scalar (evaluate_eq_evaluateAlone fits workload).symm

/-- Costs in any valid context are those of each workload. -/
theorem costsIn_eq_map
    {model : CostModel}
    {context : Context}
    (fits : model.Fits)
    (valid : context.Valid)
    (workloads : List Workload) :
    (model.costsIn context workloads).2 = workloads.map model.cost := by
  unfold costsIn
  dsimp only
  rw [evaluateIn_eq_map fits valid, List.map_map]
  refine List.map_congr_left fun workload _ => ?_
  exact congrArg Evaluation.scalar (evaluate_eq_evaluateAlone fits workload).symm

section Room

variable {model : CostModel} {context : Context} {workloads : List Workload}

/-- Whether a context can grow to the network of a model, if there is one. -/
def HasRoom
    (model : CostModel)
    (context : Context) : Prop :=
  ∀ predictor, model.predictor? = some predictor →
    context.hasRoom predictor.network.neededWidth

/-- Whether there is room for what the network of a model, if there is one, puts out. -/
def Collects
    (model : CostModel)
    (workloads : List Workload) : Prop :=
  ∀ predictor, model.predictor? = some predictor →
    predictor.network.collects (predictor.descriptors (model.jobsOf workloads))

/-- The context must have room, whatever the workloads, and the outputs, whatever the context. -/
theorem canPriceIn_iff :
    model.canPriceIn context workloads ↔ model.HasRoom context ∧ model.Collects workloads := by
  rw [canPriceIn, HasRoom, Collects]
  cases model.predictor? with
  | none => simp
  | some predictor => simp [Trained.canPredict]

theorem canPrice_iff :
    model.canPrice workloads ↔
      (model.predictor? = none ∨ model.hasContext ∧ model.HasRoom model.newContext) ∧
        model.Collects workloads := by
  rw [canPrice, Bool.or_eq_true, Option.isNone_iff_eq_none, Bool.and_eq_true, canPriceIn_iff]
  constructor
  · rintro (isNone | ⟨hasContext, room, collected⟩)
    · refine ⟨.inl isNone, fun predictor isPredictor => ?_⟩
      rw [isNone] at isPredictor
      contradiction
    · exact ⟨.inr ⟨hasContext, room⟩, collected⟩
  · rintro ⟨isNone | ⟨hasContext, room⟩, collected⟩
    · exact .inl isNone
    · exact .inr ⟨hasContext, room, collected⟩

/-- A workload among others brings no more jobs than all of them. -/
theorem length_jobsOf_le
    {workload : Workload}
    (member : workload ∈ workloads) :
    (model.jobsOf [workload]).length ≤ (model.jobsOf workloads).length := by
  obtain ⟨before, after, rfl⟩ := List.append_of_mem member
  simp only [jobsOf, allVariants, List.map_append, List.map_cons, List.map_nil, List.flatMap_append,
    List.flatMap_cons, List.flatMap_nil, List.append_nil, List.filterMap_append,
    List.length_append]
  omega

/-- Fewer jobs have fewer outputs. -/
theorem Collects.of_length_le
    {fewer : List Workload}
    (collected : model.Collects workloads)
    (length : (model.jobsOf fewer).length ≤ (model.jobsOf workloads).length) :
    model.Collects fewer := by
  intro predictor isPredictor
  have all := of_decide_eq_true (collected predictor isPredictor)
  rw [predictor.size_descriptors] at all
  refine decide_eq_true ?_
  rw [predictor.size_descriptors]
  refine Nat.le_trans (Nat.mul_le_mul_right _ (Nat.div_le_div_right ?_)) all
  exact Nat.mul_le_mul_right _ length

/-- Workloads that can be priced together can be priced alone. -/
theorem canPrice_singleton
    {workload : Workload}
    (priceable : model.canPrice workloads)
    (member : workload ∈ workloads) :
    model.canPrice [workload] := by
  obtain ⟨ownRoom, collected⟩ := canPrice_iff.mp priceable
  exact canPrice_iff.mpr ⟨ownRoom, collected.of_length_le (length_jobsOf_le member)⟩

/-- With room the costs are those in the given context. -/
theorem costsWithin_of_canPriceIn (room : model.canPriceIn context workloads) :
    (model.costsWithin context workloads).2 = some (model.costsIn context workloads).2 := by
  unfold costsWithin
  split
  · rfl
  · rename_i predictor isPredictor
    rw [canPriceIn, isPredictor, Option.all_some] at room
    dsimp only
    rw [if_pos room]

/-- What is left of a context in which workloads are priced. -/
theorem costsWithin_context
    (model : CostModel)
    (context : Context)
    (workloads : List Workload) :
    (model.predictor? = none ∧ (model.costsWithin context workloads).1 = context) ∨
      ∃ predictor,
        model.predictor? = some predictor ∧
          (model.costsWithin context workloads).1 =
            (predictor.network.predictWithin context
              (predictor.descriptors (model.jobsOf workloads))).1 := by
  unfold costsWithin
  split
  · rename_i isNone
    exact .inl ⟨isNone, rfl⟩
  · rename_i predictor isPredictor
    refine .inr ⟨predictor, isPredictor, ?_⟩
    dsimp only
    split
    · rename_i room
      rw [Trained.predictWithin, if_pos room, ← costsIn_context isPredictor]
    · rfl

/-- A run that there is room for leaves a context that callers can hold. -/
theorem costsWithin_reachable
    (room : model.HasRoom context)
    (reachable : context.Reachable)
    (workloads : List Workload) :
    (model.costsWithin context workloads).1.Reachable := by
  obtain ⟨_, same⟩ | ⟨predictor, isPredictor, ran⟩ := model.costsWithin_context context workloads
  · rw [same]
    exact reachable
  · rw [ran]
    exact reachable.used _ (room predictor isPredictor)

/-- A context with room for the network of a model keeps it. -/
theorem hasRoom_costsWithin
    (room : model.HasRoom context)
    (workloads : List Workload) :
    model.HasRoom (model.costsWithin context workloads).1 := by
  obtain ⟨_, same⟩ | ⟨predictor, isPredictor, ran⟩ := model.costsWithin_context context workloads
  · rw [same]
    exact room
  · rw [ran]
    intro other isOther
    obtain rfl : predictor = other := Option.some.inj (isPredictor.symm.trans isOther)
    exact (predictor.network.predictWithin_extends (room predictor isPredictor) _).hasRoom
      (room predictor isPredictor)

end Room

section Kept

variable {model : CostModel} {kept : List Context} {workloads : List Workload}

/-- Contexts that a model may have kept, from earlier pricing. -/
structure Keeps
    (model : CostModel)
    (kept : List Context) : Prop where
  few : kept.length ≤ keptContexts
  reachable : ∀ context ∈ kept, context.Reachable
  room : ∀ context ∈ kept, model.HasRoom context

theorem keeps_nil (model : CostModel) : model.Keeps [] :=
  ⟨Nat.zero_le _, nofun, nofun⟩

/-- Pricing in a context with room gives the costs, and the context may be kept. -/
theorem costsBeside_eq
    {context : Context}
    {others : List Context}
    (fits : model.Fits)
    (keeps : model.Keeps others)
    (fewer : others.length < keptContexts)
    (reachable : context.Reachable)
    (room : model.canPriceIn context workloads) :
    (model.costsBeside others context workloads).2 = some (workloads.map model.cost) ∧
      model.Keeps (model.costsBeside others context workloads).1 := by
  have costs := costsWithin_of_canPriceIn room
  rw [costsIn_eq_map fits reachable.valid] at costs
  have hasRoom := (canPriceIn_iff.mp room).1
  have next := costsWithin_reachable hasRoom reachable workloads
  have nextRoom := hasRoom_costsWithin hasRoom workloads
  unfold costsBeside
  split
  · rename_i left costs' priced
    rw [priced] at costs next nextRoom
    refine ⟨costs, ?_⟩
    dsimp only
    rw [if_pos fewer]
    exact ⟨fewer, List.forall_mem_cons.mpr ⟨next, keeps.reachable⟩,
      List.forall_mem_cons.mpr ⟨nextRoom, keeps.room⟩⟩
  · rename_i left priced
    rw [priced] at costs
    contradiction

/-- What can be priced with a network can be priced in a context that is made for it. -/
theorem newContext_of_canPrice
    {predictor : Predictor}
    (isPredictor : model.predictor? = some predictor)
    (priceable : model.canPrice workloads) :
    model.hasContext ∧ model.HasRoom model.newContext ∧ model.Collects workloads := by
  obtain ⟨isNone | ⟨hasContext, room⟩, collected⟩ := canPrice_iff.mp priceable
  · rw [isNone] at isPredictor
    contradiction
  · exact ⟨hasContext, room, collected⟩

/-- Whatever contexts are kept, workloads that can be priced get the cost of each of them. -/
theorem costsKept_eq
    (fits : model.Fits)
    (keeps : model.Keeps kept)
    (priceable : model.canPrice workloads) :
    (model.costsKept kept workloads).2 = some (workloads.map model.cost) ∧
      model.Keeps (model.costsKept kept workloads).1 := by
  unfold costsKept
  split
  · exact ⟨congrArg some (costs_eq_map fits workloads), keeps⟩
  · rename_i predictor context others isPredictor
    obtain ⟨_, _, collected⟩ := newContext_of_canPrice isPredictor priceable
    have keepsOthers : model.Keeps others :=
      ⟨Nat.le_of_succ_le keeps.few, (List.forall_mem_cons.mp keeps.reachable).2,
        (List.forall_mem_cons.mp keeps.room).2⟩
    have room := keeps.room context List.mem_cons_self
    exact costsBeside_eq fits keepsOthers keeps.few (keeps.reachable context List.mem_cons_self)
      (canPriceIn_iff.mpr ⟨room, collected⟩)
  · rename_i predictor isPredictor
    obtain ⟨hasContext, room, collected⟩ := newContext_of_canPrice isPredictor priceable
    rw [if_pos hasContext]
    exact costsBeside_eq fits model.keeps_nil (by decide) (.made hasContext)
      (canPriceIn_iff.mpr ⟨room, collected⟩)

/-- A model that has kept no context does not price what cannot be priced. -/
theorem costs?_eq_none (unpriceable : model.canPrice workloads = false) :
    model.costs? workloads = none := by
  unfold canPrice canPriceIn at unpriceable
  unfold costs? costsKept
  cases isPredictor : model.predictor? with
  | none =>
      rw [isPredictor] at unpriceable
      contradiction
  | some predictor =>
      rw [isPredictor, Option.isNone_some, Bool.false_or, Option.all_some] at unpriceable
      dsimp only
      split
      · rename_i hasContext
        rw [hasContext, Bool.true_and] at unpriceable
        unfold costsBeside costsWithin
        rw [isPredictor]
        dsimp only
        rw [unpriceable]
        rfl
      · rfl

end Kept

/--
Workloads cost together what each of them costs alone, in whatever contexts the model has
kept from earlier pricing, as long as there is room for a new context and for the outputs.
They cost the same in any context with room that was used before, and that one can be held
for the next ones.
-/
theorem costsKept_eq_map_cost
    {settings : Settings}
    {network : Trained}
    {model : CostModel}
    {context : Context}
    {kept : List Context}
    (loaded : network = .absent ∨ ∃ bytes, Trained.load? bytes = some network)
    (made : ofNetwork settings network = .ok model)
    (reachable : context.Reachable)
    (keeps : model.Keeps kept)
    (workloads : List Workload) :
    (model.canPrice workloads →
        (model.costsKept kept workloads).2 = some (workloads.map model.cost) ∧
          model.Keeps (model.costsKept kept workloads).1 ∧
          ∀ workload ∈ workloads,
            (model.costsKept kept [workload]).2 = some [model.cost workload]) ∧
      (model.canPriceIn context workloads →
        (model.costsWithin context workloads).2 = some (workloads.map model.cost) ∧
          (model.costsWithin context workloads).1.Reachable) := by
  have fits : model.Fits :=
    fits_of_ofNetwork
      (loaded.imp_right fun ⟨bytes, loads⟩ => ⟨bytes, (Trained.ofBytes_of_load? loads).symm⟩) made
  refine ⟨fun priceable => ?_, fun room => ?_⟩
  · obtain ⟨together, keepsNext⟩ := costsKept_eq fits keeps priceable
    refine ⟨together, keepsNext, fun workload member => ?_⟩
    exact (costsKept_eq fits keeps (canPrice_singleton priceable member)).1
  · rw [costsWithin_of_canPriceIn room, costsIn_eq_map fits reachable.valid]
    exact ⟨rfl, costsWithin_reachable (canPriceIn_iff.mp room).1 reachable workloads⟩

/-- The file of a network of one kernel without numbers, for the second layout of descriptors. -/
def reluFile : List UInt8 :=
  let header :=
    "\x7b\"__metadata__\":\x7b\"name\":\"relu-10-2\",\"input_size\":\"67\"," ++
      "\"layers\":\"[\x7b\\\"type\\\":\\\"relu\\\"\x7d]\"\x7d\x7d"
  let characters := header.toList.map fun character => UInt8.ofNat character.toNat
  UInt8.ofNat characters.length :: List.replicate 7 0 ++ characters

/-- A plain workload, the same with two sparse operands, and one of a generation without a table. -/
def mixedWorkloads : List Workload :=
  let tensor := Tensor.dense ⟨16, 16, 64, 1⟩ .uint8
  let plain := Workload.plain .vpu27 .convolution tensor tensor .cuboid16x16
  [{ plain with device := .vpu20 }, plain, (plain.withInputSparsity 0).withWeightSparsity 0]

theorem load?_reluFile : Trained.load? reluFile = some (.ofBytes reluFile) := by
  have loads : Trained.stopsAt reluFile = false := by
    decide +kernel
  rw [Trained.load?, loads, if_neg Bool.false_ne_true]

theorem ofBytes_reluFile :
    Trained.ofBytes reluFile = ⟨⟨"relu", 10, 2⟩, 67, [.relu], 96⟩ := by
  decide +kernel

/-- A context that already ran the network of the file. -/
def reluContext : Context :=
  ((Trained.ofBytes reluFile).predictWithin (.make 3 5) (Array.replicate 67 .zero)).1

theorem reachable_reluContext : reluContext.Reachable := by
  have room : (Context.make 3 5).hasRoom (Trained.ofBytes reluFile).neededWidth := by
    rw [ofBytes_reluFile]
    decide
  exact .used _ room (.made (by decide))

/-- A model of the network of the file, with room for the mixed workloads. -/
theorem exists_model_of_reluFile :
    ∃ model,
      ofNetwork .initial (.ofBytes reluFile) = .ok model ∧
        model.canPrice mixedWorkloads ∧ model.canPriceIn reluContext mixedWorkloads := by
  have loads : (ofNetwork .initial (.ofBytes reluFile)).toOption.any fun model =>
      model.canPrice mixedWorkloads && model.canPriceIn reluContext mixedWorkloads := by
    rw [reluContext, ofBytes_reluFile]
    decide +kernel
  cases made : ofNetwork .initial (.ofBytes reluFile) with
  | error fault =>
      rw [made] at loads
      contradiction
  | ok model =>
      rw [made, Except.toOption, Option.any_some, Bool.and_eq_true] at loads
      exact ⟨model, rfl, loads⟩

/-- They cost together what each of them costs, in a context that already ran a network. -/
theorem costsKept_of_mixedWorkloads :
    ∃ model,
      Trained.load? reluFile = some (.ofBytes reluFile) ∧
        ofNetwork .initial (.ofBytes reluFile) = .ok model ∧
        reluContext.Reachable ∧
        model.Keeps [] ∧
        model.canPrice mixedWorkloads ∧
        model.canPriceIn reluContext mixedWorkloads ∧
        model.costs? mixedWorkloads = some (mixedWorkloads.map model.cost) ∧
        (model.costsWithin reluContext mixedWorkloads).2 =
          some (mixedWorkloads.map model.cost) := by
  obtain ⟨model, made, priceable, room⟩ := exists_model_of_reluFile
  obtain ⟨priced, pricedIn⟩ := costsKept_eq_map_cost (.inr ⟨reluFile, load?_reluFile⟩) made
    reachable_reluContext model.keeps_nil mixedWorkloads
  exact ⟨model, load?_reluFile, made, reachable_reluContext, model.keeps_nil, priceable, room,
    (priced priceable).1, (pricedIn room).1⟩

/-- Settings for contexts of so many rows that no buffer holds them. -/
def endlessBatch : Settings := { Settings.initial with batch := 2 ^ 56 }

/-- With them nothing is priced, although the same model prices in a context it is given. -/
theorem costs?_of_endlessBatch :
    ∃ model,
      Trained.load? reluFile = some (.ofBytes reluFile) ∧
        ofNetwork endlessBatch (.ofBytes reluFile) = .ok model ∧
        (Context.make 3 5).Reachable ∧
        (model.costsWithin (.make 3 5) mixedWorkloads).2.isSome ∧
        model.costs? mixedWorkloads = none := by
  have loads : (ofNetwork endlessBatch (.ofBytes reluFile)).toOption.any fun model =>
      model.canPriceIn (.make 3 5) mixedWorkloads && !model.canPrice mixedWorkloads := by
    rw [ofBytes_reluFile]
    decide +kernel
  cases made : ofNetwork endlessBatch (.ofBytes reluFile) with
  | error fault =>
      rw [made] at loads
      contradiction
  | ok model =>
      rw [made, Except.toOption, Option.any_some, Bool.and_eq_true, Bool.not_eq_true'] at loads
      refine ⟨model, load?_reluFile, rfl, .made (by decide), ?_, costs?_eq_none loads.2⟩
      rw [costsWithin_of_canPriceIn loads.1]
      rfl

end CostModel

end DpuCycles
