import DpuCycles.Descriptor.JobLayout
import DpuCycles.Proofs.Descriptor.Encoding
import DpuCycles.Proofs.Legality.Admission

namespace DpuCycles

/-!
# Admitted jobs have descriptors

Admission knows which types, layouts, modes and operations a job may have, and
the layouts of descriptors know for which of them there are slots.  The jobs that
both speak about are the describable ones: every admitted job is one, and every
layout has a slot for each of its values.
-/

/-- A tensor of a type and in a layout that stands for all that are treated alike. -/
structure Tensor.Folded (tensor : Tensor) : Prop where
  dtype : tensor.dtype = .uint8 ∨ tensor.dtype = .float16
  layout : tensor.layout ≠ .zMajor ∧ tensor.layout ≠ .cMajor

/-- A job with values that all descriptors know. -/
structure Job.Describable (job : Job) : Prop where
  operation : job.operation ≠ .layerNorm
  mode : job.mode = .cuboid16x16 ∨ job.mode = .cuboid8x16 ∨ job.mode = .cuboid4x16
  input : job.input.Folded
  weights : job.weights.Folded
  output : job.output.Folded

theorem Workload.foldTensor_folded
    (table : Capability)
    (tensor : Tensor) :
    (foldTensor table tensor).Folded :=
  ⟨table.foldType_eq tensor.dtype, table.foldLayout_ne tensor.layout⟩

/-- The second operand is folded when the input and its own type are. -/
theorem Family.weights_folded
    {input output : Tensor}
    {dtype : DataType}
    (family : Family)
    (kernel : Extent)
    (sparse : Bool)
    (inputFolded : input.Folded)
    (dtypeFolded : dtype = .uint8 ∨ dtype = .float16) :
    (family.weights input output kernel dtype sparse).Folded := by
  cases family with
  | eltwise =>
      exact ⟨dtypeFolded, inputFolded.layout⟩
  | convolution =>
      exact ⟨dtypeFolded, by simp [weights]⟩
  | channelMajor =>
      exact ⟨dtypeFolded, by simp [weights]⟩
  | depthwise =>
      exact ⟨dtypeFolded, by simp [weights]⟩
  | maxPool =>
      exact ⟨dtypeFolded, by simp [weights]⟩

/-- The jobs that the standard tables admit are describable. -/
theorem Gate.Admits.describable
    {gate : Gate}
    {workload : Workload}
    {table : Capability}
    {family : Family}
    {job : Job}
    (standard : gate.tables = Capability.standard)
    (admits : gate.Admits workload table family job) :
    job.Describable := by
  obtain ⟨isTable, isFamily, rfl, _, legal⟩ := admits
  have known : table ∈ Capability.standard := standard ▸ List.mem_of_find?_eq_some isTable
  have input := Workload.foldTensor_folded table workload.canonicalize.input
  have weightType := table.foldType_eq workload.weightType
  rw [← Workload.weightType_canonicalize_fold] at weightType
  refine
    { operation := ?_
      mode := ?_
      input := input
      weights := family.weights_folded _ _ input weightType
      output := Workload.foldTensor_folded table workload.canonicalize.output }
  · exact ne_layerNorm_of_family? isFamily
  · have member := Rules.mode_mem_of_findings legal
    rw [Capability.modes_of_mem_standard known] at member
    simp only [List.mem_cons, List.not_mem_nil, or_false] at member
    rcases member with isMode | isMode | isMode <;> simp [isMode]

namespace Descriptor

/-- Every value has its own slot in the map of a whole domain. -/
theorem OneHot.slot?_identity
    [DecidableEq α]
    [Enumerated α]
    (value : α) :
    (OneHot.identity α).slot? (Enumerated.index value) = some (Enumerated.index value) := by
  simp [slot?, identity, Enumerated.index_lt_cardinality value]

namespace Field

variable {item : α}

/-- Fields of whole domains have slots for all values. -/
theorem hasSlot_identity
    [DecidableEq β]
    [Enumerated β]
    (name : String)
    (read : α → β) :
    (Field.oneHot name (.identity β) read).HasSlot item :=
  Option.isSome_of_eq_some (OneHot.slot?_identity (read item))

/-- Numbers need no slots. -/
theorem hasSlot_of_mem_scalars
    {name : String}
    {reads : List (α → Float32)} :
    ∀ field ∈ scalars name reads, field.HasSlot item := by
  intro field member
  obtain ⟨⟨read, position⟩, _, rfl⟩ := List.mem_map.mp member
  trivial

end Field

namespace JobLayout

theorem isSome_slot?_operation
    {operation : Operation}
    (described : operation ≠ .layerNorm) :
    (operationMap.slot? (Enumerated.index operation)).isSome := by
  cases operation with
  | layerNorm =>
      contradiction
  | _ =>
      rfl

theorem isSome_slot?_dataType
    {dtype : DataType}
    (described : dtype = .uint8 ∨ dtype = .float16) :
    (dataTypeMap.slot? (Enumerated.index dtype)).isSome := by
  rcases described with rfl | rfl <;> rfl

theorem isSome_slot?_layout
    {layout : Layout}
    (described : layout ≠ .zMajor ∧ layout ≠ .cMajor) :
    (layoutMap.slot? (Enumerated.index layout)).isSome := by
  cases layout with
  | zMajor =>
      exact absurd rfl described.1
  | cMajor =>
      exact absurd rfl described.2
  | _ =>
      rfl

theorem isSome_slot?_mode
    {mode : ExecutionMode}
    (described : mode = .cuboid16x16 ∨ mode = .cuboid8x16 ∨ mode = .cuboid4x16) :
    (cuboidMap.slot? (Enumerated.index mode)).isSome := by
  rcases described with rfl | rfl | rfl <;> rfl

variable {job : Job}

/-- Fields of generations and operations have slots for describable jobs. -/
theorem hasSlot_head
    (describable : job.Describable) :
    ∀ field ∈ headFields, field.HasSlot job :=
  List.forall_mem_cons.mpr
    ⟨Field.hasSlot_identity _ _,
      List.forall_mem_singleton.mpr (isSome_slot?_operation describable.operation)⟩

/-- Fields of a tensor have slots for folded ones. -/
theorem hasSlot_tensor
    {name : String}
    {tensor : Job → Tensor}
    (folded : (tensor job).Folded) :
    ∀ field ∈ tensorFields name tensor, field.HasSlot job :=
  List.forall_mem_append.mpr
    ⟨Field.hasSlot_of_mem_scalars,
      List.forall_mem_singleton.mpr (isSome_slot?_dataType folded.dtype)⟩

theorem hasSlot_fullTensor
    {name : String}
    {tensor : Job → Tensor}
    (folded : (tensor job).Folded) :
    ∀ field ∈ fullTensorFields name tensor, field.HasSlot job :=
  List.forall_mem_append.mpr
    ⟨hasSlot_tensor folded,
      List.forall_mem_cons.mpr
        ⟨isSome_slot?_layout folded.layout, List.forall_mem_singleton.mpr trivial⟩⟩

theorem hasSlot_kernel : ∀ field ∈ kernelFields, field.HasSlot job := by
  simp only [kernelFields, List.forall_mem_append]
  exact ⟨⟨Field.hasSlot_of_mem_scalars, Field.hasSlot_of_mem_scalars⟩,
    Field.hasSlot_of_mem_scalars⟩

theorem hasSlot_sparsity : ∀ field ∈ sparsityFields, field.HasSlot job :=
  List.forall_mem_cons.mpr ⟨trivial, List.forall_mem_singleton.mpr trivial⟩

theorem hasSlot_swizzling : ∀ field ∈ swizzlingFields, field.HasSlot job := by
  simp only [swizzlingFields, List.forall_mem_cons]
  exact ⟨Field.hasSlot_identity _ _, Field.hasSlot_identity _ _, Field.hasSlot_identity _ _,
    by simp⟩

/-- All fields of the layout of activations have slots for describable jobs. -/
theorem hasSlot_early
    (describable : job.Describable) :
    ∀ field ∈ earlyFields, field.HasSlot job := by
  simp only [earlyFields, List.forall_mem_append, List.forall_mem_cons]
  exact ⟨⟨⟨⟨⟨⟨⟨hasSlot_head describable, hasSlot_tensor describable.input⟩,
    hasSlot_tensor describable.output⟩, hasSlot_kernel⟩,
    Field.hasSlot_identity _ _, Field.hasSlot_identity _ _, by simp⟩,
    hasSlot_sparsity⟩, hasSlot_swizzling⟩, trivial, by simp⟩

/-- The common fields of the later layouts have slots for describable jobs. -/
theorem hasSlot_laterHead
    (describable : job.Describable) :
    ∀ field ∈ laterHead, field.HasSlot job := by
  simp only [laterHead, List.forall_mem_append, List.forall_mem_singleton]
  exact ⟨⟨⟨⟨⟨⟨hasSlot_head describable, hasSlot_fullTensor describable.input⟩,
    hasSlot_fullTensor describable.weights⟩, hasSlot_fullTensor describable.output⟩,
    hasSlot_kernel⟩, isSome_slot?_mode describable.mode⟩, hasSlot_sparsity⟩

theorem hasSlot_laterTail : ∀ field ∈ laterTail, field.HasSlot job :=
  List.forall_mem_cons.mpr
    ⟨trivial, List.forall_mem_singleton.mpr (Field.hasSlot_identity _ _)⟩

theorem hasSlot_allHalo : ∀ field ∈ allHaloFields, field.HasSlot job := by
  simp only [allHaloFields, List.forall_mem_append]
  exact ⟨⟨Field.hasSlot_of_mem_scalars, Field.hasSlot_of_mem_scalars⟩,
    Field.hasSlot_of_mem_scalars⟩

/-- Every layout has a slot for each value of a describable job. -/
theorem hasSlot_of_describable
    (layout : JobLayout)
    (describable : job.Describable) :
    ∀ field ∈ layout.fields, field.HasSlot job := by
  cases layout with
  | v01 =>
      exact List.forall_mem_append.mpr
        ⟨hasSlot_early describable, List.forall_mem_singleton.mpr trivial⟩
  | v10 =>
      exact hasSlot_early describable
  | v11 =>
      simp only [fields, List.forall_mem_append]
      exact ⟨⟨hasSlot_laterHead describable, hasSlot_swizzling⟩, hasSlot_laterTail⟩
  | v12 =>
      simp only [fields, List.forall_mem_append]
      exact ⟨⟨⟨hasSlot_laterHead describable, Field.hasSlot_of_mem_scalars⟩, hasSlot_laterTail⟩,
        hasSlot_allHalo⟩

/-- The fields of every layout are registered and fill its width. -/
theorem schema_eq_ok
    (layout : JobLayout) :
    ∃ schema, layout.schema = .ok schema ∧ schema.width = layout.width := by
  cases layout <;> exact ⟨_, rfl, rfl⟩

/--
Every admitted job is written in every layout, whatever the buffer held before.
All slots of the layout are filled, and each one-hot block holds a single one.
-/
theorem writeInto_of_accept
    {ignoreOverhead : Bool}
    {workload : Workload}
    {job : Job}
    {buffer : Array Float32}
    (accepted : Gate.accept ⟨Capability.standard, ignoreOverhead⟩ workload = .ok job)
    (layout : JobLayout)
    (sized : buffer.size = layout.width) :
    ∃ schema result,
      layout.schema = .ok schema ∧
        schema.writeInto job buffer = (result, .ok layout.width) ∧
        result.size = layout.width ∧
        schema.HasUnitBlocks job result := by
  obtain ⟨table, family, admits⟩ := Gate.accept_eq_ok_iff.mp accepted
  have describable := admits.describable rfl
  obtain ⟨schema, registered, width⟩ := schema_eq_ok layout
  obtain ⟨rfl, faultless⟩ := Schema.register_eq_ok registered
  have haveSlots := hasSlot_of_describable layout describable
  have room : layout.width ≤ buffer.size := Nat.le_of_eq sized.symm
  have nothingBehind : buffer.toList.drop layout.width = [] :=
    List.drop_of_length_le (Nat.le_of_eq sized)
  have written := Schema.writeInto_eq haveSlots (width ▸ room)
  rw [width, nothingBehind, List.append_nil] at written
  refine ⟨_, _, registered, written, ?_, Schema.hasUnitBlocks_vector faultless haveSlots⟩
  rw [List.size_toArray, Schema.length_vector, width]

/-- An elementwise product of small floats: its second operand takes the layout of the first. -/
def smallFloatProduct : Workload :=
  let tensor : Tensor := ⟨⟨16, 16, 64, 1⟩, .bf8, .cMajor, false⟩
  .plain .vpu40 .eltwiseMul tensor tensor .cuboid8x16

/-- It is admitted, and written over anything in the latest layout. -/
theorem writeInto_of_smallFloatProduct :
    ∃ job,
      Gate.accept ⟨Capability.standard, true⟩ smallFloatProduct = .ok job ∧
        ∃ schema result,
          latest.schema = .ok schema ∧
            schema.writeInto job (Array.replicate 96 7) = (result, .ok 96) ∧
            result.size = 96 ∧
            schema.HasUnitBlocks job result := by
  have admitted : (Gate.accept ⟨Capability.standard, true⟩ smallFloatProduct).toOption.isSome := by
    decide +kernel
  cases accepted : Gate.accept ⟨Capability.standard, true⟩ smallFloatProduct with
  | error refusal =>
      rw [accepted] at admitted
      contradiction
  | ok job =>
      exact ⟨job, rfl, writeInto_of_accept accepted latest Array.size_replicate⟩

end JobLayout

end Descriptor

end DpuCycles
