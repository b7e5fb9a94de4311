import DpuCycles.Descriptor.Writing

namespace DpuCycles.Descriptor

/-!
# What is written into a buffer

Descriptors are written from the start of a buffer, block after block.  At any
time the slots before the offset are the blocks written so far and the slots
behind it are the ones the buffer had before.
-/

namespace OneHot

theorem length_unitBlock (width slot : Nat) :
    (unitBlock width slot).length = width := by
  simp [unitBlock]

theorem getElem?_unitBlock
    {width slot position : Nat}
    (inside : position < width) :
    (unitBlock width slot)[position]? = some (if position = slot then 1 else 0) := by
  simp [unitBlock, inside]

/-- A map that describes a block has all its slots inside the block. -/
theorem slot_lt_width
    {map : OneHot}
    {index slot : Nat}
    (faultless : map.fault? = none)
    (hasSlot : map.slot? index = some slot) :
    slot < map.width := by
  have listed : slot ∈ map.slots.reduceOption := by
    have present : some slot ∈ map.slots := by
      rw [slot?, List.getD_eq_getElem?_getD] at hasSlot
      cases found : map.slots[index]? with
      | none =>
          rw [found] at hasSlot
          contradiction
      | some entry =>
          rw [found] at hasSlot
          exact List.mem_of_getElem? (found.trans (congrArg some hasSlot))
    exact List.mem_filterMap.mpr ⟨some slot, present, rfl⟩
  unfold fault? at faultless
  split at faultless
  · contradiction
  · split at faultless
    · contradiction
    · rename_i noneOutside
      simpa using List.find?_eq_none.mp noneOutside slot listed

end OneHot

namespace Field

/-- Whether a field has a block for the value of an item. -/
def HasSlot
    (field : Field α)
    (item : α) : Prop :=
  match field.content with
  | .oneHot map index => (map.slot? (index item)).isSome
  | _ => True

theorem length_block
    (field : Field α)
    (item : α) :
    (field.block item).length = field.width := by
  obtain ⟨name, content⟩ := field
  cases content with
  | scalar read =>
      rfl
  | padding count =>
      exact List.length_replicate
  | oneHot map index =>
      dsimp only [block, width]
      split
      · exact OneHot.length_unitBlock map.width _
      · exact List.length_replicate

/-- The blocks of fields have the widths of the fields together. -/
theorem length_blocks
    (fields : List (Field α))
    (item : α) :
    (fields.flatMap fun field => field.block item).length = totalWidth fields := by
  induction fields with
  | nil =>
      rfl
  | cons field rest inductionHypothesis =>
      rw [List.flatMap_cons, List.length_append, field.length_block, inductionHypothesis,
        totalWidth]

/-- A field with a slot for the value writes its block. -/
theorem write_of_hasSlot
    {schema : String}
    {field : Field α}
    {item : α}
    (hasSlot : field.HasSlot item)
    (writer : Writer) :
    field.write schema item writer = writer.append (field.block item) := by
  obtain ⟨name, content⟩ := field
  cases content with
  | scalar read =>
      rfl
  | padding count =>
      rfl
  | oneHot map index =>
      obtain ⟨slot, found⟩ := Option.isSome_iff_exists.mp hasSlot
      simp [write, missing?, found]

/-- The block of a one-hot field with a slot has its single one there. -/
theorem block_oneHot
    {field : Field α}
    {map : OneHot}
    {index : α → Nat}
    {item : α}
    (content : field.content = .oneHot map index)
    (hasSlot : field.HasSlot item) :
    ∃ slot, map.slot? (index item) = some slot ∧
      field.block item = OneHot.unitBlock map.width slot := by
  obtain ⟨name, _⟩ := field
  subst content
  obtain ⟨slot, found⟩ := Option.isSome_iff_exists.mp hasSlot
  exact ⟨slot, found, by simp [block, found]⟩

end Field

namespace Writer

/-- Values written behind some values replace as many of the rest. -/
theorem replace_behind
    (block done rest : List Float32)
    (room : block.length ≤ rest.length) :
    replace (done ++ rest).toArray done.length block =
      (done ++ block ++ rest.drop block.length).toArray := by
  induction block generalizing done rest with
  | nil =>
      simp [replace]
  | cons value others inductionHypothesis =>
      cases rest with
      | nil =>
          simp at room
      | cons first behind =>
          have next := inductionHypothesis (done ++ [value]) behind
            (Nat.le_of_succ_le_succ room)
          rw [replace]
          simpa using next

/-- A writer that has put some values over the front of a buffer. -/
structure Has
    (done : List Float32)
    (original : Array Float32)
    (writer : Writer) : Prop where
  fits : done.length ≤ original.size
  buffer : writer.buffer = (done ++ original.toList.drop done.length).toArray
  offset : writer.offset = done.length

namespace Has

variable
  {done block : List Float32}
  {original : Array Float32}
  {writer : Writer}

theorem start (original : Array Float32) :
    Has [] original ⟨original, 0⟩ :=
  ⟨Nat.zero_le _, by simp, rfl⟩

theorem size_buffer
    (has : Has done original writer) :
    writer.buffer.size = original.size := by
  have fits := has.fits
  have all : original.toList.length = original.size := Array.length_toList
  rw [has.buffer, List.size_toArray, List.length_append, List.length_drop]
  omega

/-- A block that fits is written behind the values before it. -/
theorem append
    (has : Has done original writer)
    (room : done.length + block.length ≤ original.size) :
    ∃ next, writer.append block = .ok next ∧ Has (done ++ block) original next := by
  have left : block.length ≤ (original.toList.drop done.length).length := by
    have all : original.toList.length = original.size := Array.length_toList
    rw [List.length_drop]
    omega
  refine ⟨⟨replace writer.buffer writer.offset block, writer.offset + block.length⟩, ?_, ?_⟩
  · rw [Writer.append, has.size_buffer, has.offset, if_neg (Nat.not_lt.mpr room)]
  · refine ⟨by rwa [List.length_append], ?_, ?_⟩
    · rw [has.buffer, has.offset, replace_behind block done _ left, List.drop_drop,
        List.length_append]
    · rw [has.offset, List.length_append]

end Has

end Writer

namespace Schema

variable {item : α}

/-- Fields with slots and room write their blocks one behind the other. -/
theorem writeFields_has
    {schema : String}
    {fields : List (Field α)}
    {done : List Float32}
    {original : Array Float32}
    {writer : Writer}
    (has : Writer.Has done original writer)
    (haveSlots : ∀ field ∈ fields, field.HasSlot item)
    (room : done.length + Field.totalWidth fields ≤ original.size) :
    ∃ last,
      writeFields schema item fields writer = (last, none) ∧
        Writer.Has (done ++ fields.flatMap fun field => field.block item) original last := by
  induction fields generalizing done writer with
  | nil =>
      exact ⟨writer, rfl, by simpa using has⟩
  | cons field rest inductionHypothesis =>
      obtain ⟨first, others⟩ := List.forall_mem_cons.mp haveSlots
      rw [Field.totalWidth] at room
      have blockRoom : done.length + (field.block item).length ≤ original.size := by
        rw [field.length_block]
        omega
      obtain ⟨next, appended, nextHas⟩ := has.append blockRoom
      obtain ⟨last, written, lastHas⟩ := inductionHypothesis nextHas others
        (by rw [List.length_append, field.length_block]; omega)
      refine ⟨last, ?_, ?_⟩
      · rw [writeFields, Field.write_of_hasSlot first, appended]
        exact written
      · rwa [List.flatMap_cons, ← List.append_assoc]

theorem length_vector
    (schema : Schema α)
    (item : α) :
    (schema.vector item).length = schema.width :=
  Field.length_blocks schema.fields item

/--
With a slot for every value and room for every block, the vector of the item
takes the front of the buffer; what the buffer held there does not show, and the
slots behind it stay.
-/
theorem writeInto_eq
    {schema : Schema α}
    {buffer : Array Float32}
    (haveSlots : ∀ field ∈ schema.fields, field.HasSlot item)
    (room : schema.width ≤ buffer.size) :
    schema.writeInto item buffer =
      ((schema.vector item ++ buffer.toList.drop schema.width).toArray, .ok schema.width) := by
  obtain ⟨last, written, has⟩ :
      ∃ last,
        writeFields schema.name item schema.fields ⟨buffer, 0⟩ = (last, none) ∧
          Writer.Has ([] ++ schema.vector item) buffer last :=
    writeFields_has (.start buffer) haveSlots (by simpa [width] using room)
  have length : (([] : List Float32) ++ schema.vector item).length = schema.width :=
    schema.length_vector item
  rw [writeInto, written]
  dsimp only
  rw [has.buffer, has.offset]
  exact congrArg
    (fun length =>
      ((schema.vector item ++ buffer.toList.drop length).toArray, Except.ok length)) length

/-- The block of a field stands in the vector behind the blocks of the fields before it. -/
theorem getElem?_vector
    {schema : Schema α}
    {before after : List (Field α)}
    {field : Field α}
    {position : Nat}
    (fields : schema.fields = before ++ field :: after)
    (inside : position < field.width) :
    (schema.vector item)[Field.totalWidth before + position]? =
      (field.block item)[position]? := by
  rw [vector, fields, List.flatMap_append, List.flatMap_cons, ← Field.length_blocks before item,
    List.getElem?_append_right (Nat.le_add_right _ _), Nat.add_sub_cancel_left,
    List.getElem?_append_left (by rwa [field.length_block])]

/-- A registered schema has the given name and fields, and all of them describe blocks. -/
theorem register_eq_ok
    {name : String}
    {fields : List (Field α)}
    {schema : Schema α}
    (registered : register name fields = .ok schema) :
    schema = ⟨name, fields⟩ ∧ ∀ field ∈ fields, field.fault? = none := by
  induction fields generalizing schema with
  | nil =>
      rw [register, Except.ok.injEq] at registered
      exact ⟨registered.symm, by simp⟩
  | cons field rest inductionHypothesis =>
      rw [register] at registered
      split at registered
      · contradiction
      · rename_i faultless
        cases others : register name rest with
        | error fault =>
            rw [others] at registered
            contradiction
        | ok known =>
            obtain ⟨rfl, faultlessRest⟩ := inductionHypothesis others
            rw [others] at registered
            exact ⟨(Except.ok.inj registered).symm,
              List.forall_mem_cons.mpr ⟨faultless, faultlessRest⟩⟩

/-- Each one-hot block of a result holds a single one, at the slot of the value of the item. -/
def HasUnitBlocks
    (schema : Schema α)
    (item : α)
    (result : Array Float32) : Prop :=
  ∀ before field after map index,
    schema.fields = before ++ field :: after →
    field.content = .oneHot map index →
    ∃ slot,
      map.slot? (index item) = some slot ∧
        slot < map.width ∧
        ∀ position < map.width,
          result[Field.totalWidth before + position]? =
            some (if position = slot then 1 else 0)

/-- The vector of an item has the blocks of all its values. -/
theorem hasUnitBlocks_vector
    {schema : Schema α}
    (faultless : ∀ field ∈ schema.fields, field.fault? = none)
    (haveSlots : ∀ field ∈ schema.fields, field.HasSlot item) :
    schema.HasUnitBlocks item (schema.vector item).toArray := by
  intro before field after map index fields content
  have member : field ∈ schema.fields := by
    simp [fields]
  have width : field.width = map.width := by
    simp [Field.width, content]
  have mapFaultless : map.fault? = none := by
    simpa [Field.fault?, content] using faultless field member
  obtain ⟨slot, isSlot, block⟩ := Field.block_oneHot content (haveSlots field member)
  refine ⟨slot, isSlot, OneHot.slot_lt_width mapFaultless isSlot, ?_⟩
  intro position inside
  rw [List.getElem?_toArray, getElem?_vector fields (width ▸ inside), block]
  exact OneHot.getElem?_unitBlock inside

end Schema

end DpuCycles.Descriptor
