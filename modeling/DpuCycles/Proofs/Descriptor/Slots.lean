import DpuCycles.Element
import DpuCycles.Proofs.Descriptor.Encoding

namespace DpuCycles.Descriptor

/-!
# Descriptors slot by slot

One walk over the fields both counts and writes.  Without a buffer it only moves on;
with one it fills the slots of each block and then stores a value in one of them, an
access that is checked against the width of the block.

A walk over a registered schema never leaves a block.  It stops only at a field that
has no slot for its value or no room in the buffer.  By then the blocks of the fields
before it are written, and all that is behind them is as it was.
-/

/-- Why a walk stops: a reason of writing, or an access outside of a block. -/
inductive Stop where
  | writing (fault : WritingFault)
  | outside (slot width : Nat)
  deriving Repr, DecidableEq

/-- The end of the last block in a buffer, or only the number of slots so far. -/
structure Cursor where
  buffer? : Option (Array Float32)
  offset : Nat

namespace Cursor

/-- The place of a writer. -/
def ofWriter (writer : Writer) : Cursor :=
  ⟨some writer.buffer, writer.offset⟩

/-- Move over a block, which a buffer must have room for. -/
def reserve
    (cursor : Cursor)
    (count : Nat) : Except Stop Cursor :=
  let next := cursor.offset + count
  match cursor.buffer? with
  | none => .ok ⟨none, next⟩
  | some buffer =>
      if buffer.size < next then
        .error (.writing (.overflow count cursor.offset buffer.size))
      else
        .ok ⟨some buffer, next⟩

/-- Set all slots of the last block to zero. -/
def clear
    (cursor : Cursor)
    (width : Nat) : Cursor :=
  { cursor with
    buffer? := cursor.buffer?.map fun buffer =>
      Writer.replace buffer (cursor.offset - width) (List.replicate width 0) }

/-- A block of zeros. -/
def zeros
    (cursor : Cursor)
    (count : Nat) : Except Stop Cursor :=
  (cursor.reserve count).bind fun next => .ok (next.clear count)

/-- Store a value in a slot of the last block. -/
def store
    (cursor : Cursor)
    (width slot : Nat)
    (value : Float32) : Except Stop Cursor :=
  if slot < width then
    .ok
      { cursor with
        buffer? := cursor.buffer?.map fun buffer =>
          buffer.setIfInBounds (cursor.offset - width + slot) value }
  else
    .error (.outside slot width)

end Cursor

namespace Field

/-- Write the block of an item, or move over it when there is no buffer. -/
def walk
    (schema : String)
    (field : Field α)
    (item : α)
    (cursor : Cursor) : Except Stop Cursor :=
  match field.content with
  | .scalar read =>
      (cursor.reserve 1).bind fun next =>
        next.store 1 0 (if cursor.buffer?.isNone then 0 else read item)
  | .padding count => cursor.zeros count
  | .oneHot map index =>
      if cursor.buffer?.isNone then
        cursor.zeros map.width
      else
        match map.slot? (index item) with
        | none => .error (.writing (.noSlot map.domain (index item) field.name schema))
        | some slot =>
            (cursor.reserve map.width).bind fun next =>
              (next.clear map.width).store map.width slot 1

end Field

namespace Schema

/-- Walk over fields until one of them stops the walk. -/
def walk
    (schema : String)
    (item : α) :
    List (Field α) → Cursor → Cursor × Option Stop
  | [], cursor => (cursor, none)
  | field :: rest, cursor =>
      match field.walk schema item cursor with
      | .ok next => walk schema item rest next
      | .error stop => (cursor, some stop)

/-- Walk over a schema from the start of a buffer, or without one, and count the slots. -/
def run
    (schema : Schema α)
    (item : α)
    (buffer? : Option (Array Float32)) : Option (Array Float32) × Except Stop Nat :=
  match walk schema.name item schema.fields ⟨buffer?, 0⟩ with
  | (cursor, none) => (cursor.buffer?, .ok cursor.offset)
  | (cursor, some stop) => (cursor.buffer?, .error stop)

end Schema

section Counting

variable {item : α}

theorem Schema.countFields_eq
    (fields : List (Field α))
    (offset : Nat) :
    Schema.countFields fields offset = offset + Field.totalWidth fields := by
  induction fields generalizing offset with
  | nil =>
      rfl
  | cons field rest inductionHypothesis =>
      rw [Schema.countFields, inductionHypothesis, Field.totalWidth, Nat.add_assoc]

/-- Without a buffer a field only moves on by its width. -/
theorem Field.walk_counting
    (schema : String)
    (field : Field α)
    (offset : Nat) :
    field.walk schema item ⟨none, offset⟩ = .ok ⟨none, offset + field.width⟩ := by
  obtain ⟨name, content⟩ := field
  cases content <;> rfl

/-- Without a buffer a walk gets to the end, whatever the item. -/
theorem Schema.walk_counting
    (schema : String)
    (fields : List (Field α))
    (offset : Nat) :
    Schema.walk schema item fields ⟨none, offset⟩ =
      (⟨none, Schema.countFields fields offset⟩, none) := by
  induction fields generalizing offset with
  | nil =>
      rfl
  | cons field rest inductionHypothesis =>
      rw [Schema.walk, Field.walk_counting]
      exact inductionHypothesis (offset + field.width)

/-- What is counted is the width of the schema, and counting does not stop. -/
theorem Schema.run_none
    (schema : Schema α)
    (item : α) :
    schema.simulate item = schema.width ∧ schema.run item none = (none, .ok schema.width) := by
  have counted : schema.simulate item = schema.width :=
    (Schema.countFields_eq schema.fields 0).trans (Nat.zero_add _)
  refine ⟨counted, ?_⟩
  rw [Schema.run, Schema.walk_counting]
  exact congrArg (fun slots => (none, Except.ok slots)) counted

end Counting

section Blocks

/-- A block with a single one is a cleared block with a one stored in it. -/
theorem OneHot.unitBlock_eq_set
    (width slot : Nat) :
    OneHot.unitBlock width slot = (List.replicate width 0).set slot 1 := by
  refine List.ext_getElem? fun position => ?_
  by_cases inside : position < width
  · rw [OneHot.getElem?_unitBlock inside, List.getElem?_set]
    by_cases same : slot = position
    · simp [same, inside]
    · simp [same, inside, Ne.symm same]
  · rw [List.getElem?_eq_none (by rw [OneHot.length_unitBlock]; omega),
      List.getElem?_eq_none (by rw [List.length_set, List.length_replicate]; omega)]

/-- Clearing a block and storing a one in it writes the block with that single one. -/
theorem Writer.replace_unitBlock
    {buffer : Array Float32}
    {offset width slot : Nat}
    (room : offset + width ≤ buffer.size)
    (inside : slot < width) :
    (Writer.replace buffer offset (List.replicate width 0)).setIfInBounds (offset + slot) 1 =
      Writer.replace buffer offset (OneHot.unitBlock width slot) := by
  obtain ⟨before, rest, rfl, length⟩ :
      ∃ before rest : List Float32, buffer = (before ++ rest).toArray ∧ before.length = offset := by
    refine ⟨buffer.toList.take offset, buffer.toList.drop offset, by simp, ?_⟩
    rw [List.length_take, Array.length_toList]
    omega
  subst length
  have left : width ≤ rest.length := by
    rw [List.size_toArray, List.length_append] at room
    omega
  rw [Writer.replace_behind _ before rest (by rwa [List.length_replicate]),
    Writer.replace_behind _ before rest (by rwa [OneHot.length_unitBlock]),
    OneHot.unitBlock_eq_set, List.setIfInBounds_toArray, List.append_assoc,
    List.set_append_right _ _ (Nat.le_add_right _ _), Nat.add_sub_cancel_left,
    List.set_append_left _ _ (by rwa [List.length_replicate]), List.append_assoc,
    List.length_set]

/-- A block that is reserved in a buffer. -/
theorem Cursor.reserve_ofWriter
    (writer : Writer)
    (count : Nat) :
    (Cursor.ofWriter writer).reserve count =
      if writer.buffer.size < writer.offset + count then
        .error (.writing (.overflow count writer.offset writer.buffer.size))
      else
        .ok ⟨some writer.buffer, writer.offset + count⟩ :=
  rfl

/-- A block that is reserved and then filled in is appended. -/
theorem Cursor.bind_reserve
    {writer : Writer}
    {block : List Float32}
    {count : Nat}
    {fill : Cursor → Except Stop Cursor}
    (sized : block.length = count)
    (filled : writer.offset + count ≤ writer.buffer.size →
      fill ⟨some writer.buffer, writer.offset + count⟩ =
        .ok ⟨some (Writer.replace writer.buffer writer.offset block), writer.offset + count⟩) :
    ((Cursor.ofWriter writer).reserve count).bind fill =
      ((writer.append block).map Cursor.ofWriter).mapError Stop.writing := by
  subst sized
  rw [Cursor.reserve_ofWriter, Writer.append]
  split
  · rfl
  · rename_i room
    exact filled (Nat.not_lt.mp room)

/-- In a buffer a faultless field is walked over as its block is written. -/
theorem Field.walk_ofWriter
    {schema : String}
    {field : Field α}
    {item : α}
    (faultless : field.fault? = none)
    (writer : Writer) :
    field.walk schema item (.ofWriter writer) =
      ((field.write schema item writer).map Cursor.ofWriter).mapError Stop.writing := by
  obtain ⟨name, content⟩ := field
  cases content with
  | scalar read =>
      have sized : [read item].length = 1 := rfl
      refine Cursor.bind_reserve sized fun _ => ?_
      simp [Cursor.store, Cursor.ofWriter, Writer.replace, block]
  | padding count =>
      have sized : (List.replicate count (0 : Float32)).length = count := List.length_replicate
      refine Cursor.bind_reserve sized fun _ => ?_
      simp [Cursor.clear, block]
  | oneHot map index =>
      cases found : map.slot? (index item) with
      | none =>
          have walked :
              (⟨name, .oneHot map index⟩ : Field α).walk schema item (.ofWriter writer) =
                .error (.writing (.noSlot map.domain (index item) name schema)) := by
            simp [walk, found, Cursor.ofWriter]
          have written :
              (⟨name, .oneHot map index⟩ : Field α).write schema item writer =
                .error (.noSlot map.domain (index item) name schema) := by
            simp [write, missing?, found]
          rw [walked, written]
          rfl
      | some slot =>
          have inside : slot < map.width := OneHot.slot_lt_width faultless found
          have walked :
              (⟨name, .oneHot map index⟩ : Field α).walk schema item (.ofWriter writer) =
                ((Cursor.ofWriter writer).reserve map.width).bind fun next =>
                  (next.clear map.width).store map.width slot 1 := by
            simp [walk, found, Cursor.ofWriter]
          have written :
              (⟨name, .oneHot map index⟩ : Field α).write schema item writer =
                writer.append (OneHot.unitBlock map.width slot) := by
            simp [write, missing?, block, found]
          rw [walked, written]
          refine Cursor.bind_reserve (OneHot.length_unitBlock map.width slot) fun room => ?_
          simp [Cursor.clear, Cursor.store, inside, Writer.replace_unitBlock room inside]

/-- In a buffer faultless fields are walked over as they are written, to the same end. -/
theorem Schema.walk_ofWriter
    (schema : String)
    (item : α)
    {fields : List (Field α)}
    (faultless : ∀ field ∈ fields, field.fault? = none)
    (writer : Writer) :
    Schema.walk schema item fields (.ofWriter writer) =
      (.ofWriter (Schema.writeFields schema item fields writer).1,
        (Schema.writeFields schema item fields writer).2.map Stop.writing) := by
  induction fields generalizing writer with
  | nil =>
      rfl
  | cons field rest inductionHypothesis =>
      obtain ⟨first, others⟩ := List.forall_mem_cons.mp faultless
      rw [Schema.walk, Field.walk_ofWriter first, Schema.writeFields]
      cases field.write schema item writer with
      | error fault =>
          rfl
      | ok next =>
          exact inductionHypothesis others next

/-- A walk over a faultless schema writes what is written block by block. -/
theorem Schema.run_some
    {schema : Schema α}
    (faultless : ∀ field ∈ schema.fields, field.fault? = none)
    (item : α)
    (buffer : Array Float32) :
    schema.run item (some buffer) =
      (some (schema.writeInto item buffer).1,
        (schema.writeInto item buffer).2.mapError Stop.writing) := by
  have walked := Schema.walk_ofWriter schema.name item faultless ⟨buffer, 0⟩
  rw [Cursor.ofWriter] at walked
  rw [Schema.run, walked, Schema.writeInto]
  rcases Schema.writeFields schema.name item schema.fields ⟨buffer, 0⟩ with ⟨last, _ | fault⟩ <;>
    rfl

end Blocks

section Stopping

/-- Why a field is not written behind some slots of a buffer. -/
inductive Field.Refused
    (schema : String)
    (field : Field α)
    (item : α)
    (offset size : Nat) :
    WritingFault → Prop where
  | unmapped
      {map : OneHot}
      {index : α → Nat} :
      field.content = .oneHot map index →
      map.slot? (index item) = none →
      Refused schema field item offset size
        (.noSlot map.domain (index item) field.name schema)
  | full :
      field.HasSlot item →
      size < offset + field.width →
      Refused schema field item offset size (.overflow field.width offset size)

variable
  {schema : String}
  {field : Field α}
  {item : α}
  {done : List Float32}
  {original : Array Float32}
  {writer : Writer}

/-- A field that is refused writes nothing. -/
theorem Field.Refused.write_eq
    {fault : WritingFault}
    (refused : field.Refused schema item done.length original.size fault)
    (has : Writer.Has done original writer) :
    field.write schema item writer = .error fault := by
  cases refused with
  | unmapped content unmapped =>
      simp [write, missing?, content, unmapped]
  | full hasSlot beyond =>
      rw [write_of_hasSlot hasSlot, Writer.append, field.length_block, has.size_buffer, has.offset,
        if_pos beyond]

/-- A field without a slot has none for its value. -/
theorem Field.refused_of_not_hasSlot
    (offset size : Nat)
    (noSlot : ¬field.HasSlot item) :
    ∃ fault, field.Refused schema item offset size fault := by
  obtain ⟨name, content⟩ := field
  cases content with
  | scalar read =>
      exact absurd trivial noSlot
  | padding count =>
      exact absurd trivial noSlot
  | oneHot map index =>
      exact ⟨_, .unmapped rfl (Option.not_isSome_iff_eq_none.mp noSlot)⟩

/--
Writing fields stops at the first one that is refused.  The blocks of those before it
are written, and nothing is behind them.
-/
def Schema.Stops
    (schema : String)
    (item : α)
    (fields : List (Field α))
    (done : List Float32)
    (original : Array Float32)
    (writer : Writer) : Prop :=
  ∃ before field after fault last,
    fields = before ++ field :: after ∧
      (∀ earlier ∈ before, earlier.HasSlot item) ∧
      field.Refused schema item (done.length + Field.totalWidth before) original.size fault ∧
      writeFields schema item fields writer = (last, some fault) ∧
      Writer.Has (done ++ before.flatMap fun earlier => earlier.block item) original last

namespace Schema.Stops

variable {rest : List (Field α)}

/-- Writing stops at a first field that is refused. -/
theorem first
    (has : Writer.Has done original writer)
    (refused : ∃ fault, field.Refused schema item done.length original.size fault) :
    Stops schema item (field :: rest) done original writer := by
  obtain ⟨fault, refused⟩ := refused
  refine ⟨[], field, rest, fault, writer, rfl, by simp, refused, ?_, by simpa using has⟩
  rw [writeFields, refused.write_eq has]

/-- Writing stops behind a first field that is written. -/
theorem cons
    {next : Writer}
    (hasSlot : field.HasSlot item)
    (appended : writer.append (field.block item) = .ok next)
    (stops : Stops schema item rest (done ++ field.block item) original next) :
    Stops schema item (field :: rest) done original writer := by
  obtain ⟨before, stopping, after, fault, last, rfl, slots, refused, written, has⟩ := stops
  refine ⟨field :: before, stopping, after, fault, last, rfl,
    List.forall_mem_cons.mpr ⟨hasSlot, slots⟩, ?_, ?_, ?_⟩
  · rwa [Field.totalWidth, ← field.length_block item, ← Nat.add_assoc, ← List.length_append]
  · rw [writeFields, Field.write_of_hasSlot hasSlot, appended]
    exact written
  · rwa [List.flatMap_cons, ← List.append_assoc]

end Schema.Stops

/-- Fields that do not all have a slot and room are not all written. -/
theorem Schema.writeFields_stops
    {fields : List (Field α)}
    (has : Writer.Has done original writer)
    (notAll : ¬((∀ field ∈ fields, field.HasSlot item) ∧
      done.length + Field.totalWidth fields ≤ original.size)) :
    Stops schema item fields done original writer := by
  induction fields generalizing done writer with
  | nil =>
      exact absurd ⟨by simp, has.fits⟩ notAll
  | cons field rest inductionHypothesis =>
      by_cases hasSlot : field.HasSlot item
      · by_cases room : done.length + field.width ≤ original.size
        · have blockFits : done.length + (field.block item).length ≤ original.size := by
            rwa [field.length_block]
          obtain ⟨next, appended, nextHas⟩ := has.append blockFits
          refine .cons hasSlot appended (inductionHypothesis nextHas ?_)
          rintro ⟨slots, fits⟩
          refine notAll ⟨List.forall_mem_cons.mpr ⟨hasSlot, slots⟩, ?_⟩
          rwa [List.length_append, field.length_block, Nat.add_assoc] at fits
        · exact .first has ⟨_, .full hasSlot (Nat.not_le.mp room)⟩
      · exact .first has (Field.refused_of_not_hasSlot _ _ hasSlot)

end Stopping

namespace Schema

/--
A registered schema counts its width, whatever the item, and the one of no block
stands outside of it.  If every value has a slot and the buffer has room, the blocks
of the fields take the front of the buffer and the rest of it stays.  Otherwise
writing stops at the first field without a slot or room, behind the blocks of the
fields before it.  All this is what a walk does that stores slot by slot.
-/
theorem run_of_register
    {name : String}
    {fields : List (Field α)}
    {schema : Schema α}
    (registered : register name fields = .ok schema)
    (item : α) :
    schema.simulate item = schema.width ∧
      schema.run item none = (none, .ok schema.width) ∧
      (∀ field ∈ fields, ∀ map index,
        field.content = .oneHot map index →
          ∀ value slot, map.slot? value = some slot → slot < map.width) ∧
      ∀ buffer : Array Float32,
        schema.run item (some buffer) =
            (some (schema.writeInto item buffer).1,
              (schema.writeInto item buffer).2.mapError Stop.writing) ∧
          ((∀ field ∈ fields, field.HasSlot item) ∧ schema.width ≤ buffer.size →
            schema.writeInto item buffer =
              ((schema.vector item ++ buffer.toList.drop schema.width).toArray,
                .ok schema.width)) ∧
          (¬((∀ field ∈ fields, field.HasSlot item) ∧ schema.width ≤ buffer.size) →
            ∃ before field after fault,
              fields = before ++ field :: after ∧
                (∀ earlier ∈ before, earlier.HasSlot item) ∧
                Field.totalWidth before ≤ buffer.size ∧
                field.Refused name item (Field.totalWidth before) buffer.size fault ∧
                schema.writeInto item buffer =
                  (((before.flatMap fun earlier => earlier.block item) ++
                      buffer.toList.drop (Field.totalWidth before)).toArray,
                    .error fault)) := by
  obtain ⟨rfl, faultless⟩ := register_eq_ok registered
  obtain ⟨counted, counting⟩ := run_none ⟨name, fields⟩ item
  refine ⟨counted, counting, ?_, fun buffer => ⟨run_some faultless item buffer, ?_, ?_⟩⟩
  · intro field member map index content value slot hasSlot
    have mapFaultless : map.fault? = none := by
      simpa [Field.fault?, content] using faultless field member
    exact OneHot.slot_lt_width mapFaultless hasSlot
  · rintro ⟨haveSlots, room⟩
    exact writeInto_eq haveSlots room
  · intro notAll
    have start := Writer.Has.start buffer
    obtain ⟨before, field, after, fault, last, rfl, slots, refused, written, has⟩ :
        Stops name item fields [] buffer ⟨buffer, 0⟩ :=
      writeFields_stops start (by simpa [width] using notAll)
    rw [List.length_nil, Nat.zero_add] at refused
    rw [List.nil_append] at has
    have length := Field.length_blocks before item
    refine ⟨before, field, after, fault, rfl, slots, length ▸ has.fits, refused, ?_⟩
    rw [writeInto, written]
    dsimp only
    rw [has.buffer, length]

/-- A number, one of two types and two reserved slots. -/
def smallFields : List (Field (Float32 × DataType)) :=
  [.scalar "value" Prod.fst, .oneHot "dtype" (.subset [DataType.uint8, .float16]) Prod.snd,
    .padding "reserved" 2]

/-- They are written over five of eight slots; four slots are too few, and some type has none. -/
theorem run_of_smallFields :
    let schema : Schema (Float32 × DataType) := ⟨"small", smallFields⟩
    register "small" smallFields = .ok schema ∧
      schema.simulate (7, .float16) = 5 ∧
      (∀ field ∈ smallFields, field.HasSlot (7, .float16)) ∧
      schema.writeInto (7, .float16) (Array.replicate 8 9) =
        ((schema.vector (7, .float16) ++ List.replicate 3 9).toArray, .ok 5) ∧
      (∃ fault, (schema.writeInto (7, .float16) (Array.replicate 4 9)).2 = .error fault) ∧
      ∃ fault, (schema.writeInto (7, .int4) (Array.replicate 8 9)).2 = .error fault := by
  intro schema
  have registered : register "small" smallFields = .ok schema := rfl
  obtain ⟨counted, _, _, floats⟩ := run_of_register registered (7, .float16)
  obtain ⟨_, _, _, integers⟩ := run_of_register registered (7, .int4)
  have haveSlots : ∀ field ∈ smallFields, field.HasSlot (7, .float16) := by
    simp only [smallFields, List.forall_mem_cons]
    exact ⟨trivial, rfl, trivial, nofun⟩
  have hasNone : ¬∀ field ∈ smallFields, field.HasSlot (7, .int4) := by
    simp only [smallFields, List.forall_mem_cons]
    exact fun ⟨_, integer, _⟩ => Bool.false_ne_true integer
  refine ⟨registered, counted, haveSlots, ?_, ?_, ?_⟩
  · exact (floats (Array.replicate 8 9)).2.1 ⟨haveSlots, by decide⟩
  · obtain ⟨_, _, _, fault, _, _, _, _, written⟩ :=
      (floats (Array.replicate 4 9)).2.2 fun all => absurd all.2 (by decide)
    exact ⟨fault, congrArg Prod.snd written⟩
  · obtain ⟨_, _, _, fault, _, _, _, _, written⟩ :=
      (integers (Array.replicate 8 9)).2.2 fun all => hasNone all.1
    exact ⟨fault, congrArg Prod.snd written⟩

end Schema

end DpuCycles.Descriptor
