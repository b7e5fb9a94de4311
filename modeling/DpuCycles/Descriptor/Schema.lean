import DpuCycles.Descriptor.OneHot

namespace DpuCycles.Descriptor

/-!
# Schemas

A schema is an ordered list of fields.  Each field fills a block of fixed width,
so an item becomes a vector of fixed width: the blocks of its fields one after
another.
-/

/-- What a field writes. -/
inductive Content (α : Type) where
  | scalar (read : α → Float32)
  | oneHot (map : OneHot) (index : α → Nat)
  /-- Reserved zeros. -/
  | padding (count : Nat)

/-- A named field. -/
structure Field (α : Type) where
  name : String
  content : Content α

namespace Field

/-- A field with one number. -/
def scalar
    (name : String)
    (read : α → Float32) : Field α :=
  ⟨name, .scalar read⟩

/-- A field with a one-hot block. -/
def oneHot
    [DecidableEq β]
    [Enumerated β]
    (name : String)
    (map : OneHot)
    (read : α → β) : Field α :=
  ⟨name, .oneHot map fun item => Enumerated.index (read item)⟩

/-- A field of reserved zeros. -/
def padding
    (name : String)
    (count : Nat) : Field α :=
  ⟨name, .padding count⟩

/-- One numbered scalar field for each number that is read. -/
def scalars
    (name : String)
    (reads : List (α → Float32)) : List (Field α) :=
  reads.zipIdx.map fun (read, position) =>
    scalar (name ++ "[" ++ toString position ++ "]") read

/-- Slots a field fills. -/
def width (field : Field α) : Nat :=
  match field.content with
  | .scalar _ => 1
  | .oneHot map _ => map.width
  | .padding count => count

/--
Slots that fields fill together.  A count stands for a word of 64 bits here, as no fields
of a descriptor come near 2 ^ 64 slots.
-/
def totalWidth : List (Field α) → Nat
  | [] => 0
  | field :: rest => field.width + totalWidth rest

/-- What a field writes for an item; a value without a slot leaves its block zero. -/
def block
    (field : Field α)
    (item : α) : List Float32 :=
  match field.content with
  | .scalar read => [read item]
  | .oneHot map index =>
      match map.slot? (index item) with
      | some slot => OneHot.unitBlock map.width slot
      | none => List.replicate map.width 0
  | .padding count => List.replicate count 0

/-- Why the field describes no block. -/
def fault? (field : Field α) : Option OneHotFault :=
  match field.content with
  | .oneHot map _ => map.fault?
  | _ => none

end Field

/-- A field that cannot be registered. -/
structure SchemaFault where
  schema : String
  field : String
  fault : OneHotFault
  deriving Repr, DecidableEq

namespace SchemaFault

/-- Text of a fault. -/
def message (fault : SchemaFault) : String :=
  fault.schema ++ " / " ++ fault.field ++ ": " ++ fault.fault.message

end SchemaFault

/-- A named list of fields. -/
structure Schema (α : Type) where
  name : String
  fields : List (Field α)

namespace Schema

/-- A schema whose fields all describe blocks; otherwise the first one that does not. -/
def register
    (name : String) :
    List (Field α) → Except SchemaFault (Schema α)
  | [] => .ok ⟨name, []⟩
  | field :: rest =>
      match field.fault? with
      | some fault => .error ⟨name, field.name, fault⟩
      | none => (register name rest).map fun schema => ⟨name, field :: schema.fields⟩

/-- Slots all fields fill together. -/
def width (schema : Schema α) : Nat :=
  Field.totalWidth schema.fields

/-- The blocks of all fields one after another. -/
def vector
    (schema : Schema α)
    (item : α) : List Float32 :=
  schema.fields.flatMap fun field => field.block item

end Schema

end DpuCycles.Descriptor
