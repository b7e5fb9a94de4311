import DpuCycles.Descriptor.Schema

namespace DpuCycles.Descriptor

/-!
# Writing descriptors into a buffer

Fields are written one after another from the start of a buffer.  Writing stops
at the first field that has no slot for its value or does not fit; the fields
before it stay written and everything behind them is untouched.
-/

/-- Why writing stopped. -/
inductive WritingFault where
  | noSlot (domain : String) (index : Nat) (field schema : String)
  | overflow (slots offset capacity : Nat)
  deriving Repr, DecidableEq

namespace WritingFault

/-- Text of a fault. -/
def message : WritingFault → String
  | .noSlot domain index field schema =>
      domain ++ " value #" ++ toString index ++ " has no slot in field '" ++ field ++
        "' of schema '" ++ schema ++ "'"
  | .overflow slots offset capacity =>
      "feature vector overflow: " ++ toString slots ++ " slots at offset " ++ toString offset ++
        " exceed capacity " ++ toString capacity

end WritingFault

/-- A buffer with the number of slots written so far. -/
structure Writer where
  buffer : Array Float32
  offset : Nat
  deriving Repr

namespace Writer

/-- Replace the slots of a buffer from a position on. -/
def replace
    (buffer : Array Float32)
    (position : Nat) :
    List Float32 → Array Float32
  | [] => buffer
  | value :: rest => replace (buffer.setIfInBounds position value) (position + 1) rest

/-- Write a block at the offset. -/
def append
    (writer : Writer)
    (block : List Float32) : Except WritingFault Writer :=
  let next := writer.offset + block.length
  if writer.buffer.size < next then
    .error (.overflow block.length writer.offset writer.buffer.size)
  else
    .ok ⟨replace writer.buffer writer.offset block, next⟩

end Writer

namespace Field

/-- Why an item has no block in a field. -/
def missing?
    (schema : String)
    (field : Field α)
    (item : α) : Option WritingFault :=
  match field.content with
  | .oneHot map index =>
      match map.slot? (index item) with
      | some _ => none
      | none => some (.noSlot map.domain (index item) field.name schema)
  | _ => none

/-- Write the block of an item. -/
def write
    (schema : String)
    (field : Field α)
    (item : α)
    (writer : Writer) : Except WritingFault Writer :=
  match field.missing? schema item with
  | some fault => .error fault
  | none => writer.append (field.block item)

end Field

namespace Schema

/-- Write fields until one of them fails; the writer keeps what was written. -/
def writeFields
    (schema : String)
    (item : α) :
    List (Field α) → Writer → Writer × Option WritingFault
  | [], writer => (writer, none)
  | field :: rest, writer =>
      match field.write schema item writer with
      | .ok next => writeFields schema item rest next
      | .error fault => (writer, some fault)

/-- Write a descriptor from the start of a buffer and count the slots written. -/
def writeInto
    (schema : Schema α)
    (item : α)
    (buffer : Array Float32) : Array Float32 × Except WritingFault Nat :=
  match writeFields schema.name item schema.fields ⟨buffer, 0⟩ with
  | (writer, none) => (writer.buffer, .ok writer.offset)
  | (writer, some fault) => (writer.buffer, .error fault)

/-- Move an offset over the blocks of fields without writing any of them. -/
def countFields : List (Field α) → Nat → Nat
  | [], offset => offset
  | field :: rest, offset => countFields rest (offset + field.width)

/-- Slots that writing would fill, counted without a buffer.  The item does not matter. -/
def simulate
    (schema : Schema α)
    (_item : α) : Nat :=
  countFields schema.fields 0

/-- A descriptor in a buffer of its own. -/
def encode
    (schema : Schema α)
    (item : α) : Except WritingFault (Array Float32) :=
  match schema.writeInto item (Array.replicate schema.width 0) with
  | (buffer, .ok _) => .ok buffer
  | (_, .error fault) => .error fault

end Schema

end DpuCycles.Descriptor
