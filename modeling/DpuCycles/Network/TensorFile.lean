import DpuCycles.Enumerated
import DpuCycles.Json.Reader
import DpuCycles.Json.Writer
import DpuCycles.Number.Bytes

namespace DpuCycles.Network

/-!
# Files of tensors

A file starts with the length of its header in eight bytes.  The header is a JSON
object with the type, the extents and the place of every tensor, and with named
texts under a key of their own.  The numbers of the tensors follow without gaps.
-/

/-- Types a file may store. -/
inductive StoredType where
  | bool
  | u8
  | i8
  | f8e5m2
  | f8e4m3
  | i16
  | u16
  | f16
  | bf16
  | i32
  | u32
  | f32
  | f64
  | i64
  | u64
  deriving Repr, DecidableEq

namespace StoredType

instance : Enumerated StoredType where
  domain := "Dtype"
  values := [.bool, .u8, .i8, .f8e5m2, .f8e4m3, .i16, .u16, .f16, .bf16, .i32, .u32, .f32, .f64,
    .i64, .u64]
  label
    | .bool => "BOOL"
    | .u8 => "U8"
    | .i8 => "I8"
    | .f8e5m2 => "F8_E5M2"
    | .f8e4m3 => "F8_E4M3"
    | .i16 => "I16"
    | .u16 => "U16"
    | .f16 => "F16"
    | .bf16 => "BF16"
    | .i32 => "I32"
    | .u32 => "U32"
    | .f32 => "F32"
    | .f64 => "F64"
    | .i64 => "I64"
    | .u64 => "U64"

/-- Bytes of one stored number. -/
def bytes : StoredType → Nat
  | .bool => 1
  | .u8 => 1
  | .i8 => 1
  | .f8e5m2 => 1
  | .f8e4m3 => 1
  | .i16 => 2
  | .u16 => 2
  | .f16 => 2
  | .bf16 => 2
  | .i32 => 4
  | .u32 => 4
  | .f32 => 4
  | .f64 => 8
  | .i64 => 8
  | .u64 => 8

end StoredType

/-- One tensor of a file: its name, its numbers, and the bytes they take. -/
structure Entry where
  name : String
  dtype : StoredType
  shape : List Nat
  start : Nat
  stop : Nat
  deriving Repr, DecidableEq

namespace Entry

/-- A product that fits 64 bits, multiplied from the left. -/
def boundedProduct?
    (product : Nat) :
    List Nat → Option Nat
  | [] => some product
  | extent :: rest =>
      if product * extent ≤ Text.greatest64 then
        boundedProduct? (product * extent) rest
      else
        none

/-- Bytes that the type and the extents call for. -/
def size? (entry : Entry) : Option Nat :=
  (boundedProduct? 1 entry.shape).bind fun count =>
    boundedProduct? count [entry.dtype.bytes]

/-- A pair of offsets. -/
def offsets? : Json → Option (Nat × Nat)
  | .array [start, stop] =>
      match start.natural? Text.greatest64, stop.natural? Text.greatest64 with
      | some start, some stop => some (start, stop)
      | _, _ => none
  | _ => none

/-- A list of extents. -/
def shape? (value : Json) : Option (List Nat) :=
  value.items?.bind fun items => items.mapM (Json.natural? Text.greatest64)

/-- Labels of the fields of an entry. -/
def labels : List String := ["dtype", "shape", "data_offsets"]

/-- The entry a JSON value writes. -/
def ofJson?
    (name : String)
    (value : Json) : Option Entry :=
  match Json.record? labels value with
  | some [some dtype, some shape, some offsets] =>
      match dtype.alternative?.bind Enumerated.ofLabel?, shape? shape, offsets? offsets with
      | some dtype, some shape, some (start, stop) => some ⟨name, dtype, shape, start, stop⟩
      | _, _, _ => none
  | _ => none

/-- The JSON value of an entry. -/
def toJson (entry : Entry) : Json :=
  .ofMembers
    [("dtype", .ofString (Enumerated.label entry.dtype)),
      ("shape", .array (entry.shape.map Json.ofNat)),
      ("data_offsets", .array [.ofNat entry.start, .ofNat entry.stop])]

/-- Order of entries by the bytes they take. -/
def placedBefore
    (left right : Entry) : Bool :=
  decide (left.start < right.start) ||
    (left.start == right.start && decide (left.stop ≤ right.stop))

/--
The end of entries that follow one another without gaps from a position on, each
taking the bytes it calls for.
-/
def stop?
    (position : Nat) :
    List Entry → Option Nat
  | [] => some position
  | entry :: rest =>
      if entry.start = position ∧ entry.start ≤ entry.stop ∧
          entry.size? = some (entry.stop - entry.start) then
        stop? entry.stop rest
      else
        none

end Entry

/-- Tensors with named texts. -/
structure TensorFile where
  texts : List (String × String)
  entries : List Entry
  /-- The numbers of all tensors. -/
  data : List UInt8
  deriving Repr, DecidableEq

namespace TensorFile

/-- Key of the named texts. -/
def textsKey : String := "__metadata__"

/-- Levels of nesting a reader accepts inside an entry. -/
def depth : Nat := 126

/-- The greatest length of a header. -/
def headerLimit : Nat := 100000000

/-- Named texts, or nothing. -/
def texts? : Option Json → Option (List (String × String))
  | none => some []
  | some .null => some []
  | some (.object members) =>
      (Json.keyed? members).bind fun keyed =>
        keyed.mapM fun member => member.2.text?.map fun text => (member.1, text)
  | _ => none

/-- Of entries with one name, only the last one. -/
def lastOfEach : List Entry → List Entry
  | [] => []
  | entry :: rest =>
      if rest.any fun other => other.name == entry.name then
        lastOfEach rest
      else
        entry :: lastOfEach rest

/-- An entry whose JSON value is not nested too deeply. -/
def entry? (member : String × Json) : Option Entry :=
  if Json.isSound depth member.2 then Entry.ofJson? member.1 member.2 else none

/-- The named texts and the entries, in the order of their bytes, that a header writes. -/
def header? : Json → Option (List (String × String) × List Entry)
  | .object members =>
      (Json.keyed? members).bind fun keyed =>
        (Json.field? keyed textsKey).bind fun texts =>
          (texts? texts).bind fun texts =>
            ((keyed.filter fun member => member.1 != textsKey).mapM entry?).map fun entries =>
              (texts, (lastOfEach entries).mergeSort Entry.placedBefore)
  | _ => none

/-- Text of bytes in UTF-8. -/
def textOf? (bytes : List UInt8) : Option String :=
  String.fromUTF8? ⟨bytes.toArray⟩

/-- Read a file. -/
def read? (bytes : List UInt8) : Option TensorFile :=
  let length := Bytes.toNat (bytes.take 8)
  if bytes.length < 8 ∨ headerLimit < length ∨ bytes.length < 8 + length then
    none
  else
    let body := bytes.drop 8
    (textOf? (body.take length)).bind fun text =>
      (Json.read? text.toList).bind fun value =>
        (header? value).bind fun (texts, entries) =>
          let data := body.drop length
          if Entry.stop? 0 entries = some data.length then
            some ⟨texts, entries, data⟩
          else
            none

/-- The text with a name; of several the last one. -/
def text?
    (file : TensorFile)
    (name : String) : Option String :=
  (file.texts.reverse.find? fun member => member.1 == name).map (·.2)

/-- The entry with a name. -/
def entryOf?
    (file : TensorFile)
    (name : String) : Option Entry :=
  file.entries.find? fun entry => entry.name == name

/-- The bytes of an entry. -/
def bytesOf
    (file : TensorFile)
    (entry : Entry) : List UInt8 :=
  (file.data.drop entry.start).take (entry.stop - entry.start)

/-- The JSON value of the header. -/
def headerJson (file : TensorFile) : Json :=
  let texts := Json.ofMembers (file.texts.map fun member => (member.1, .ofString member.2))
  .ofMembers ((textsKey, texts) :: file.entries.map fun entry => (entry.name, entry.toJson))

/-- The bytes of the header, filled with spaces to whole groups of eight. -/
def headerBytes (file : TensorFile) : List UInt8 :=
  let bytes := (String.ofList file.headerJson.compact).toUTF8.toList
  bytes ++ List.replicate ((8 - bytes.length % 8) % 8) 0x20

/-- Write a file. -/
def write (file : TensorFile) : List UInt8 :=
  let header := file.headerBytes
  Bytes.ofNat 8 header.length ++ header ++ file.data

end TensorFile

end DpuCycles.Network
