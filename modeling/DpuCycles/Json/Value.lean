import DpuCycles.Json.Numeral

namespace DpuCycles

/-!
# JSON values

A value is kept as it is written: members keep their order and repetitions, and
a number remembers whether it was written as an integer.

Text can be grammatical and still denote nothing: an escape may name half of a
surrogate pair, a number may exceed every double, and nesting may be deeper than
a reader accepts.  Values that are passed over need the grammar only; values
that are used must also be `sound`.
-/

/-- A JSON value.  Text that denotes no characters is `none`. -/
inductive Json where
  | null
  | bool (value : Bool)
  | number (value : Numeral)
  | string (text : Option String)
  | array (items : List Json)
  | object (members : List (Option String × Json))
  deriving Repr

namespace Json

/-- Whether a value denotes something and is nested at most `depth` levels. -/
def isSound : Nat → Json → Bool
  | _, .null => true
  | _, .bool _ => true
  | _, .number value => value.isSound
  | _, .string text => text.isSome
  | 0, .array _ => false
  | 0, .object _ => false
  | depth + 1, .array items => items.all (isSound depth)
  | depth + 1, .object members =>
      members.all fun member => member.1.isSome && isSound depth member.2

/-- A text value. -/
def ofString (text : String) : Json :=
  .string (some text)

/-- A count. -/
def ofNat (count : Nat) : Json :=
  .number (.whole false count)

/-- An object from its members. -/
def ofMembers (members : List (String × Json)) : Json :=
  .object (members.map fun member => (some member.1, member.2))

/-- The count a value writes, if it is at most `limit`. -/
def natural?
    (limit : Nat) :
    Json → Option Nat
  | .number (.whole false magnitude) =>
      if magnitude ≤ limit then some magnitude else none
  | _ => none

/-- The truth value a value writes. -/
def bool? : Json → Option Bool
  | .bool value => some value
  | _ => none

/-- The text a value writes. -/
def text? : Json → Option String
  | .string text => text
  | _ => none

/-- The items of an array. -/
def items? : Json → Option (List Json)
  | .array items => some items
  | _ => none

/--
The alternative a value names: its label as text, or an object whose only member
has the label as key and nothing as value.
-/
def alternative? : Json → Option String
  | .string text => text
  | .object [(key, .null)] => key
  | _ => none

/-- Members whose keys all denote text. -/
def keyed? : List (Option String × Json) → Option (List (String × Json))
  | [] => some []
  | (key, value) :: rest =>
      match key, keyed? rest with
      | some label, some members => some ((label, value) :: members)
      | _, _ => none

/-- The value of a field among members: absent, given once, or given again and so refused. -/
def field?
    (members : List (String × Json))
    (label : String) : Option (Option Json) :=
  match members.filter fun member => member.1 == label with
  | [] => some none
  | [member] => some (some member.2)
  | _ => none

/-- The value of the last member with a label, null when there is none. -/
def member
    (value : Json)
    (label : String) : Json :=
  match value with
  | .object members =>
      (members.foldl
        (fun found member => if member.1 == some label then some member.2 else found)
        none).getD .null
  | _ => .null

/-- The value of a field, or its default when it is absent. -/
def given
    (default : α)
    (read? : Json → Option α) :
    Option Json → Option α
  | none => some default
  | some value => read? value

/--
The fields of a record in the order of their labels.  A record is written as an
object, where members that are no field are passed over and no field is given
twice, or as the array of its first fields.
-/
def record?
    (labels : List String) :
    Json → Option (List (Option Json))
  | .object members =>
      (keyed? members).bind fun keyed => labels.mapM (field? keyed)
  | .array items =>
      if items.length ≤ labels.length then
        some (items.map some ++ List.replicate (labels.length - items.length) none)
      else
        none
  | _ => none

end Json

end DpuCycles
