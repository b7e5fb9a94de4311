import DpuCycles.Enumerated
import DpuCycles.Json.Reader
import DpuCycles.Json.Writer
import DpuCycles.Number.Interchange

namespace DpuCycles

/-!
# Forms and records

A form is the way the values of a type stand in JSON.  A record is a value taken
apart into labelled members.  Members that are left out, or null, keep what they
were, so the same record reads a whole value over its defaults and a change of
one part.

Single floats stand as the eight hexadecimal digits of their bits, so that
nothing is rounded on the way; numbers are read as well.
-/

/-- The way the values of a type stand in JSON. -/
structure Form (α : Type) where
  write : α → Json
  read? : Json → Option α

namespace Form

/-- Counts. -/
def count : Form Nat where
  write := Json.ofNat
  read?
    | .number (.whole false magnitude) => some magnitude
    | _ => none

/-- Integers. -/
def integer : Form Int where
  write value := .number (.whole (decide (value < 0)) value.natAbs)
  read?
    | .number (.whole false magnitude) => some magnitude
    | .number (.whole true magnitude) => some (-(magnitude : Int))
    | _ => none

/-- Truth values. -/
def truth : Form Bool where
  write := .bool
  read? := Json.bool?

/-- Texts. -/
def text : Form String where
  write := Json.ofString
  read? := Json.text?

/-- Values of an enumerated domain, by their labels. -/
def named
    [DecidableEq α]
    [Enumerated α] : Form α where
  write value := Json.ofString (Enumerated.label value)
  read? value := value.text?.bind Enumerated.ofLabel?

/-- A fixed number of hexadecimal digits of a value, the highest first. -/
def hexText (width value : Nat) : String :=
  String.ofList ((List.range width).map fun position =>
    Json.hexDigit (value / 16 ^ (width - 1 - position) % 16))

/-- The values of hexadecimal digits. -/
def hexDigits? (text : String) : Option (List Nat) :=
  text.toList.mapM Json.hexDigit?

/-- The nearest single float to a number, `none` when the number denotes nothing. -/
def nearestSingle? (number : Numeral) : Option Single :=
  number.magnitude?.map fun magnitude => magnitude.toSingle number.isNegative

/-- Single floats, by their bits.  All values that are no numbers are written alike. -/
def single : Form Single where
  write value :=
    Json.ofString (if value.isUndefined then "nan" else hexText 8 value.bits.toNat)
  read?
    | .number value => nearestSingle? value
    | .string (some text) =>
        (hexDigits? text).map fun digits =>
          ⟨UInt32.ofNat (digits.foldl (fun bits digit => bits * 16 + digit) 0)⟩
    | _ => none

/-- Floats that are computed with, in the form of single floats. -/
def float32 : Form Float32 where
  write value := single.write (.ofFloat32 value)
  read? value := (single.read? value).map Single.toFloat32

/-- The bytes that pairs of hexadecimal digits write. -/
def hexBytes? : List Nat → Option (List UInt8)
  | [] => some []
  | high :: low :: rest => (hexBytes? rest).map (UInt8.ofNat (high * 16 + low) :: ·)
  | _ => none

/-- Bytes, as pairs of hexadecimal digits. -/
def bytes : Form (List UInt8) where
  write values := Json.ofString (String.join (values.map fun byte => hexText 2 byte.toNat))
  read? value := (value.text?.bind hexDigits?).bind hexBytes?

/-- Lists of values with a form. -/
def list (form : Form α) : Form (List α) where
  write values := .array (values.map form.write)
  read? value := value.items?.bind fun items => items.mapM form.read?

/-- Values with a form, and null for none. -/
def option (form : Form α) : Form (Option α) where
  write
    | some value => form.write value
    | none => .null
  read?
    | .null => some none
    | value => (form.read? value).map some

/-- The form of values that stand for other values. -/
def through
    (form : Form α)
    (take : β → α)
    (make? : α → Option β) : Form β where
  write value := form.write (take value)
  read? value := (form.read? value).bind make?

/-- One value, in a list of its own. -/
def alone (form : Form α) : Form α :=
  (list form).through (fun value => [value]) fun
    | [value] => some value
    | _ => none

/-- Two values, in a list. -/
def pair (form : Form α) : Form (α × α) :=
  (list form).through (fun values => [values.1, values.2]) fun
    | [first, second] => some (first, second)
    | _ => none

end Form

/-- A labelled part of a value. -/
structure Member (α : Type) where
  label : String
  write : α → Json
  /-- The value with this part as a JSON value has it. -/
  change? : Json → α → Option α

/-- A value taken apart into labelled members. -/
abbrev Record (α : Type) := List (Member α)

namespace Record

/-- The JSON object of a value. -/
def write
    (record : Record α)
    (value : α) : Json :=
  .ofMembers (record.map fun member => (member.label, member.write value))

/-- The value with the members a JSON object has; the others stay as they are. -/
def amend?
    (record : Record α)
    (changes : Json)
    (value : α) : Option α :=
  record.foldlM
    (fun value member =>
      match changes.member member.label with
      | .null => some value
      | part => member.change? part value)
    value

/-- The form of a value that is read over a default. -/
def formOver
    (record : Record α)
    (default : α) : Form α where
  write := record.write
  read? value := record.amend? value default

end Record

namespace Member

/-- A part with a form of its own, which is replaced as a whole. -/
def of
    (label : String)
    (form : Form β)
    (get : α → β)
    (set : β → α → α) : Member α where
  label := label
  write value := form.write (get value)
  change? part value := (form.read? part).map fun part => set part value

/-- A part that is a record, of which single members can be replaced. -/
def within
    (label : String)
    (record : Record β)
    (get : α → β)
    (set : β → α → α) : Member α where
  label := label
  write value := record.write (get value)
  change? part value := (record.amend? part (get value)).map fun part => set part value

end Member

end DpuCycles
