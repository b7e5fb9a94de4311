import DpuCycles.Number.Single
import DpuCycles.Text

namespace DpuCycles.Network

/-!
# Versions of networks

A network is named `NAME-INPUT-OUTPUT`: which descriptors it reads, and how its
output becomes cycles.  Parts that are missing or no numbers keep their default.
-/

/-- Name of a network with the versions of its input and output. -/
structure Version where
  name : String
  input : Nat
  output : Nat
  deriving Repr, DecidableEq

namespace Version

/-- The version of a network that says nothing. -/
def unnamed : Version := ⟨"none", 1, 1⟩

/-- The parts of a text between separators; there is always one more than separators. -/
def parts (separator : Char) : List Char → List (List Char)
  | [] => [[]]
  | character :: rest =>
      if character = separator then
        [] :: parts separator rest
      else
        match parts separator rest with
        | [] => [[character]]
        | first :: others => (character :: first) :: others

/-- The number of a part, or a default. -/
def partNumber
    (default : Nat)
    (part : Option (List Char)) : Nat :=
  (part.bind fun text => Text.unsigned? Text.greatest32 (Text.trim text)).getD default

/-- Read a version. -/
def parse (text : String) : Version :=
  let parts := parts '-' text.toList
  let name :=
    match parts with
    | [] => unnamed.name
    | [] :: _ => unnamed.name
    | first :: _ => String.ofList first
  ⟨name, partNumber unnamed.input parts[1]?, partNumber unnamed.output parts[2]?⟩

/-- Written form of a version. -/
def text (version : Version) : String :=
  version.name ++ "-" ++ toString version.input ++ "-" ++ toString version.output

end Version

/-- How the output of a network becomes cycles. -/
inductive OutputReading where
  /-- Cycles, in the newest networks. -/
  | latest
  /-- A factor over the closed form, at least one for dense work. -/
  | boundedOverhead
  | cycles
  /-- A factor over the closed form. -/
  | unboundedOverhead
  deriving Repr, DecidableEq

namespace OutputReading

/-- The reading with a number. -/
def ofNumber? : Nat → Option OutputReading
  | 0 => some .latest
  | 1 => some .boundedOverhead
  | 2 => some .cycles
  | 3 => some .unboundedOverhead
  | _ => none

/-- Written form of a reading. -/
def label : OutputReading → String
  | .latest => "Latest"
  | .boundedOverhead => "HwOverheadBounded"
  | .cycles => "Cycles"
  | .unboundedOverhead => "HwOverheadUnbounded"

/-- The reading with a written form. -/
def ofLabel? (text : String) : Option OutputReading :=
  [latest, boundedOverhead, cycles, unboundedOverhead].find? fun reading => reading.label == text

/-- Whether the output is a factor over the closed form. -/
def isOverhead : OutputReading → Bool
  | .boundedOverhead => true
  | .unboundedOverhead => true
  | _ => false

/-- Cycles of one output.  The closed form is read for factors only. -/
def toCycles
    (reading : OutputReading)
    (raw : Float32)
    (closedForm : Nat)
    (sparse : Bool) : Float32 :=
  match reading with
  | .latest => raw
  | .cycles => raw
  | .unboundedOverhead => raw * float32OfNat closedForm
  | .boundedOverhead =>
      let overhead := if !sparse && raw < 1 then 1 else raw
      overhead * float32OfNat closedForm

end OutputReading

end DpuCycles.Network
