import DpuCycles.Enumerated

namespace DpuCycles.Descriptor

/-!
# One-hot maps

A one-hot block has a fixed width and holds a single one.  A map says at which
slot the one of each value stands; values without a slot cannot be written, and
several values may share a slot.
-/

/-- Slots of the values of a domain inside a block. -/
structure OneHot where
  domain : String
  width : Nat
  /-- Slot of each value, in the order of the domain. -/
  slots : List (Option Nat)
  deriving Repr, DecidableEq

/-- Why a map describes no block. -/
inductive OneHotFault where
  | zeroWidth (domain : String)
  | outside (domain : String) (slot width : Nat)
  | empty (domain : String)
  deriving Repr, DecidableEq

namespace OneHotFault

/-- Text of a fault. -/
def message : OneHotFault → String
  | .zeroWidth domain => domain ++ " one-hot block has zero width"
  | .outside domain slot width =>
      domain ++ " position " ++ toString slot ++ " outside width " ++ toString width
  | .empty domain => domain ++ " map is empty"

end OneHotFault

namespace OneHot

/-- Every value at its own index. -/
def identity
    (α : Type)
    [DecidableEq α]
    [Enumerated α] : OneHot :=
  let cardinality := Enumerated.cardinality α
  ⟨Enumerated.domain α, cardinality, (List.range cardinality).map some⟩

/-- Given values at given slots; of two slots for one value the last counts. -/
def explicit
    [DecidableEq α]
    [Enumerated α]
    (width : Nat)
    (pairs : List (α × Nat)) : OneHot :=
  let unmapped := List.replicate (Enumerated.cardinality α) none
  ⟨Enumerated.domain α, width,
    pairs.foldl (fun slots pair => slots.set (Enumerated.index pair.1) (some pair.2)) unmapped⟩

/-- Given values only, in the given order. -/
def subset
    [DecidableEq α]
    [Enumerated α]
    (values : List α) : OneHot :=
  explicit values.length values.zipIdx

/-- Slot of the value with an index. -/
def slot?
    (map : OneHot)
    (index : Nat) : Option Nat :=
  map.slots.getD index none

/-- The first reason why a map describes no block. -/
def fault? (map : OneHot) : Option OneHotFault :=
  if map.width = 0 then
    some (.zeroWidth map.domain)
  else
    match map.slots.reduceOption.find? fun slot => decide (map.width ≤ slot) with
    | some slot => some (.outside map.domain slot map.width)
    | none => if map.slots.all Option.isNone then some (.empty map.domain) else none

/-- A short text of a map. -/
def describe (map : OneHot) : String :=
  "OneHotMap(" ++ map.domain ++ ", width " ++ toString map.width ++ ")"

/-- A block with a single one. -/
def unitBlock
    (width slot : Nat) : List Float32 :=
  (List.range width).map fun position => if position = slot then 1 else 0

end OneHot

end DpuCycles.Descriptor
