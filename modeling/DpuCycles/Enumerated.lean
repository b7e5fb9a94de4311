namespace DpuCycles

/-!
# Enumerated domains

A finite domain is given by the list of its values.  The position of a value in
that list is its number, so one-hot blocks and tables can be sized and indexed
without a second declaration.
-/

/-- A finite domain whose values are listed once, in the order that numbers them. -/
class Enumerated (α : Type) [DecidableEq α] where
  /-- Name of the domain in messages about it. -/
  domain : String
  /-- Every value, in order. -/
  values : List α
  /-- Written form of one value. -/
  label : α → String
  nodup : values.Nodup := by decide
  complete : ∀ value, value ∈ values := by intro value; cases value <;> decide

namespace Enumerated

variable {α : Type} [DecidableEq α] [Enumerated α]

/-- Number of values of a domain. -/
def cardinality (α : Type) [DecidableEq α] [Enumerated α] : Nat :=
  (values : List α).length

/-- Position of a value in its domain. -/
def index (value : α) : Nat :=
  (values : List α).idxOf value

/-- The value at a position. -/
def ofIndex? (position : Nat) : Option α :=
  (values : List α)[position]?

/-- The value with a written form. -/
def ofLabel? (text : String) : Option α :=
  (values : List α).find? fun value => label value == text

/-- Every value has a position inside the domain. -/
theorem index_lt_cardinality (value : α) : index value < cardinality α :=
  List.idxOf_lt_length_of_mem (complete value)

end Enumerated

end DpuCycles
