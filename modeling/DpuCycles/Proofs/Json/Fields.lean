import DpuCycles.Proofs.Json.Counts
import DpuCycles.Proofs.Json.RoundTrip

namespace DpuCycles.Json

/-!
# Fields read back

An object whose keys denote text gives its members as they were put together,
and a list of values gives what each of them was written from.
-/

/-- Items are read back when each of them is. -/
theorem mapM_map_of_readBack
    {write : α → β}
    {read : β → Option α}
    {items : List α}
    (readBack : ∀ item ∈ items, read (write item) = some item) :
    (items.map write).mapM read = some items := by
  induction items with
  | nil =>
      rfl
  | cons item items inductionHypothesis =>
      have first := readBack item List.mem_cons_self
      have others := inductionHypothesis fun other member =>
        readBack other (List.mem_cons_of_mem _ member)
      rw [List.map_cons, List.mapM_cons, first, others]
      rfl

/-- Keys that denote text are read as they are. -/
theorem keyed?_known (members : List (String × Json)) :
    keyed? (known members) = some members := by
  induction members with
  | nil =>
      rfl
  | cons member members inductionHypothesis =>
      have shape : known (member :: members) = (some member.1, member.2) :: known members := rfl
      simp only [shape, keyed?, inductionHypothesis]

/-- A field that only the first member has is given once. -/
theorem field?_cons
    {label : String}
    {value : Json}
    {members : List (String × Json)}
    (once : ∀ member ∈ members, member.1 ≠ label) :
    field? ((label, value) :: members) label = some (some value) := by
  have noMember : (members.filter fun member => member.1 == label) = [] := by
    simpa using once
  rw [field?, List.filter_cons_of_pos (by simp), noMember]

end DpuCycles.Json
