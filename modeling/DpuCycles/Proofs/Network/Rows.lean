import DpuCycles.Network.Context

namespace DpuCycles.Network

/-!
# Rows of a batch

A batch is a list of rows written one after another.  Every kernel treats the
rows of a batch alone: what it writes for the batch is what it gives for each
row, in the same order.
-/

/-- Rows written one after another. -/
def joined (rows : List (Array Single)) : Array Single :=
  rows.foldl (· ++ ·) #[]

@[simp] theorem joined_nil : joined [] = #[] :=
  rfl

@[simp] theorem joined_cons
    (row : Array Single)
    (rest : List (Array Single)) :
    joined (row :: rest) = row ++ joined rest := by
  have behind : ∀ (rows : List (Array Single)) (before : Array Single),
      rows.foldl (· ++ ·) before = before ++ joined rows := by
    intro rows
    induction rows with
    | nil =>
        simp
    | cons first others inductionHypothesis =>
        intro before
        rw [joined, List.foldl_cons, List.foldl_cons, inductionHypothesis, inductionHypothesis]
        simp
  rw [joined, List.foldl_cons, behind]
  simp

theorem joined_append
    (first second : List (Array Single)) :
    joined (first ++ second) = joined first ++ joined second := by
  induction first with
  | nil =>
      simp
  | cons row rest inductionHypothesis =>
      simp [inductionHypothesis]

/-- Values that are mapped row by row are mapped one by one. -/
theorem map_joined
    (image : Single → Single)
    (rows : List (Array Single)) :
    (joined rows).map image = joined (rows.map fun row => row.map image) := by
  induction rows with
  | nil =>
      simp
  | cons row rest inductionHypothesis =>
      simp [inductionHypothesis]

/-- Whether all rows have a width. -/
def HaveWidth
    (width : Nat)
    (rows : List (Array Single)) : Prop :=
  ∀ row ∈ rows, row.size = width

namespace HaveWidth

variable {width : Nat} {rows : List (Array Single)}

theorem map
    {next : Nat}
    {image : Array Single → Array Single}
    (widths : HaveWidth width rows)
    (sized : ∀ row, row.size = width → (image row).size = next) :
    HaveWidth next (rows.map image) := by
  intro row member
  obtain ⟨original, inRows, rfl⟩ := List.mem_map.mp member
  exact sized original (widths original inRows)

/-- Rows of a width fill as many values as there are rows, times the width. -/
theorem size_joined
    (widths : HaveWidth width rows) :
    (joined rows).size = rows.length * width := by
  induction rows with
  | nil =>
      simp
  | cons row rest inductionHypothesis =>
      obtain ⟨first, others⟩ := List.forall_mem_cons.mp widths
      rw [joined_cons, Array.size_append, first, inductionHypothesis others, List.length_cons,
        Nat.succ_mul, Nat.add_comm]

/-- The rows are read back at the multiples of their width. -/
theorem rows_of_joined
    (widths : HaveWidth width rows) :
    ((List.range rows.length).map fun row =>
        (joined rows).extract (row * width) (row * width + width)) = rows := by
  induction rows with
  | nil =>
      rfl
  | cons row rest inductionHypothesis =>
      obtain ⟨first, others⟩ := List.forall_mem_cons.mp widths
      have head : (row ++ joined rest).extract (0 * width) (0 * width + width) = row := by
        rw [Nat.zero_mul, Nat.zero_add, ← first, Array.extract_append_left, Array.extract_size]
      have tail : ∀ index,
          (row ++ joined rest).extract ((index + 1) * width) ((index + 1) * width + width) =
            (joined rest).extract (index * width) (index * width + width) := by
        intro index
        rw [Array.extract_append, first, Nat.succ_mul,
          Array.extract_empty_of_size_le_start (by omega), Array.empty_append,
          Nat.add_sub_cancel, Nat.add_right_comm, Nat.add_sub_cancel]
      rw [List.length_cons, List.range_succ_eq_map, List.map_cons, List.map_map, joined_cons, head]
      refine congrArg (List.cons row) ?_
      calc (List.range rest.length).map _
          = (List.range rest.length).map fun index =>
              (joined rest).extract (index * width) (index * width + width) :=
            List.map_congr_left fun index _ => tail index
        _ = rest := inductionHypothesis others

end HaveWidth

/-- Whether rows stand at the front of a buffer. -/
def Leads
    (rows : List (Array Single))
    (buffer : Array Single) : Prop :=
  ∃ rest, buffer = joined rows ++ rest

namespace Leads

variable
  {width : Nat}
  {rows : List (Array Single)}
  {buffer : Array Single}

theorem size_le
    (leads : Leads rows buffer)
    (widths : HaveWidth width rows) :
    rows.length * width ≤ buffer.size := by
  obtain ⟨rest, rfl⟩ := leads
  rw [Array.size_append, widths.size_joined]
  exact Nat.le_add_right _ _

theorem extract
    (leads : Leads rows buffer)
    (widths : HaveWidth width rows) :
    buffer.extract 0 (rows.length * width) = joined rows := by
  obtain ⟨rest, rfl⟩ := leads
  rw [← widths.size_joined, Array.extract_append_left, Array.extract_size]

end Leads

namespace Kernel

theorem overwrite_of_size_eq
    {values buffer : Array Single}
    (same : values.size = buffer.size) :
    overwrite values buffer = values := by
  rw [overwrite, same, Array.extract_empty_of_size_le_start (Nat.le_refl _), Array.append_empty]

/-- A function of values is applied to as many values as the output has. -/
theorem forwardEach_joined
    {image : Single → Single}
    {rows : List (Array Single)}
    {output : Array Single}
    (fits : (joined rows).size = output.size) :
    forwardEach image (joined rows) output = joined (rows.map fun row => row.map image) := by
  rw [forwardEach, ← fits, Array.extract_size, overwrite_of_size_eq, map_joined]
  rw [Array.size_map, fits]

/-- A function of rows is applied to each of them. -/
theorem forwardRows_joined
    {image : Array Single → Array Single}
    {width next : Nat}
    {rows : List (Array Single)}
    {output : Array Single}
    (widths : HaveWidth width rows)
    (sized : ∀ row, row.size = width → (image row).size = next)
    (fits : output.size = rows.length * next) :
    forwardRows image rows.length width next (joined rows) output =
      .ok (joined (rows.map image)) := by
  have images :
      ((List.range rows.length).map fun row =>
        image ((joined rows).extract (row * width) (row * width + width))) = rows.map image := by
    conv => rhs; rw [← widths.rows_of_joined]
    rw [List.map_map]
    rfl
  have sizes : (joined (rows.map image)).size = output.size := by
    rw [(widths.map sized).size_joined, List.length_map, fits]
  have inRange :
      rows.length * width ≤ (joined rows).size ∧ rows.length * next ≤ output.size :=
    ⟨Nat.le_of_eq widths.size_joined.symm, Nat.le_of_eq fits.symm⟩
  unfold forwardRows
  rw [if_pos inRange]
  dsimp only
  rw [images]
  exact congrArg Except.ok (overwrite_of_size_eq sizes)

end Kernel

end DpuCycles.Network
