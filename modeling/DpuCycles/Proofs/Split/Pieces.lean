import DpuCycles.Split.Cut

namespace DpuCycles

/-!
# Pieces of a length

A length is cut from the front into pieces of one size, each given by its start
and its extent; only the last piece may be shorter.  The pieces partition the
length as soon as they reach its end and none of them starts behind it.
-/

/-- Whether a piece, given by its start and its extent, holds a position. -/
def holds
    (position : Nat)
    (piece : Nat × Nat) : Bool :=
  decide (piece.1 ≤ position ∧ position < piece.1 + piece.2)

/-- Pieces that are not empty, stay inside a length and hold each position once. -/
structure Partitions
    (length : Nat)
    (pieces : List (Nat × Nat)) : Prop where
  once : ∀ position, position < length → pieces.countP (holds position) = 1
  inside : ∀ piece ∈ pieces, piece.1 + piece.2 ≤ length
  positive : ∀ piece ∈ pieces, 0 < piece.2

/-- A number of pieces of a size from the front of a length. -/
def evenPieces
    (length size count : Nat) : List (Nat × Nat) :=
  (List.range count).map fun position =>
    (position * size, min (length - position * size) size)

/-- A piece of a size holds a position exactly when the quotient by the size names it. -/
theorem holds_evenPiece
    {length size position index : Nat}
    (sizePositive : 0 < size)
    (below : position < length) :
    holds position (index * size, min (length - index * size) size) =
      (index == position / size) := by
  have quotient :
      index = position / size ↔
        index * size ≤ position ∧ position < (index + 1) * size := by
    rw [eq_comm, Nat.div_eq_iff sizePositive, Nat.succ_mul]
    omega
  rw [Bool.eq_iff_iff, beq_iff_eq, quotient, Nat.succ_mul]
  simp only [holds, decide_eq_true_eq]
  omega

/-- Pieces that reach the end and do not start behind it partition the length. -/
theorem partitions_evenPieces
    {length size count : Nat}
    (sizePositive : 0 < size)
    (reaches : length ≤ count * size)
    (startsInside : ∀ index, index < count → index * size < length) :
    Partitions length (evenPieces length size count) where
  once := by
    intro position below
    have named : position / size < count :=
      (Nat.div_lt_iff_lt_mul sizePositive).mpr (Nat.lt_of_lt_of_le below reaches)
    calc (evenPieces length size count).countP (holds position)
        = (List.range count).countP (· == position / size) := by
          rw [evenPieces, List.countP_map]
          refine List.countP_congr fun index _ => ?_
          rw [Function.comp_apply, holds_evenPiece sizePositive below]
      _ = (List.range count).count (position / size) := rfl
      _ = 1 := by rw [List.count_range, if_pos named]
  inside := by
    intro piece member
    obtain ⟨index, inRange, rfl⟩ := List.mem_map.mp member
    have start := startsInside index (List.mem_range.mp inRange)
    dsimp only
    omega
  positive := by
    intro piece member
    obtain ⟨index, inRange, rfl⟩ := List.mem_map.mp member
    have start := startsInside index (List.mem_range.mp inRange)
    dsimp only
    omega

theorem partitions_whole
    {length : Nat}
    (positive : 0 < length) :
    Partitions length [(0, length)] where
  once := by
    intro position below
    simp [holds, below]
  inside := by simp
  positive := by simpa using positive

theorem ceilDiv_pos
    {length size : Nat}
    (lengthPositive : 0 < length)
    (sizePositive : 0 < size) :
    0 < ceilDiv length size := by
  refine Nat.pos_of_ne_zero fun none => ?_
  have reaches := (ceilDiv_le_iff sizePositive).mp (Nat.le_of_eq none)
  omega

namespace Layer

/-- Segments of a size that is not zero partition their length. -/
theorem partitions_segments
    {length size : Nat}
    (sizePositive : 0 < size) :
    Partitions length (segments length size) := by
  refine partitions_evenPieces sizePositive (le_roundUp length sizePositive) ?_
  intro index below
  refine Nat.lt_of_not_le fun behind => ?_
  exact absurd ((ceilDiv_le_iff sizePositive).mpr behind) (Nat.not_le.mpr below)

/-- Segments as long as an even share are no more than the shares. -/
theorem length_segments_le
    {length size shares : Nat}
    (sharesPositive : 0 < shares)
    (sizePositive : 0 < size)
    (enough : ceilDiv length shares ≤ size) :
    (segments length size).length ≤ shares := by
  have covered : length ≤ size * shares := (ceilDiv_le_iff sharesPositive).mp enough
  simp only [segments, List.length_map, List.length_range]
  rw [ceilDiv_le_iff sizePositive, Nat.mul_comm]
  exact covered

/-- A piece is the whole length, or it is not much longer than half of it. -/
def IsHalf (length piece : Nat) : Prop :=
  piece = length ∨ 2 * piece ≤ length + 31

/-- An even share that is rounded up to a small grid is the whole, or about half of it at most. -/
theorem isHalf_of_mem_segments
    {length shares grid : Nat}
    {piece : Nat × Nat}
    (sharesPositive : 0 < shares)
    (gridPositive : 0 < grid)
    (gridWithin : grid ≤ 16)
    (member : piece ∈ segments length (roundUp (ceilDiv length shares) grid)) :
    IsHalf length piece.2 := by
  have reaches := le_roundUp (ceilDiv length shares) gridPositive
  have shorter := roundUp_lt (ceilDiv length shares) gridPositive
  generalize roundUp (ceilDiv length shares) grid = size at *
  obtain ⟨index, inRange, rfl⟩ := List.mem_map.mp member
  by_cases single : shares = 1
  · -- One share is the whole length, so it is the only piece.
    subst single
    have whole : length ≤ size :=
      Nat.le_trans ((ceilDiv_le_iff Nat.one_pos).mp (Nat.le_refl _)) (Nat.mul_one _ ▸ reaches)
    have few : ceilDiv length size ≤ 1 := by
      by_cases empty : size = 0
      · simp [ceilDiv, empty]
      · rw [ceilDiv_le_iff (Nat.pos_of_ne_zero empty), Nat.one_mul]
        exact whole
    have first : index = 0 := by
      have below := List.mem_range.mp inRange
      omega
    subst first
    left
    dsimp only
    omega
  · have share : ceilDiv length shares ≤ (length + 1) / 2 := by
      rw [ceilDiv_le_iff sharesPositive]
      calc length
          ≤ (length + 1) / 2 * 2 := by omega
        _ ≤ (length + 1) / 2 * shares := Nat.mul_le_mul_left _ (by omega)
    right
    dsimp only
    omega

theorem zipIdx_slices
    (channels size count : Nat) :
    (slices channels size count).zipIdx.map (fun numbered => (numbered.2 * size, numbered.1)) =
      evenPieces channels size count := by
  refine List.ext_getElem (by simp [slices, evenPieces]) ?_
  intro index _ _
  simp [slices, evenPieces]

end Layer

end DpuCycles
