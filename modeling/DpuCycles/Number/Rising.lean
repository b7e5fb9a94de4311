namespace DpuCycles

/-!
# Rising lists and running maxima

Widths of networks and times of schedules are running maxima.  A bound of one is a
bound of its start and of all numbers, and says all there is to say about it.
-/

/-- A rising list with one more number; a number stands in it once. -/
def insertRising
    (number : Nat) :
    List Nat → List Nat
  | [] => [number]
  | first :: rest =>
      if number < first then
        number :: first :: rest
      else if number = first then
        first :: rest
      else
        first :: insertRising number rest

/-- The list holds the number and what it held before. -/
theorem mem_insertRising
    {number other : Nat}
    {numbers : List Nat} :
    other ∈ insertRising number numbers ↔ other = number ∨ other ∈ numbers := by
  induction numbers with
  | nil => simp [insertRising]
  | cons first rest inductionHypothesis =>
      unfold insertRising
      split
      · simp
      · split
        · rename_i same
          subst same
          simp
        · simp only [List.mem_cons, inductionHypothesis]
          constructor
          · rintro (isFirst | isNumber | inRest)
            · exact Or.inr (Or.inl isFirst)
            · exact Or.inl isNumber
            · exact Or.inr (Or.inr inRest)
          · rintro (isNumber | isFirst | inRest)
            · exact Or.inr (Or.inl isNumber)
            · exact Or.inl isFirst
            · exact Or.inr (Or.inr inRest)

theorem foldl_max_le_iff
    {numbers : List Nat}
    {start bound : Nat} :
    numbers.foldl max start ≤ bound ↔ start ≤ bound ∧ ∀ number ∈ numbers, number ≤ bound := by
  induction numbers generalizing start with
  | nil =>
      simp
  | cons first rest inductionHypothesis =>
      rw [List.foldl_cons, inductionHypothesis, Nat.max_le, List.forall_mem_cons, and_assoc]

/-- A running maximum is not below its start, nor below any number it meets. -/
theorem le_foldl_max
    (numbers : List Nat)
    (start : Nat) :
    start ≤ numbers.foldl max start ∧ ∀ number ∈ numbers, number ≤ numbers.foldl max start :=
  foldl_max_le_iff.mp (Nat.le_refl _)

end DpuCycles
