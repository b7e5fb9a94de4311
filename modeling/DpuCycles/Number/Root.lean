namespace DpuCycles

/-! # Whole square roots -/

/-- The greatest number whose square does not exceed a number. -/
def root (number : Nat) : Nat :=
  if number = 0 then
    0
  else
    let near := 2 * root (number / 4)
    if (near + 1) * (near + 1) ≤ number then near + 1 else near
termination_by number
decreasing_by
  exact Nat.div_lt_self (by omega) (by decide)

/-- A number lies between the square of its root and the next square. -/
theorem root_spec (number : Nat) :
    root number * root number ≤ number ∧
      number < (root number + 1) * (root number + 1) := by
  induction number using root.induct with
  | case1 => simp [root]
  | case2 number positive near reaches inductionHypothesis =>
      rw [root, if_neg positive]
      simp only [near] at reaches
      rw [if_pos reaches]
      refine ⟨reaches, ?_⟩
      have below := inductionHypothesis.2
      generalize root (number / 4) = half at *
      have quarter : number / 4 + 1 ≤ (half + 1) * (half + 1) := below
      have square : (2 * half + 1 + 1) * (2 * half + 1 + 1) = 4 * ((half + 1) * (half + 1)) := by
        grind
      omega
  | case3 number positive near exceeds inductionHypothesis =>
      rw [root, if_neg positive]
      simp only [near] at exceeds
      rw [if_neg exceeds]
      refine ⟨?_, by omega⟩
      have above := inductionHypothesis.1
      generalize root (number / 4) = half at *
      have square : 2 * half * (2 * half) = 4 * (half * half) := by
        grind
      omega

/-- The numbers up to the root are those whose square does not exceed the number. -/
theorem le_root_iff
    {number factor : Nat} :
    factor ≤ root number ↔ factor * factor ≤ number := by
  have bounds := root_spec number
  constructor
  · intro small
    exact Nat.le_trans (Nat.mul_le_mul small small) bounds.1
  · intro square
    refine Nat.le_of_not_lt fun large => ?_
    have next := Nat.mul_le_mul (Nat.succ_le_of_lt large) (Nat.succ_le_of_lt large)
    simp only [Nat.succ_eq_add_one] at next
    omega

end DpuCycles
