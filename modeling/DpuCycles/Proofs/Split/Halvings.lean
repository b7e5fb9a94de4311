import DpuCycles.Number.Multiple
import DpuCycles.Split.Cut
import Mathlib.Analysis.SpecialFunctions.Log.Base

namespace DpuCycles

/-!
# Halvings of a range

A range is divided by the powers of two below it which divide it.  A higher power leaves
a smaller quotient, so the quotients fall strictly.  A power below the range leaves more
than one, which keeps zero and one out of the list.

The powers can also be found without comparing them with the range.  Their exponents are
counted up as long as they stay below the logarithm of the range.
-/

variable
  {range limit number : Nat}

/-- A higher one of two divisors leaves less, so the quotients fall. -/
theorem pairwise_halvings
    (range limit : Nat) :
    (halvings range limit).Pairwise (· > ·) := by
  unfold halvings
  apply List.pairwise_map.mpr
  apply List.pairwise_filter.mpr
  apply List.pairwise_filter.mpr
  apply List.pairwise_map.mpr
  refine List.pairwise_lt_range.imp ?_
  intro exponent higher rises below _ divides higherDivides
  rw [Bool.and_eq_true, beq_iff_eq] at divides higherDivides
  have notNothing : range ≠ 0 :=
    Nat.ne_of_gt (Nat.lt_of_le_of_lt (Nat.zero_le _) (of_decide_eq_true below))
  exact (Nat.div_lt_div_left notNothing (Nat.dvd_of_mod_eq_zero higherDivides.1)
    (Nat.dvd_of_mod_eq_zero divides.1)).mpr (Nat.pow_lt_pow_right Nat.one_lt_two rises)

/-- A power of two below the range leaves more than one. -/
theorem one_lt_of_mem_halvings
    (member : number ∈ halvings range limit) :
    1 < number := by
  obtain ⟨exponent, _, below, divides, rfl, _⟩ := mem_halvings.mp member
  apply (Nat.lt_div_iff_mul_lt_of_dvd (Nat.two_pow_pos exponent).ne' divides).mpr
  rwa [Nat.one_mul]

/-- A range of zero or one has no power of two below it but for the least. -/
theorem halvings_eq_nil
    (limit : Nat)
    (atMostOne : range ≤ 1) :
    halvings range limit = [] := by
  apply List.eq_nil_iff_forall_not_mem.mpr
  intro number member
  obtain ⟨exponent, _, below, _⟩ := mem_halvings.mp member
  have least : 1 ≤ 2 ^ exponent := Nat.one_le_two_pow
  omega

section Logarithm

/-- Quotients by powers of two whose exponents are counted up while they pass a test. -/
def halvingsWhile
    (below : Nat → Bool)
    (range limit : Nat) : List Nat :=
  let powers := ((List.range 32).takeWhile below).map fun exponent => 2 ^ exponent
  (powers.filter fun power => range % power == 0 && decide (range / power ≤ limit)).map
    fun power => range / power

/-- A test that compares exponents with the logarithm of a range.  That of zero is below all. -/
def BelowLogarithm
    (range : Nat)
    (below : Nat → Bool) : Prop :=
  ∀ exponent, below exponent = true ↔ 0 < range ∧ (exponent : ℝ) < Real.logb 2 range

/-- An exponent is below the logarithm when its power is below the range. -/
theorem BelowLogarithm.eq_decide
    {below : Nat → Bool}
    (compares : BelowLogarithm range below)
    (exponent : Nat) :
    below exponent = decide (2 ^ exponent < range) := by
  apply Bool.eq_iff_iff.mpr
  rw [compares exponent, decide_eq_true_eq]
  by_cases positive : 0 < range
  · rw [Real.lt_logb_iff_rpow_lt one_lt_two (Nat.cast_pos.mpr positive), Real.rpow_natCast]
    constructor
    · rintro ⟨_, less⟩
      exact_mod_cast less
    · intro less
      exact ⟨positive, by exact_mod_cast less⟩
  · constructor
    · rintro ⟨isPositive, _⟩
      exact absurd isPositive positive
    · intro less
      exact absurd (Nat.lt_of_le_of_lt (Nat.zero_le _) less) positive

/-- A test that keeps failing once it fails takes what it would filter. -/
theorem takeWhile_eq_filter
    {test : α → Bool}
    {items : List α}
    (keepsFailing : items.Pairwise fun former latter => test latter = true → test former = true) :
    items.takeWhile test = items.filter test := by
  induction items with
  | nil =>
      rfl
  | cons first rest inductionHypothesis =>
      obtain ⟨fromFirst, inRest⟩ := List.pairwise_cons.mp keepsFailing
      by_cases passes : test first = true
      · rw [List.takeWhile_cons_of_pos passes, List.filter_cons_of_pos passes,
          inductionHypothesis inRest]
      · rw [List.takeWhile_cons_of_neg passes, List.filter_cons_of_neg passes]
        -- What stands behind a failure fails as well.
        symm
        apply List.filter_eq_nil_iff.mpr
        intro later member passesLater
        exact passes (fromFirst later member passesLater)

/-- Counting exponents up to the logarithm finds the powers below the range. -/
theorem halvingsWhile_eq
    {below : Nat → Bool}
    (limit : Nat)
    (compares : BelowLogarithm range below) :
    halvingsWhile below range limit = halvings range limit := by
  have keepsFailing :
      (List.range 32).Pairwise fun former latter =>
        below latter = true → below former = true := by
    refine List.pairwise_lt_range.imp ?_
    intro former latter rises
    rw [compares.eq_decide, compares.eq_decide, decide_eq_true_eq, decide_eq_true_eq]
    exact Nat.lt_trans (Nat.pow_lt_pow_right Nat.one_lt_two rises)
  have same :
      (List.range 32).filter below =
        (List.range 32).filter fun exponent => decide (2 ^ exponent < range) :=
    List.filter_congr fun exponent _ => compares.eq_decide exponent
  unfold halvingsWhile halvings
  rw [takeWhile_eq_filter keepsFailing, same, List.filter_map]
  rfl

end Logarithm

/--
The halvings of a 32-bit range fall strictly, so none is repeated.  They are exactly the
quotients within the limit by the powers of two which are below the range and divide it.
None of them is zero or one, and a range of zero or one has none.  Counting the exponents
up to the logarithm of the range makes the same list.
-/
theorem halvings_exact
    (limit : Nat)
    (isWord : range < 2 ^ 32) :
    (halvings range limit).Pairwise (· > ·) ∧
      (halvings range limit).Nodup ∧
      (∀ number, number ∈ halvings range limit ↔
        ∃ exponent, 2 ^ exponent < range ∧ 2 ^ exponent ∣ range ∧
          range / 2 ^ exponent = number ∧ number ≤ limit) ∧
      (∀ number ∈ halvings range limit, number ≠ 0 ∧ number ≠ 1) ∧
      (range ≤ 1 → halvings range limit = []) ∧
      ∀ below, BelowLogarithm range below →
        halvingsWhile below range limit = halvings range limit := by
  have falling := pairwise_halvings range limit
  refine ⟨falling, falling.imp Nat.ne_of_gt, ?_, ?_, halvings_eq_nil limit,
    fun below => halvingsWhile_eq limit⟩
  · intro number
    rw [mem_halvings]
    constructor
    · rintro ⟨exponent, _, quotient⟩
      exact ⟨exponent, quotient⟩
    · rintro ⟨exponent, below, quotient⟩
      have isExponent : exponent < 32 :=
        (Nat.pow_lt_pow_iff_right Nat.one_lt_two).mp (Nat.lt_trans below isWord)
      exact ⟨exponent, isExponent, below, quotient⟩
  · intro number member
    have more := one_lt_of_mem_halvings member
    exact ⟨Nat.ne_of_gt (Nat.lt_trans Nat.one_pos more), Nat.ne_of_gt more⟩

/-- The logarithm of sixty-four is six, which is no longer below itself. -/
theorem halvings_of_sixtyFour :
    64 < 2 ^ 32 ∧
      halvings 64 16 = [16, 8, 4, 2] ∧
      (∀ number, number ∈ [16, 8, 4, 2] ↔
        ∃ exponent, 2 ^ exponent < 64 ∧ 2 ^ exponent ∣ 64 ∧
          64 / 2 ^ exponent = number ∧ number ≤ 16) ∧
      ∀ below, BelowLogarithm 64 below → halvingsWhile below 64 16 = [16, 8, 4, 2] := by
  have isWord : 64 < 2 ^ 32 := by decide
  have list : halvings 64 16 = [16, 8, 4, 2] := by decide
  obtain ⟨_, _, quotients, _, _, counted⟩ := halvings_exact 16 isWord
  rw [list] at quotients counted
  exact ⟨isWord, list, quotients, counted⟩

end DpuCycles
