import DpuCycles.Split.Cut

namespace DpuCycles

/-!
# Factorizations of a number

Of two factors of a number at least one is not above its root.  Trying the factors up to
the root therefore meets every pair at its smaller factor, and meets it once.  A pair is
listed with its mirror image, unless both are the same square.

The root need not be known.  A scan can square each factor until the square exceeds the
number.  With squares of 32 bits the scan comes to its end for all numbers below the
square of 65535.  From there on the square of 65536 would be needed, which is no 32-bit
word.
-/

variable
  {number factor across down : Nat}

section Pairs

/-- The pairs of a number with one of its factors, the greater one first. -/
def pairsAt
    (number factor : Nat) : List (Nat × Nat) :=
  if number % factor = 0 then
    (number / factor, factor) ::
      if factor = number / factor then [] else [(factor, number / factor)]
  else
    []

/-- A factor that divides stands in a pair and in its mirror image. -/
theorem mem_pairsAt
    {pair : Nat × Nat} :
    pair ∈ pairsAt number factor ↔
      factor ∣ number ∧
        (pair = (number / factor, factor) ∨ pair = (factor, number / factor)) := by
  unfold pairsAt
  by_cases divides : factor ∣ number
  · rw [if_pos (Nat.mod_eq_zero_of_dvd divides), and_iff_right divides, List.mem_cons]
    by_cases square : factor = number / factor
    · rw [if_pos square, ← square, or_self, or_iff_left List.not_mem_nil]
    · rw [if_neg square, List.mem_singleton]
  · rw [if_neg fun noRest => divides (Nat.dvd_of_mod_eq_zero noRest)]
    exact iff_of_false List.not_mem_nil fun pair => divides pair.1

/-- Up to the root the factor is the smaller one of its pairs. -/
theorem min_of_mem_pairsAt
    {pair : Nat × Nat}
    (positive : 0 < factor)
    (within : factor * factor ≤ number)
    (member : pair ∈ pairsAt number factor) :
    min pair.1 pair.2 = factor := by
  have smaller : factor ≤ number / factor := (Nat.le_div_iff_mul_le positive).mpr within
  obtain ⟨_, rfl | rfl⟩ := mem_pairsAt.mp member
  · exact Nat.min_eq_right smaller
  · exact Nat.min_eq_left smaller

/-- The factors up to the root give all pairs that are listed. -/
theorem factorPairs_eq_flatMap
    (number : Nat) :
    factorPairs number = (List.range' 1 (root number)).flatMap (pairsAt number) := by
  unfold factorPairs
  dsimp only
  generalize List.range' 1 (root number) = factors
  induction factors with
  | nil =>
      rfl
  | cons factor rest inductionHypothesis =>
      rw [List.flatMap_cons, ← inductionHypothesis]
      by_cases divides : number % factor = 0
      · have kept :
            (factor :: rest).filter (fun factor => number % factor == 0) =
              factor :: rest.filter fun factor => number % factor == 0 :=
          List.filter_cons_of_pos (beq_iff_eq.mpr divides)
        rw [kept, List.flatMap_cons, pairsAt, if_pos divides]
        by_cases square : factor = number / factor
        · rw [if_pos square, if_pos square, ← square]
        · rw [if_neg square, if_neg square]
      · have skipped :
            (factor :: rest).filter (fun factor => number % factor == 0) =
              rest.filter fun factor => number % factor == 0 :=
          List.filter_cons_of_neg fun noRest => divides (beq_iff_eq.mp noRest)
        rw [skipped, pairsAt, if_neg divides, List.nil_append]

/-- The factors up to the root are those whose square does not exceed the number. -/
theorem mem_range_root :
    factor ∈ List.range' 1 (root number) ↔ 0 < factor ∧ factor * factor ≤ number := by
  rw [List.mem_range'_1, ← le_root_iff, Nat.add_comm, Nat.lt_succ_iff]
  exact Iff.rfl

/-- A pair is listed exactly when its factors multiply to the number. -/
theorem mem_factorPairs :
    (across, down) ∈ factorPairs number ↔
      0 < across ∧ 0 < down ∧ across * down = number := by
  rw [factorPairs_eq_flatMap, List.mem_flatMap]
  constructor
  · rintro ⟨factor, isFactor, member⟩
    obtain ⟨positive, within⟩ := mem_range_root.mp isFactor
    have other : 0 < number / factor :=
      Nat.lt_of_lt_of_le positive ((Nat.le_div_iff_mul_le positive).mpr within)
    obtain ⟨divides, wide | narrow⟩ := mem_pairsAt.mp member
    · obtain ⟨rfl, rfl⟩ := Prod.mk.inj wide
      exact ⟨other, positive, Nat.div_mul_cancel divides⟩
    · obtain ⟨rfl, rfl⟩ := Prod.mk.inj narrow
      exact ⟨positive, other, Nat.mul_div_cancel' divides⟩
  · rintro ⟨acrossPositive, downPositive, rfl⟩
    -- The pair is met at its smaller factor, which is not above the root.
    rcases Nat.le_total across down with narrow | wide
    · have within : across * across ≤ across * down := Nat.mul_le_mul_left across narrow
      refine ⟨across, mem_range_root.mpr ⟨acrossPositive, within⟩, ?_⟩
      apply mem_pairsAt.mpr
      rw [Nat.mul_div_cancel_left down acrossPositive]
      exact ⟨Nat.dvd_mul_right across down, .inr rfl⟩
    · have within : down * down ≤ across * down := Nat.mul_le_mul_right down wide
      refine ⟨down, mem_range_root.mpr ⟨downPositive, within⟩, ?_⟩
      apply mem_pairsAt.mpr
      rw [Nat.mul_div_cancel across downPositive]
      exact ⟨Nat.dvd_mul_left down across, .inl rfl⟩

/-- Pairs come by rising smaller factor, and a wide pair right before its mirror image. -/
def PairBefore
    (former latter : Nat × Nat) : Prop :=
  min former.1 former.2 < min latter.1 latter.2 ∨
    former = latter.swap ∧ former.2 < former.1

theorem PairBefore.ne
    {former latter : Nat × Nat}
    (before : PairBefore former latter) :
    former ≠ latter := by
  rintro rfl
  rcases before with less | ⟨mirrored, wide⟩
  · exact Nat.lt_irrefl _ less
  · exact Nat.ne_of_gt wide (congrArg Prod.fst mirrored)

/-- Of a pair and its mirror image the wide one comes first. -/
theorem pairwise_pairsAt
    (positive : 0 < factor)
    (within : factor * factor ≤ number) :
    (pairsAt number factor).Pairwise PairBefore := by
  unfold pairsAt
  by_cases divides : number % factor = 0
  · rw [if_pos divides]
    by_cases square : factor = number / factor
    · rw [if_pos square]
      exact List.pairwise_singleton _ _
    · have smaller : factor ≤ number / factor := (Nat.le_div_iff_mul_le positive).mpr within
      rw [if_neg square]
      apply List.pairwise_pair.mpr
      exact .inr ⟨rfl, Nat.lt_of_le_of_ne smaller square⟩
  · rw [if_neg divides]
    exact List.Pairwise.nil

theorem pairwise_factorPairs
    (number : Nat) :
    (factorPairs number).Pairwise PairBefore := by
  rw [factorPairs_eq_flatMap]
  apply List.pairwise_flatMap.mpr
  constructor
  · intro factor member
    obtain ⟨positive, within⟩ := mem_range_root.mp member
    exact pairwise_pairsAt positive within
  · refine (List.pairwise_lt_range' 1).imp_of_mem ?_
    intro factor higher member higherMember rises former inFormer latter inLatter
    obtain ⟨positive, within⟩ := mem_range_root.mp member
    obtain ⟨higherPositive, higherWithin⟩ := mem_range_root.mp higherMember
    left
    rw [min_of_mem_pairsAt positive within inFormer,
      min_of_mem_pairsAt higherPositive higherWithin inLatter]
    exact rises

end Pairs

section Scan

/--
What a scan finds from a factor on.  Each round squares the factor in a 32-bit word.  The
scan ends when the square exceeds the number, and otherwise lists the pairs of the factor
and tries the next one.  A square that is no word leaves the scan without a result.
-/
inductive FactorScan (number : Nat) : Nat → List (Nat × Nat) → Prop where
  | ends
      {factor : Nat}
      (isWord : factor * factor < 2 ^ 32)
      (exceeds : number < factor * factor) :
      FactorScan number factor []
  | tries
      {factor : Nat}
      {later : List (Nat × Nat)}
      (isWord : factor * factor < 2 ^ 32)
      (within : factor * factor ≤ number)
      (next : FactorScan number (factor + 1) later) :
      FactorScan number factor (pairsAt number factor ++ later)

/--
From any factor up to the root, a scan finds the pairs of this factor and of those up to
the root.  It takes the square that follows the root.
-/
theorem factorScan_iff
    {found : List (Nat × Nat)}
    {rounds : Nat}
    (remaining : factor + rounds = root number + 1) :
    FactorScan number factor found ↔
      (root number + 1) * (root number + 1) < 2 ^ 32 ∧
        found = (List.range' factor rounds).flatMap (pairsAt number) := by
  -- The rounds left fall to zero at the factor behind the root, where the scan ends.
  induction rounds generalizing factor found with
  | zero =>
      obtain rfl : factor = root number + 1 := remaining
      have exceeds := (root_spec number).2
      constructor
      · intro scan
        cases scan with
        | ends isWord _ =>
            exact ⟨isWord, rfl⟩
        | tries _ within _ =>
            exact absurd within (Nat.not_le_of_lt exceeds)
      · rintro ⟨isWord, rfl⟩
        exact .ends isWord exceeds
  | succ rounds inductionHypothesis =>
      have within : factor * factor ≤ number := le_root_iff.mp (by omega)
      have remainingAfter : factor + 1 + rounds = root number + 1 := by
        omega
      rw [List.range'_succ, List.flatMap_cons]
      constructor
      · intro scan
        cases scan with
        | ends _ exceeds =>
            exact absurd within (Nat.not_le_of_lt exceeds)
        | tries _ _ next =>
            obtain ⟨isWord, rfl⟩ := (inductionHypothesis remainingAfter).mp next
            exact ⟨isWord, rfl⟩
      · rintro ⟨lastIsWord, rfl⟩
        have isWord : factor * factor < 2 ^ 32 :=
          Nat.lt_of_le_of_lt (Nat.mul_le_mul (by omega) (by omega)) lastIsWord
        exact .tries isWord within
          ((inductionHypothesis remainingAfter).mpr ⟨lastIsWord, rfl⟩)

/-- The square that follows the root is a 32-bit word for numbers below that of 65535. -/
theorem nextSquare_lt_iff :
    (root number + 1) * (root number + 1) < 2 ^ 32 ↔ number < 65535 * 65535 := by
  constructor
  · intro isWord
    have small : root number + 1 ≤ 65535 := by
      apply Nat.le_of_not_lt
      intro reached
      have square := Nat.mul_le_mul reached reached
      omega
    exact Nat.lt_of_lt_of_le (root_spec number).2 (Nat.mul_le_mul small small)
  · intro small
    have below : root number < 65535 := by
      apply Nat.lt_of_not_le
      intro reached
      exact Nat.not_le_of_lt small (le_root_iff.mp reached)
    exact Nat.lt_of_le_of_lt (Nat.mul_le_mul below below) (by decide)

end Scan

/--
The pairs of factors of a number are listed once each, and nothing else is listed.  They
come by rising smaller factor, and a wide pair before its mirror image.  A scan from one on
comes to its end for the numbers below the square of 65535, and finds just this list.
-/
theorem factorPairs_complete
    (number : Nat) :
    (∀ across down, (across, down) ∈ factorPairs number ↔
      0 < across ∧ 0 < down ∧ across * down = number) ∧
      (factorPairs number).Nodup ∧
      (factorPairs number).Pairwise PairBefore ∧
      ∀ found, FactorScan number 1 found ↔
        number < 65535 * 65535 ∧ found = factorPairs number := by
  have ordered := pairwise_factorPairs number
  refine ⟨fun _ _ => mem_factorPairs, ordered.imp PairBefore.ne, ordered, fun found => ?_⟩
  rw [factorScan_iff (Nat.add_comm 1 (root number)), nextSquare_lt_iff, factorPairs_eq_flatMap]

/-- Six has no square pair, and of four the pair of twos is listed once. -/
example :
    factorPairs 6 = [(6, 1), (1, 6), (3, 2), (2, 3)] ∧
      factorPairs 4 = [(4, 1), (1, 4), (2, 2)] := by
  cbv

end DpuCycles
