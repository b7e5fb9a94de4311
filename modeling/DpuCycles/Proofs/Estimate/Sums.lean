import DpuCycles.Proofs.Estimate.Scalars
import Mathlib.Algebra.GroupWithZero.Nat

namespace DpuCycles

namespace Cycles

/-!
# Sums of scalars

The first error of a sum wins, and counts are added and then clamped.  A clamp on
the way to a sum changes nothing: a sum of counts that reaches the limit stays
there.  No count becomes an error by it either, so an error is absorbed at the same
place however the scalars are grouped.
-/

variable {left right scalar : Nat}

theorem isError_eq_false_iff :
    isError scalar = false ↔ scalar ≤ limit := by
  rw [isError, decide_eq_false_iff_not, Nat.not_lt]

theorem add_of_isError_left
    (isCode : isError left = true) :
    add left right = left := by
  rw [add, if_pos isCode]

theorem add_of_isError_right
    (counts : isError left = false)
    (isCode : isError right = true) :
    add left right = right := by
  rw [add, if_neg (Bool.eq_false_iff.mp counts), if_pos isCode]

theorem add_of_counts
    (counts : isError left = false)
    (counts' : isError right = false) :
    add left right = clamp (left + right) := by
  rw [add, if_neg (Bool.eq_false_iff.mp counts), if_neg (Bool.eq_false_iff.mp counts')]

/-- A sum is an error exactly when one of its parts is. -/
theorem isError_add
    (left right : Nat) :
    isError (add left right) = (isError left || isError right) := by
  cases isLeft : isError left with
  | true =>
      rw [add_of_isError_left isLeft, isLeft, Bool.true_or]
  | false =>
      cases isRight : isError right with
      | true =>
          rw [add_of_isError_right isLeft isRight, isRight, Bool.false_or]
      | false =>
          rw [add_of_counts isLeft isRight, isError_clamp, Bool.false_or]

/-- A sum of 32-bit scalars is one of them. -/
theorem add_le_greatest
    (isWord : left ≤ greatest)
    (isWord' : right ≤ greatest) :
    add left right ≤ greatest := by
  have limitWithin : limit ≤ greatest := by decide
  unfold add
  split
  · exact isWord
  · split
    · exact isWord'
    · exact Nat.le_trans (Nat.min_le_right _ _) limitWithin

/-- What is added to a clamped count is added to the count. -/
theorem clamp_clamp_add
    (count more : Nat) :
    clamp (clamp count + more) = clamp (count + more) := by
  unfold clamp
  omega

theorem clamp_add_clamp
    (count more : Nat) :
    clamp (count + clamp more) = clamp (count + more) := by
  rw [Nat.add_comm, clamp_clamp_add, Nat.add_comm]

theorem add_assoc_of_counts
    {first second third : Nat}
    (firstCounts : isError first = false)
    (secondCounts : isError second = false)
    (thirdCounts : isError third = false) :
    add (add first second) third = add first (add second third) := by
  rw [add_of_counts firstCounts secondCounts, add_of_counts secondCounts thirdCounts,
    add_of_counts (isError_clamp _) thirdCounts, add_of_counts firstCounts (isError_clamp _),
    clamp_clamp_add, clamp_add_clamp, Nat.add_assoc]

/-- The first error of three scalars is their sum on both sides. -/
protected theorem add_assoc
    (first second third : Nat) :
    add (add first second) third = add first (add second third) := by
  cases isFirst : isError first with
  | true =>
      rw [add_of_isError_left isFirst, add_of_isError_left isFirst, add_of_isError_left isFirst]
  | false =>
      cases isSecond : isError second with
      | true =>
          rw [add_of_isError_right isFirst isSecond, add_of_isError_left isSecond,
            add_of_isError_right isFirst isSecond]
      | false =>
          cases isThird : isError third with
          | true =>
              have noneBefore : isError (add first second) = false := by
                rw [isError_add, isFirst, isSecond, Bool.false_or]
              rw [add_of_isError_right noneBefore isThird, add_of_isError_right isSecond isThird,
                add_of_isError_right isFirst isThird]
          | false =>
              exact add_assoc_of_counts isFirst isSecond isThird

theorem isError_zero : isError 0 = false :=
  rfl

protected theorem zero_add (scalar : Nat) : add 0 scalar = scalar := by
  cases isScalar : isError scalar with
  | true =>
      exact add_of_isError_right isError_zero isScalar
  | false =>
      rw [add_of_counts isError_zero isScalar, Nat.zero_add]
      exact Nat.min_eq_left (isError_eq_false_iff.mp isScalar)

protected theorem add_zero (scalar : Nat) : add scalar 0 = scalar := by
  cases isScalar : isError scalar with
  | true =>
      exact add_of_isError_left isScalar
  | false =>
      rw [add_of_counts isScalar isError_zero]
      exact Nat.min_eq_left (isError_eq_false_iff.mp isScalar)

instance : Std.Associative add := ⟨Cycles.add_assoc⟩

/-- A sum that is begun somewhere is what it begins with, and the sum of the rest. -/
theorem foldl_add
    (start : Nat)
    (scalars : List Nat) :
    scalars.foldl add start = add start (scalars.foldl add 0) := by
  calc scalars.foldl add start
      = scalars.foldl add (add start 0) := by rw [Cycles.add_zero]
    _ = add start (scalars.foldl add 0) := List.foldl_assoc

/-- The sum of scalars is the first error among them, or all of them together. -/
theorem foldl_add_zero (scalars : List Nat) :
    scalars.foldl add 0 = (scalars.find? isError).getD (clamp scalars.sum) := by
  induction scalars with
  | nil =>
      rfl
  | cons first rest inductionHypothesis =>
      rw [List.foldl_cons, foldl_add, Cycles.zero_add,
        inductionHypothesis]
      cases isFirst : isError first with
      | true =>
          rw [add_of_isError_left isFirst, List.find?_cons_of_pos isFirst, Option.getD_some]
      | false =>
          rw [List.find?_cons_of_neg (Bool.eq_false_iff.mp isFirst)]
          cases found : rest.find? isError with
          | some code =>
              exact add_of_isError_right isFirst (List.find?_some found)
          | none =>
              rw [Option.getD_none, Option.getD_none, add_of_counts isFirst (isError_clamp _),
                clamp_add_clamp, List.sum_cons]

/-- A sum is an error exactly when it meets one. -/
theorem isError_foldl_add (scalars : List Nat) :
    isError (scalars.foldl add 0) = scalars.any isError := by
  induction scalars with
  | nil =>
      rfl
  | cons first rest inductionHypothesis =>
      rw [List.foldl_cons, foldl_add, Cycles.zero_add, isError_add,
        inductionHypothesis, List.any_cons]

/-- Each running sum is the sum of the scalars so far. -/
theorem runningSums_eq_map
    (start : Nat)
    (scalars : List Nat) :
    runningSums start scalars =
      (List.range scalars.length).map fun position =>
        (scalars.take (position + 1)).foldl add start := by
  induction scalars generalizing start with
  | nil =>
      rfl
  | cons first rest inductionHypothesis =>
      rw [runningSums, inductionHypothesis, List.length_cons, List.range_succ_eq_map,
        List.map_cons, List.map_map]
      rfl

/-- A way to add scalars in an order, two sums at a time. -/
inductive Grouping where
  | nothing
  | single (scalar : Nat)
  | pair (left right : Grouping)

namespace Grouping

/-- The scalars in order. -/
def scalars : Grouping → List Nat
  | nothing => []
  | single scalar => [scalar]
  | pair left right => left.scalars ++ right.scalars

/-- The sum that a grouping leads to. -/
def total : Grouping → Nat
  | nothing => 0
  | single scalar => scalar
  | pair left right => add left.total right.total

/-- Every grouping leads to the sum of the scalars one after another. -/
theorem total_eq_foldl (grouping : Grouping) :
    grouping.total = grouping.scalars.foldl add 0 := by
  induction grouping with
  | nothing =>
      rfl
  | single scalar =>
      exact (Cycles.zero_add scalar).symm
  | pair left right leftHypothesis rightHypothesis =>
      rw [total, scalars, List.foldl_append, foldl_add, leftHypothesis, rightHypothesis]

end Grouping

/--
Addition of 32-bit scalars stays among them, is associative and has zero as its
identity.  The sum of scalars is the first error code among them, or else their exact
sum clamped to the limit, and it is an error code only if there is one among them.
Running sums are the sums of the scalars so far, and no grouping changes a sum.
-/
theorem sums_firstErrorOrExact :
    (∀ left right, left ≤ greatest → right ≤ greatest → add left right ≤ greatest) ∧
      (∀ first second third, add (add first second) third = add first (add second third)) ∧
      (∀ scalar, add 0 scalar = scalar ∧ add scalar 0 = scalar) ∧
      (∀ scalars : List Nat,
        scalars.foldl add 0 = (scalars.find? isError).getD (min scalars.sum limit) ∧
          isError (scalars.foldl add 0) = scalars.any isError ∧
          runningSums 0 scalars =
            (List.range scalars.length).map fun position =>
              (scalars.take (position + 1)).foldl add 0) ∧
      ∀ grouping : Grouping, grouping.total = grouping.scalars.foldl add 0 := by
  refine ⟨fun left right => add_le_greatest, Cycles.add_assoc, fun scalar => ?_,
    fun scalars => ?_, Grouping.total_eq_foldl⟩
  · exact ⟨Cycles.zero_add scalar, Cycles.add_zero scalar⟩
  · exact ⟨foldl_add_zero scalars, isError_foldl_add scalars, runningSums_eq_map 0 scalars⟩

/-- Counts reach the limit and stay there, and an error wins behind them in any grouping. -/
theorem sums_atLimit :
    add (limit - 1) greatest ≤ greatest ∧
      [limit - 1, 7, limit].foldl add 0 = limit ∧
      [limit - 1, 7, greatest, limit + 1].foldl add 0 = greatest ∧
      (Grouping.pair (.single (limit - 1)) (.pair (.single 7) (.single greatest))).total =
        greatest := by
  obtain ⟨inWords, _, _, lists, groupings⟩ := sums_firstErrorOrExact
  refine ⟨inWords (limit - 1) greatest (by decide) (Nat.le_refl _), ?_, ?_, ?_⟩
  · exact (lists [limit - 1, 7, limit]).1.trans (by decide)
  · exact (lists [limit - 1, 7, greatest, limit + 1]).1.trans (by decide)
  · exact (groupings _).trans (by decide)

end Cycles

end DpuCycles
