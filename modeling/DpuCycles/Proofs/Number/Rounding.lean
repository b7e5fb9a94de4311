import DpuCycles.Number.Multiple
import DpuCycles.Number.Rounded
import Mathlib.Algebra.Order.Field.Power
import Mathlib.Algebra.Order.Floor.Semifield
import Mathlib.Data.Rat.Floor
import Mathlib.Tactic.FieldSimp
import Mathlib.Tactic.Linarith
import Mathlib.Tactic.Positivity
import Mathlib.Tactic.Ring

namespace DpuCycles

namespace Rounded

/-!
# Rounding and the exact results

A finite quantity is worth a rational.  Each operation rounds the exact result: the
greatest power of two that is not above it gives a unit, and the nearest multiple of
that unit is taken, an even one on a tie.

Rounding keeps the order of exact results.  So each operation keeps the order of its
operands.
-/

section Nearest

/-- Whether a natural is the nearest one, even if there are two. -/
structure IsNearest
    (whole : Nat)
    (exact : ℚ) : Prop where
  near : |exact - whole| ≤ 1 / 2
  even : |exact - whole| = 1 / 2 → whole % 2 = 0

variable
  {whole whole' : Nat}
  {exact exact' : ℚ}

theorem isNearest_of_abs_lt (near : |exact - whole| < 1 / 2) : IsNearest whole exact :=
  ⟨near.le, fun tie => absurd tie near.ne⟩

theorem isNearest_natCast (whole : Nat) : IsNearest whole whole :=
  isNearest_of_abs_lt (by norm_num)

theorem IsNearest.mono
    (nearest : IsNearest whole exact)
    (nearest' : IsNearest whole' exact')
    (within : exact ≤ exact') :
    whole ≤ whole' := by
  by_contra above
  have next : (whole' : ℚ) + 1 ≤ whole := by exact_mod_cast Nat.lt_of_not_le above
  have low := abs_le.mp nearest.near
  have high := abs_le.mp nearest'.near
  -- Both lie in the middle between two naturals, of which only one is even.
  have even : whole % 2 = 0 :=
    nearest.even (by rw [abs_of_nonpos] <;> linarith)
  have even' : whole' % 2 = 0 :=
    nearest'.even (by rw [abs_of_nonneg] <;> linarith)
  have neighbour : whole = whole' + 1 := by
    have : (whole : ℚ) = whole' + 1 := by linarith
    exact_mod_cast this
  omega

/-- A fraction is compared with a half, and the whole part decides a tie. -/
theorem isNearest_add_fraction
    {fraction : ℚ}
    (whole : Nat)
    (nonnegative : 0 ≤ fraction)
    (belowOne : fraction < 1) :
    IsNearest
      (if fraction < 1 / 2 then
        whole
      else if 1 / 2 < fraction then
        whole + 1
      else
        whole + whole % 2)
      (whole + fraction) := by
  split
  · exact isNearest_of_abs_lt (abs_lt.mpr ⟨by linarith, by linarith⟩)
  · split
    · refine isNearest_of_abs_lt (abs_lt.mpr ?_)
      push_cast
      exact ⟨by linarith, by linarith⟩
    · have half : fraction = 1 / 2 := by linarith
      obtain even | odd := Nat.mod_two_eq_zero_or_one whole
      · rw [even, half]
        exact ⟨by norm_num, fun _ => even⟩
      · rw [odd, half]
        exact ⟨by norm_num, fun _ => by omega⟩

theorem isNearest_nearestQuotient
    {dividend divisor : Nat}
    (positive : 0 < divisor) :
    IsNearest (nearestQuotient dividend divisor) (dividend / divisor) := by
  have scale : (0 : ℚ) < divisor := by exact_mod_cast positive
  have parts :
      (dividend : ℚ) / divisor =
        (dividend / divisor : Nat) + (dividend % divisor : Nat) / (divisor : ℚ) := by
    have divided :
        (divisor : ℚ) * (dividend / divisor : Nat) + (dividend % divisor : Nat) = dividend := by
      exact_mod_cast Nat.div_add_mod dividend divisor
    nth_rewrite 1 [← divided]
    field_simp
  have nonnegative : (0 : ℚ) ≤ (dividend % divisor : Nat) / divisor := by positivity
  have belowOne : ((dividend % divisor : Nat) : ℚ) / divisor < 1 := by
    rw [div_lt_one scale]
    exact_mod_cast Nat.mod_lt dividend positive
  have belowHalf :
      2 * (dividend % divisor) < divisor ↔
        ((dividend % divisor : Nat) : ℚ) / divisor < 1 / 2 := by
    rw [div_lt_div_iff₀ scale two_pos, one_mul, mul_comm]
    norm_cast
  have aboveHalf :
      divisor < 2 * (dividend % divisor) ↔
        1 / 2 < ((dividend % divisor : Nat) : ℚ) / divisor := by
    rw [div_lt_div_iff₀ two_pos scale, one_mul, mul_comm _ (2 : ℚ)]
    norm_cast
  rw [parts, nearestQuotient]
  simp only [belowHalf, aboveHalf]
  exact isNearest_add_fraction _ nonnegative belowOne

end Nearest

section Units

/-- The unit of the exact quantities from `2 ^ exponent` on, below the next power of two. -/
def unitExponent (exponent : Int) : Int :=
  exponent + 1 - precision

/-- A rational and what it is rounded to. -/
inductive IsRounded : ℚ → ℚ → Prop where
  | zero : IsRounded 0 0
  | nearest
      {exact : ℚ}
      {exponent : Int}
      {significand : Nat}
      (least : 2 ^ exponent ≤ exact)
      (most : exact < 2 ^ (exponent + 1))
      (nearest : IsNearest significand (exact / 2 ^ unitExponent exponent)) :
      IsRounded exact (significand * 2 ^ unitExponent exponent)

variable {exact exact' rounded rounded' : ℚ}

/-- A power of two is a whole number of the units below it. -/
theorem power_eq_units
    (exponent : Int)
    (bits : Nat) :
    (2 : ℚ) ^ exponent = (2 ^ bits : Nat) * 2 ^ (exponent - bits) := by
  rw [Nat.cast_pow, Nat.cast_ofNat, ← zpow_natCast, ← zpow_add₀ two_ne_zero]
  congr 1
  omega

/-- A nearest multiple of the unit stays within the powers of two around the exact quantity. -/
theorem IsNearest.powers
    {exponent : Int}
    {significand : Nat}
    (nearest : IsNearest significand (exact / 2 ^ unitExponent exponent))
    (least : 2 ^ exponent ≤ exact)
    (most : exact < 2 ^ (exponent + 1)) :
    (2 : ℚ) ^ exponent ≤ significand * 2 ^ unitExponent exponent ∧
      (significand : ℚ) * 2 ^ unitExponent exponent ≤ 2 ^ (exponent + 1) := by
  have unit : (0 : ℚ) < 2 ^ unitExponent exponent := zpow_pos two_pos _
  have low : (2 : ℚ) ^ exponent = (2 ^ 52 : Nat) * 2 ^ unitExponent exponent := by
    rw [power_eq_units exponent 52]
    congr 2
    unfold unitExponent precision
    omega
  have high : (2 : ℚ) ^ (exponent + 1) = (2 ^ 53 : Nat) * 2 ^ unitExponent exponent :=
    power_eq_units (exponent + 1) 53
  rw [low] at least ⊢
  rw [high] at most ⊢
  have notBelow : 2 ^ 52 ≤ significand :=
    (isNearest_natCast _).mono nearest ((le_div_iff₀ unit).mpr least)
  have notAbove : significand ≤ 2 ^ 53 :=
    nearest.mono (isNearest_natCast _) ((div_le_iff₀ unit).mpr most.le)
  constructor
  · gcongr
  · gcongr

theorem IsRounded.nonneg (isRounded : IsRounded exact rounded) : 0 ≤ rounded := by
  cases isRounded with
  | zero => exact le_rfl
  | nearest => positivity

theorem IsRounded.pos
    (isRounded : IsRounded exact rounded)
    (positive : 0 < exact) :
    0 < rounded := by
  cases isRounded with
  | zero => exact positive
  | nearest least most nearest =>
      exact lt_of_lt_of_le (zpow_pos two_pos _) (nearest.powers least most).1

/-- Greater quantities are not rounded to less. -/
theorem IsRounded.mono
    (isRounded : IsRounded exact rounded)
    (isRounded' : IsRounded exact' rounded')
    (within : exact ≤ exact') :
    rounded ≤ rounded' := by
  cases isRounded with
  | zero => exact isRounded'.nonneg
  | @nearest _ exponent significand least most nearest =>
      cases isRounded' with
      | zero => exact absurd within (not_le.mpr (lt_of_lt_of_le (zpow_pos two_pos _) least))
      | @nearest _ exponent' significand' least' most' nearest' =>
          obtain below | rfl | above := lt_trichotomy exponent exponent'
          · calc (significand : ℚ) * 2 ^ unitExponent exponent
                ≤ 2 ^ (exponent + 1) := (nearest.powers least most).2
              _ ≤ 2 ^ exponent' := zpow_le_zpow_right₀ one_le_two below
              _ ≤ significand' * 2 ^ unitExponent exponent' := (nearest'.powers least' most').1
          · have unit : (0 : ℚ) < 2 ^ unitExponent exponent := zpow_pos two_pos _
            have ordered : significand ≤ significand' :=
              nearest.mono nearest' (by gcongr)
            gcongr
          · have reached : (2 : ℚ) ^ (exponent' + 1) ≤ 2 ^ exponent :=
              zpow_le_zpow_right₀ one_le_two above
            linarith

/-- Powers of two do not matter to rounding. -/
theorem IsRounded.scale
    (isRounded : IsRounded exact rounded)
    (exponent : Int) :
    IsRounded (exact * 2 ^ exponent) (rounded * 2 ^ exponent) := by
  have scale : (0 : ℚ) < 2 ^ exponent := zpow_pos two_pos _
  cases isRounded with
  | zero =>
      rw [zero_mul]
      exact .zero
  | @nearest _ start significand least most nearest =>
      have powers (start : Int) : (2 : ℚ) ^ (start + exponent) = 2 ^ start * 2 ^ exponent :=
        zpow_add₀ two_ne_zero start exponent
      have unit : unitExponent (start + exponent) = unitExponent start + exponent := by
        unfold unitExponent
        omega
      rw [mul_assoc, ← powers, ← unit]
      refine .nearest ?_ ?_ ?_
      · rw [powers]
        gcongr
      · rw [add_right_comm, powers]
        gcongr
      · rw [unit, powers, mul_div_mul_right _ _ scale.ne']
        exact nearest

theorem power_log2_le
    {value : Nat}
    (positive : 0 < value) :
    (2 : ℚ) ^ (value.log2 : Int) ≤ value := by
  rw [zpow_natCast]
  exact_mod_cast Nat.log2_self_le positive.ne'

theorem lt_power_log2 (value : Nat) : (value : ℚ) < 2 ^ (value.log2 + 1 : Int) := by
  have below : value < 2 ^ (value.log2 + 1) := Nat.lt_log2_self
  exact_mod_cast below

/-- What fits the significant bits is not changed. -/
theorem isRounded_natCast
    {value : Nat}
    (fits : value < 2 ^ precision) :
    IsRounded value value := by
  obtain rfl | positive := Nat.eq_zero_or_pos value
  · exact_mod_cast IsRounded.zero
  · have bits : value.log2 < 53 := (Nat.log2_lt positive.ne').mpr fits
    obtain ⟨missing, isMissing⟩ : ∃ missing : Nat, unitExponent value.log2 = -missing :=
      ⟨52 - value.log2, by unfold unitExponent precision; omega⟩
    have whole : (value : ℚ) = (value * 2 ^ missing : Nat) * 2 ^ unitExponent value.log2 := by
      rw [isMissing, zpow_neg, zpow_natCast, Nat.cast_mul, Nat.cast_pow, Nat.cast_ofNat,
        mul_assoc, mul_inv_cancel₀ (by positivity), mul_one]
    have nearest :
        IsNearest (value * 2 ^ missing) ((value : ℚ) / 2 ^ unitExponent value.log2) := by
      rw [(div_eq_iff (zpow_pos two_pos _).ne').mpr whole]
      exact isNearest_natCast _
    have isRounded := IsRounded.nearest (power_log2_le positive) (lt_power_log2 value) nearest
    rwa [← whole] at isRounded

end Units

section Worth

/-- What a finite quantity is worth. -/
def worth : Rounded → Option ℚ
  | .finite significand exponent => some (significand * 2 ^ exponent)
  | .undefined | .infinite => none

/-- Whether a quantity is worth a rational after rounding. -/
def Rounds
    (quantity : Rounded)
    (exact : ℚ) : Prop :=
  ∃ rounded, quantity.worth = some rounded ∧ IsRounded exact rounded

theorem rounds_of_isRounded
    {exact : ℚ}
    {significand : Nat}
    {unit : Int}
    (isRounded : IsRounded exact (significand * 2 ^ unit))
    (exponent : Int) :
    (finite significand (exponent + unit)).Rounds (exact * 2 ^ exponent) := by
  refine ⟨_, rfl, ?_⟩
  rw [add_comm, zpow_add₀ two_ne_zero, ← mul_assoc]
  exact isRounded.scale exponent

theorem normalize_rounds
    (value : Nat)
    (exponent : Int) :
    (normalize value exponent).Rounds (value * 2 ^ exponent) := by
  unfold normalize
  split
  · rename_i fits
    exact ⟨_, rfl, (isRounded_natCast fits).scale exponent⟩
  · rename_i wide
    have many : 2 ^ precision ≤ value := Nat.le_of_not_lt wide
    have positive : 0 < value := Nat.lt_of_lt_of_le (Nat.two_pow_pos _) many
    have bits : precision ≤ value.log2 := (Nat.le_log2 positive.ne').mpr many
    have unit : unitExponent value.log2 = (value.log2 + 1 - precision : Nat) := by
      unfold unitExponent
      omega
    have nearest :
        IsNearest (nearestQuotient value (2 ^ (value.log2 + 1 - precision)))
          (value / (2 ^ (value.log2 + 1 - precision) : Nat)) :=
      isNearest_nearestQuotient (Nat.two_pow_pos _)
    rw [Nat.cast_pow, Nat.cast_ofNat, ← zpow_natCast, ← unit] at nearest
    have isRounded := IsRounded.nearest (power_log2_le positive) (lt_power_log2 value) nearest
    rw [unit] at isRounded
    exact rounds_of_isRounded isRounded exponent

theorem ofNat_rounds (count : Nat) : (ofNat count).Rounds count := by
  have rounds := normalize_rounds count 0
  rwa [zpow_zero, mul_one] at rounds

theorem power_of_neg
    {exponent : Int}
    (negative : exponent < 0) :
    (2 : ℚ) ^ exponent = ((2 ^ exponent.natAbs : Nat) : ℚ)⁻¹ := by
  obtain ⟨count, rfl⟩ := Int.eq_negSucc_of_lt_zero negative
  simp [zpow_negSucc]

theorem power_of_nonneg
    {exponent : Int}
    (nonnegative : 0 ≤ exponent) :
    (2 : ℚ) ^ exponent = (2 ^ exponent.natAbs : Nat) := by
  obtain ⟨count, rfl⟩ := Int.eq_ofNat_of_zero_le nonnegative
  simp

section Quotients

variable {dividend divisor : Nat}

/-- A quotient is divided by a power of two with a shift of one of its parts. -/
theorem quotient_div_power
    (dividend divisor : Nat)
    (exponent : Int) :
    (dividend / divisor : ℚ) / 2 ^ exponent =
      if exponent < 0 then
        ((dividend <<< exponent.natAbs : Nat) : ℚ) / divisor
      else
        dividend / ((divisor <<< exponent.natAbs : Nat) : ℚ) := by
  split
  · rename_i negative
    rw [power_of_neg negative, div_inv_eq_mul, Nat.shiftLeft_eq, Nat.cast_mul, div_mul_eq_mul_div]
  · rename_i nonnegative
    rw [power_of_nonneg (Int.not_lt.mp nonnegative), Nat.shiftLeft_eq, Nat.cast_mul, div_div]

/-- The exponent of a quotient is that of the greatest power of two not above it. -/
theorem quotientExponent_powers
    (dividendPositive : 0 < dividend)
    (divisorPositive : 0 < divisor) :
    (2 : ℚ) ^ quotientExponent dividend divisor ≤ dividend / divisor ∧
      (dividend / divisor : ℚ) < 2 ^ (quotientExponent dividend divisor + 1) := by
  have scale : (0 : ℚ) < divisor := by exact_mod_cast divisorPositive
  have low := power_log2_le dividendPositive
  have high := lt_power_log2 dividend
  have divisorLow := power_log2_le divisorPositive
  have divisorHigh := lt_power_log2 divisor
  unfold quotientExponent
  generalize isGuess : (dividend.log2 : Int) - divisor.log2 = guess
  have reaches :
      (if guess < 0 then
          decide (divisor ≤ dividend <<< guess.natAbs)
        else
          decide (divisor <<< guess.natAbs ≤ dividend)) = true ↔
        (2 : ℚ) ^ guess ≤ dividend / divisor := by
    have unit : (0 : ℚ) < 2 ^ guess := zpow_pos two_pos _
    rw [← one_le_div unit, quotient_div_power]
    split
    · rw [one_le_div scale, decide_eq_true_eq, Nat.cast_le]
    · have shifted : (0 : ℚ) < (divisor <<< guess.natAbs : Nat) := by
        rw [Nat.shiftLeft_eq]
        positivity
      rw [one_le_div shifted, decide_eq_true_eq, Nat.cast_le]
  -- The leading bits bound the quotient by the powers beside the guess.
  have above : (dividend / divisor : ℚ) < 2 ^ (guess + 1) := by
    rw [div_lt_iff₀ scale]
    calc (dividend : ℚ)
        < 2 ^ (dividend.log2 + 1 : Int) := high
      _ = 2 ^ (guess + 1) * 2 ^ (divisor.log2 : Int) := by
          rw [← zpow_add₀ two_ne_zero]
          congr 1
          omega
      _ ≤ 2 ^ (guess + 1) * divisor := by gcongr
  have below : (2 : ℚ) ^ (guess - 1) ≤ dividend / divisor := by
    rw [le_div_iff₀ scale]
    calc (2 : ℚ) ^ (guess - 1) * divisor
        ≤ 2 ^ (guess - 1) * 2 ^ (divisor.log2 + 1 : Int) := by gcongr
      _ = 2 ^ (dividend.log2 : Int) := by
          rw [← zpow_add₀ two_ne_zero]
          congr 1
          omega
      _ ≤ dividend := low
  simp only [reaches]
  split
  · rename_i reached
    exact ⟨reached, above⟩
  · rename_i missed
    rw [Int.sub_add_cancel]
    exact ⟨below, not_le.mp missed⟩

theorem ofQuotient_rounds
    (dividendPositive : 0 < dividend)
    (divisorPositive : 0 < divisor)
    (exponent : Int) :
    (ofQuotient dividend divisor exponent).Rounds (dividend / divisor * 2 ^ exponent) := by
  obtain ⟨least, most⟩ := quotientExponent_powers dividendPositive divisorPositive
  have shifted :=
    quotient_div_power dividend divisor (unitExponent (quotientExponent dividend divisor))
  unfold ofQuotient
  change Rounds (if unitExponent _ < 0 then _ else _) _
  split
  · rename_i negative
    rw [if_pos negative] at shifted
    refine rounds_of_isRounded (.nearest least most ?_) exponent
    rw [shifted]
    exact isNearest_nearestQuotient divisorPositive
  · rename_i nonnegative
    rw [if_neg nonnegative] at shifted
    refine rounds_of_isRounded (.nearest least most ?_) exponent
    rw [shifted]
    refine isNearest_nearestQuotient ?_
    rw [Nat.shiftLeft_eq]
    positivity

end Quotients

section Operations

variable
  {left right : Rounded}
  {leftWorth rightWorth : ℚ}

theorem worth_eq_some_iff :
    left.worth = some leftWorth ↔
      ∃ significand exponent, left = .finite significand exponent ∧
        significand * 2 ^ exponent = leftWorth := by
  cases left <;> simp [worth]

/-- A quantity is worth the same in a smaller unit. -/
theorem shiftLeft_mul_power
    {exponent unit : Int}
    (significand : Nat)
    (within : unit ≤ exponent) :
    ((significand <<< (exponent - unit).toNat : Nat) : ℚ) * 2 ^ unit =
      significand * 2 ^ exponent := by
  rw [Nat.shiftLeft_eq, Nat.cast_mul, Nat.cast_pow, Nat.cast_ofNat, ← zpow_natCast, mul_assoc,
    ← zpow_add₀ two_ne_zero]
  congr 2
  omega

theorem add_rounds
    (isLeft : left.worth = some leftWorth)
    (isRight : right.worth = some rightWorth) :
    (left + right).Rounds (leftWorth + rightWorth) := by
  obtain ⟨a, i, rfl, rfl⟩ := worth_eq_some_iff.mp isLeft
  obtain ⟨b, j, rfl, rfl⟩ := worth_eq_some_iff.mp isRight
  rw [← shiftLeft_mul_power a (min_le_left i j), ← shiftLeft_mul_power b (min_le_right i j),
    ← add_mul, ← Nat.cast_add]
  exact normalize_rounds _ _

theorem mul_rounds
    (isLeft : left.worth = some leftWorth)
    (isRight : right.worth = some rightWorth) :
    (left * right).Rounds (leftWorth * rightWorth) := by
  obtain ⟨a, i, rfl, rfl⟩ := worth_eq_some_iff.mp isLeft
  obtain ⟨b, j, rfl, rfl⟩ := worth_eq_some_iff.mp isRight
  rw [mul_mul_mul_comm, ← Nat.cast_mul, ← zpow_add₀ two_ne_zero]
  exact normalize_rounds _ _

theorem div_rounds
    (isLeft : left.worth = some leftWorth)
    (isRight : right.worth = some rightWorth)
    (positive : 0 < rightWorth) :
    (left / right).Rounds (leftWorth / rightWorth) := by
  obtain ⟨a, i, rfl, rfl⟩ := worth_eq_some_iff.mp isLeft
  obtain ⟨b, j, rfl, rfl⟩ := worth_eq_some_iff.mp isRight
  have divisor : 0 < b := by
    refine Nat.pos_of_ne_zero ?_
    rintro rfl
    simp at positive
  change Rounds (if b = 0 then _ else if a = 0 then zero else ofQuotient a b (i - j)) _
  obtain rfl | dividend := Nat.eq_zero_or_pos a
  · rw [if_neg divisor.ne', if_pos rfl, Nat.cast_zero, zero_mul, zero_div]
    exact ⟨0, by simp [zero, worth], .zero⟩
  · rw [if_neg divisor.ne', if_neg dividend.ne', mul_div_mul_comm, ← zpow_sub₀ two_ne_zero]
    exact ofQuotient_rounds dividend divisor _

theorem ceil_quotient
    {dividend divisor : Nat}
    (positive : 0 < divisor) :
    ⌈(dividend / divisor : ℚ)⌉₊ = ceilDiv dividend divisor := by
  have scale : (0 : ℚ) < divisor := by exact_mod_cast positive
  refine eq_of_forall_ge_iff fun bound => ?_
  rw [Nat.ceil_le, div_le_iff₀ scale, ceilDiv_le_iff positive]
  norm_cast

theorem worth_ceil (isLeft : left.worth = some leftWorth) :
    left.ceil.worth = some (⌈leftWorth⌉₊ : ℚ) := by
  obtain ⟨a, i, rfl, rfl⟩ := worth_eq_some_iff.mp isLeft
  rw [ceil]
  split
  · rename_i negative
    rw [power_of_neg negative, ← div_eq_mul_inv, ceil_quotient (Nat.two_pow_pos _), worth,
      zpow_zero, mul_one, ceilDiv]
  · rename_i nonnegative
    rw [worth, power_of_nonneg (Int.not_lt.mp nonnegative), ← Nat.cast_mul, Nat.ceil_natCast]

theorem toNat_eq (isLeft : left.worth = some leftWorth) :
    left.toNat = min ⌊leftWorth⌋₊ greatestCount := by
  obtain ⟨a, i, rfl, rfl⟩ := worth_eq_some_iff.mp isLeft
  rw [toNat]
  split
  · rename_i negative
    rw [power_of_neg negative, ← div_eq_mul_inv, Nat.floor_div_eq_div]
  · rename_i nonnegative
    rw [power_of_nonneg (Int.not_lt.mp nonnegative), ← Nat.cast_mul, Nat.floor_natCast,
      Nat.shiftLeft_eq]

end Operations

end Worth

section Order

/-- Finite quantities in order. -/
def AtMost
    (quantity bound : Rounded) : Prop :=
  ∃ worth worth', quantity.worth = some worth ∧ bound.worth = some worth' ∧ worth ≤ worth'

/-- Whether a quantity is finite and not zero. -/
def IsPositive (quantity : Rounded) : Prop :=
  ∃ worth, quantity.worth = some worth ∧ 0 < worth

variable
  {left left' right right' : Rounded}
  {exact exact' : ℚ}

theorem worth_nonneg
    {worth : ℚ}
    (isWorth : left.worth = some worth) :
    0 ≤ worth := by
  obtain ⟨significand, exponent, _, rfl⟩ := worth_eq_some_iff.mp isWorth
  positivity

theorem Rounds.atMost
    (rounds : left.Rounds exact)
    (rounds' : right.Rounds exact')
    (within : exact ≤ exact') :
    left.AtMost right := by
  obtain ⟨rounded, isWorth, isRounded⟩ := rounds
  obtain ⟨rounded', isWorth', isRounded'⟩ := rounds'
  exact ⟨rounded, rounded', isWorth, isWorth', isRounded.mono isRounded' within⟩

theorem Rounds.isPositive
    (rounds : left.Rounds exact)
    (positive : 0 < exact) :
    left.IsPositive := by
  obtain ⟨rounded, isWorth, isRounded⟩ := rounds
  exact ⟨rounded, isWorth, isRounded.pos positive⟩

theorem ofNat_atMost
    {count count' : Nat}
    (within : count ≤ count') :
    (ofNat count).AtMost (ofNat count') :=
  (ofNat_rounds count).atMost (ofNat_rounds count') (by exact_mod_cast within)

theorem ofNat_atMost_self (count : Nat) : (ofNat count).AtMost (ofNat count) :=
  ofNat_atMost (Nat.le_refl count)

theorem isPositive_ofNat
    {count : Nat}
    (positive : 0 < count) :
    (ofNat count).IsPositive :=
  (ofNat_rounds count).isPositive (by exact_mod_cast positive)

theorem IsPositive.mul
    (isPositive : left.IsPositive)
    (isPositive' : right.IsPositive) :
    (left * right).IsPositive := by
  obtain ⟨worth, isWorth, positive⟩ := isPositive
  obtain ⟨worth', isWorth', positive'⟩ := isPositive'
  exact (mul_rounds isWorth isWorth').isPositive (mul_pos positive positive')

theorem AtMost.add
    (atMost : left.AtMost left')
    (atMost' : right.AtMost right') :
    (left + right).AtMost (left' + right') := by
  obtain ⟨_, _, isLeft, isLeft', within⟩ := atMost
  obtain ⟨_, _, isRight, isRight', within'⟩ := atMost'
  exact (add_rounds isLeft isRight).atMost (add_rounds isLeft' isRight')
    (add_le_add within within')

theorem AtMost.mul
    (atMost : left.AtMost left')
    (atMost' : right.AtMost right') :
    (left * right).AtMost (left' * right') := by
  obtain ⟨_, _, isLeft, isLeft', within⟩ := atMost
  obtain ⟨_, _, isRight, isRight', within'⟩ := atMost'
  exact (mul_rounds isLeft isRight).atMost (mul_rounds isLeft' isRight')
    (mul_le_mul within within' (worth_nonneg isRight) (worth_nonneg isLeft'))

theorem AtMost.div
    (atMost : left.AtMost left')
    (isPositive : right.IsPositive) :
    (left / right).AtMost (left' / right) := by
  obtain ⟨_, _, isLeft, isLeft', within⟩ := atMost
  obtain ⟨_, isRight, positive⟩ := isPositive
  exact (div_rounds isLeft isRight positive).atMost (div_rounds isLeft' isRight positive)
    (div_le_div_of_nonneg_right within positive.le)

theorem AtMost.ceil (atMost : left.AtMost right) :
    left.ceil.AtMost right.ceil := by
  obtain ⟨_, _, isLeft, isRight, within⟩ := atMost
  exact ⟨_, _, worth_ceil isLeft, worth_ceil isRight, by exact_mod_cast Nat.ceil_mono within⟩

theorem AtMost.toNat_le (atMost : left.AtMost right) :
    left.toNat ≤ right.toNat := by
  obtain ⟨_, _, isLeft, isRight, within⟩ := atMost
  rw [toNat_eq isLeft, toNat_eq isRight]
  exact min_le_min_right _ (Nat.floor_mono within)

end Order

end Rounded

end DpuCycles
