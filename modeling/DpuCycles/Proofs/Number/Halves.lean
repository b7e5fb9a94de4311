import DpuCycles.Number.Half
import DpuCycles.Proofs.Number.Rounding

namespace DpuCycles

/-!
# The nearest half

The bits of a magnitude count the values of a format in rising order.  A quantity is
rounded to the value nearest to it, of two to the one with even bits, where infinity
stands for the power of two behind the greatest finite value.  So a single float that is
stored as a half and read again is the nearest half.
-/

namespace Interchange

/-- What the bits of a magnitude are worth, infinity those of the next power of two. -/
def worth
    (format : Interchange)
    (bits : Nat) : ℚ :=
  let exponent := bits / 2 ^ format.fractionBits
  let fraction := bits % 2 ^ format.fractionBits
  if exponent = 0 then
    fraction * 2 ^ format.leastExponent
  else
    (2 ^ format.fractionBits + fraction : Nat) *
      2 ^ (format.leastExponent + (exponent - 1 : Nat))

/-- The bits of the value nearest to a quantity, even ones if two are as near. -/
structure IsNearest
    (format : Interchange)
    (exact : ℚ)
    (bits : Nat) : Prop where
  within : bits ≤ format.infinity
  near : ∀ other ≤ format.infinity, |exact - format.worth bits| ≤ |exact - format.worth other|
  even : ∀ other ≤ format.infinity, other ≠ bits →
    |exact - format.worth other| = |exact - format.worth bits| → bits % 2 = 0

variable {format : Interchange} {exact : ℚ} {binade units : Nat}

theorem worth_eq
    (format : Interchange)
    (bits : Nat) :
    format.worth bits =
      if bits / 2 ^ format.fractionBits = 0 then
        ((bits % 2 ^ format.fractionBits : Nat) : ℚ) * 2 ^ format.leastExponent
      else
        (2 ^ format.fractionBits + bits % 2 ^ format.fractionBits : Nat) *
          (2 : ℚ) ^ (format.leastExponent - 1 + (bits / 2 ^ format.fractionBits : Nat)) := by
  rw [worth]
  split
  · rfl
  · generalize bits / 2 ^ format.fractionBits = exponent at *
    congr 2
    omega

/-- Bits that count the units of a binade are worth that many of them. -/
theorem worth_units
    (normal : binade = 0 ∨ 2 ^ format.fractionBits ≤ units)
    (within : units ≤ 2 ^ (format.fractionBits + 1)) :
    format.worth (binade * 2 ^ format.fractionBits + units) =
      units * 2 ^ (format.leastExponent + binade) := by
  have positive : 0 < 2 ^ format.fractionBits := Nat.two_pow_pos _
  have half : (2 : ℚ) ^ format.fractionBits ≠ 0 := by positivity
  rw [Nat.pow_succ] at within
  obtain below | isMiddle | isNext :
      units < 2 ^ format.fractionBits ∨
        (2 ^ format.fractionBits ≤ units ∧ units < 2 * 2 ^ format.fractionBits) ∨
          units = 2 * 2 ^ format.fractionBits := by
    omega
  · obtain rfl : binade = 0 := by omega
    simp [worth, Nat.div_eq_of_lt below, Nat.mod_eq_of_lt below]
  · obtain ⟨fraction, rfl⟩ := Nat.exists_eq_add_of_le isMiddle.1
    have small : fraction < 2 ^ format.fractionBits := by omega
    have split : binade * 2 ^ format.fractionBits + (2 ^ format.fractionBits + fraction) =
        fraction + (binade + 1) * 2 ^ format.fractionBits := by ring
    rw [worth, split, Nat.add_mul_div_right _ _ positive, Nat.add_mul_mod_self_right,
      Nat.div_eq_of_lt small, Nat.mod_eq_of_lt small]
    simp
  · have split : binade * 2 ^ format.fractionBits + units =
        (binade + 2) * 2 ^ format.fractionBits := by
      rw [isNext]
      ring
    have next : format.leastExponent + (binade + 1 : Nat) =
        (format.leastExponent + binade) + 1 := by
      push_cast
      ring
    rw [worth, split, Nat.mul_div_cancel _ positive, Nat.mul_mod_left, if_neg (by omega), isNext,
      Nat.add_zero, show binade + 2 - 1 = binade + 1 from rfl, next, zpow_add_one₀ two_ne_zero]
    push_cast
    ring

/-- All bits count the units of some binade. -/
theorem exists_units (format : Interchange) (bits : Nat) :
    ∃ binade units, bits = binade * 2 ^ format.fractionBits + units ∧
      (binade = 0 ∨ 2 ^ format.fractionBits ≤ units) ∧
        units < 2 ^ (format.fractionBits + 1) := by
  have positive : 0 < 2 ^ format.fractionBits := Nat.two_pow_pos _
  have parts := Nat.div_add_mod bits (2 ^ format.fractionBits)
  have small := Nat.mod_lt bits positive
  rw [Nat.pow_succ]
  obtain zero | some := Nat.eq_zero_or_pos (bits / 2 ^ format.fractionBits)
  · rw [zero] at parts
    exact ⟨0, bits, by simp, .inl rfl, by omega⟩
  · obtain ⟨binade, isNext⟩ := Nat.exists_eq_succ_of_ne_zero some.ne'
    rw [isNext] at parts
    refine ⟨binade, 2 ^ format.fractionBits + bits % 2 ^ format.fractionBits, ?_,
      .inr (Nat.le_add_right _ _), by omega⟩
    rw [← parts, Nat.succ_eq_add_one]
    simp
    ring

/-- Greater bits are worth more. -/
theorem worth_strictMono : StrictMono format.worth := by
  refine strictMono_nat_of_lt_succ fun bits => ?_
  obtain ⟨binade, units, rfl, normal, within⟩ := exists_units format bits
  rw [Nat.add_assoc, worth_units normal within.le, worth_units (by omega) within]
  push_cast
  gcongr
  linarith

/-- From a power of two on the units are not smaller. -/
theorem le_worth_succ
    (normal : binade = 0 ∨ 2 ^ format.fractionBits ≤ units)
    (within : units ≤ 2 ^ (format.fractionBits + 1)) :
    (units + 1) * 2 ^ (format.leastExponent + binade) ≤
      format.worth (binade * 2 ^ format.fractionBits + units + 1) := by
  obtain inside | rfl := Nat.lt_or_eq_of_le within
  · rw [Nat.add_assoc, worth_units (by omega) inside]
    push_cast
    exact le_rfl
  · have split : binade * 2 ^ format.fractionBits + 2 ^ (format.fractionBits + 1) + 1 =
        (binade + 1) * 2 ^ format.fractionBits + (2 ^ format.fractionBits + 1) := by ring
    have small : 2 ^ format.fractionBits + 1 ≤ 2 ^ (format.fractionBits + 1) := by
      rw [Nat.pow_succ]
      have positive := Nat.two_pow_pos format.fractionBits
      omega
    have unit : (0 : ℚ) < 2 ^ (format.leastExponent + binade) := zpow_pos two_pos _
    have next : (2 : ℚ) ^ (format.leastExponent + (binade + 1 : Nat)) =
        2 ^ (format.leastExponent + binade) * 2 := by
      rw [Nat.cast_add, Nat.cast_one, ← add_assoc, zpow_add_one₀ two_ne_zero]
    rw [split, worth_units (.inr (Nat.le_add_right _ _)) small, next]
    push_cast
    rw [pow_succ]
    linarith

/-- Other bits than those of the nearest units are as far away as half a unit, or below. -/
theorem far_of_ne
    (nearest : Rounded.IsNearest units (exact / 2 ^ (format.leastExponent + binade)))
    (least : binade = 0 ∨
      2 ^ format.fractionBits * 2 ^ (format.leastExponent + binade) ≤ exact)
    (normal : binade = 0 ∨ 2 ^ format.fractionBits ≤ units)
    (within : units ≤ 2 ^ (format.fractionBits + 1))
    {other : Nat}
    (different : other ≠ binade * 2 ^ format.fractionBits + units) :
    let worth := format.worth (binade * 2 ^ format.fractionBits + units)
    format.worth other < worth ∧ worth ≤ exact ∨
      2 ^ (format.leastExponent + binade) / 2 ≤ |exact - format.worth other| := by
  intro worth
  have isWorth : worth = units * 2 ^ (format.leastExponent + binade) :=
    worth_units normal within
  have next := le_worth_succ normal within
  have positive : (0 : ℚ) < 2 ^ (format.leastExponent + binade) := zpow_pos two_pos _
  have near := abs_le.mp nearest.near
  rw [le_sub_iff_add_le, sub_le_iff_le_add, le_div_iff₀ positive, div_le_iff₀ positive] at near
  obtain below | above := Nat.lt_or_gt_of_ne different
  · have less : format.worth other < worth := worth_strictMono below
    by_cases reached : worth ≤ exact
    · exact .inl ⟨less, reached⟩
    · -- The quantity lies below the units, so they are not the first of their binade.
      rw [isWorth, not_le] at reached
      obtain ⟨before, rfl⟩ : ∃ before, units = before + 1 :=
        Nat.exists_eq_succ_of_ne_zero (by rintro rfl; simp_all)
      have normalBefore : binade = 0 ∨ 2 ^ format.fractionBits ≤ before := by
        refine least.imp_right fun least => Nat.le_of_lt_succ ?_
        have first := lt_of_mul_lt_mul_right (least.trans_lt reached) positive.le
        exact_mod_cast first
      have atMost : format.worth other ≤ before * 2 ^ (format.leastExponent + binade) := by
        rw [← worth_units normalBefore (Nat.le_of_succ_le within)]
        exact worth_strictMono.monotone (by omega)
      right
      push_cast at near
      exact le_trans (by linarith) (le_abs_self _)
  · have atLeast : (units + 1) * 2 ^ (format.leastExponent + binade) ≤ format.worth other :=
      next.trans (worth_strictMono.monotone above)
    right
    rw [abs_sub_comm]
    exact le_trans (by linarith) (le_abs_self _)

/-- Units nearest to a quantity make the bits nearest to it. -/
theorem near_of_units
    (nearest : Rounded.IsNearest units (exact / 2 ^ (format.leastExponent + binade)))
    (least : binade = 0 ∨
      2 ^ format.fractionBits * 2 ^ (format.leastExponent + binade) ≤ exact)
    (normal : binade = 0 ∨ 2 ^ format.fractionBits ≤ units)
    (within : units ≤ 2 ^ (format.fractionBits + 1))
    {other : Nat}
    (different : other ≠ binade * 2 ^ format.fractionBits + units) :
    let bits := binade * 2 ^ format.fractionBits + units
    |exact - format.worth bits| ≤ |exact - format.worth other| ∧
      (|exact - format.worth other| = |exact - format.worth bits| → units % 2 = 0) := by
  intro bits
  have isWorth : format.worth bits = units * 2 ^ (format.leastExponent + binade) :=
    worth_units normal within
  have positive : (0 : ℚ) < 2 ^ (format.leastExponent + binade) := zpow_pos two_pos _
  have scaled : |exact / 2 ^ (format.leastExponent + binade) - units| =
      |exact - format.worth bits| / 2 ^ (format.leastExponent + binade) := by
    rw [isWorth, ← abs_of_pos positive, ← abs_div, abs_of_pos positive, sub_div,
      mul_div_cancel_right₀ _ positive.ne']
  have close : |exact - format.worth bits| ≤ 2 ^ (format.leastExponent + binade) / 2 := by
    have near := nearest.near
    rw [scaled, div_le_iff₀ positive] at near
    linarith
  obtain ⟨less, reached⟩ | far := far_of_ne nearest least normal within different
  · rw [abs_of_nonneg (sub_nonneg.mpr reached), abs_of_nonneg (by linarith)]
    exact ⟨by linarith, fun tie => by linarith⟩
  · refine ⟨close.trans far, fun tie => nearest.even ?_⟩
    rw [scaled, le_antisymm close (tie ▸ far)]
    field_simp

/-- Bits that are nearest to a quantity of all bits stay the nearest up to infinity. -/
theorem isNearest_min
    (fractional : 0 < format.fractionBits)
    {bits : Nat}
    (near : ∀ other, other ≠ bits →
      |exact - format.worth bits| ≤ |exact - format.worth other| ∧
        (|exact - format.worth other| = |exact - format.worth bits| → bits % 2 = 0)) :
    format.IsNearest exact (min bits format.infinity) := by
  obtain inside | beyond := le_or_gt bits format.infinity
  · rw [Nat.min_eq_left inside]
    refine ⟨inside, fun other _ => ?_, fun other _ different => (near other different).2⟩
    obtain rfl | different := eq_or_ne other bits
    · exact le_rfl
    · exact (near other different).1
  · -- The quantity is nearer to what is worth more than infinity, so it is not less.
    rw [Nat.min_eq_right beyond.le]
    have more : format.worth format.infinity < format.worth bits := worth_strictMono beyond
    have reached : format.worth format.infinity ≤ exact := by
      by_contra less
      have closer := (near format.infinity beyond.ne).1
      rw [abs_of_nonpos (by linarith), abs_of_nonpos (by linarith)] at closer
      linarith
    have even : format.infinity % 2 = 0 := by
      obtain ⟨bits, isNext⟩ := Nat.exists_eq_succ_of_ne_zero fractional.ne'
      rw [infinity, isNext, Nat.pow_succ, ← Nat.mul_assoc, Nat.mul_mod_left]
    refine ⟨le_rfl, fun other within => ?_, fun _ _ _ _ => even⟩
    have less : format.worth other ≤ format.worth format.infinity :=
      worth_strictMono.monotone within
    rw [abs_of_nonneg (by linarith), abs_of_nonneg (by linarith)]
    linarith

/-- The shift of a magnitude gives the nearest number of units. -/
theorem isNearest_shift
    (significand : Nat)
    (exponent unit : Int) :
    Rounded.IsNearest
      (if unit - exponent < 0 then
        significand <<< (unit - exponent).natAbs
      else
        Rounded.nearestQuotient significand (2 ^ (unit - exponent).natAbs))
      (significand * 2 ^ exponent / 2 ^ unit) := by
  have shifted : (significand * 2 ^ exponent / 2 ^ unit : ℚ) =
      significand / 2 ^ (unit - exponent) := by
    rw [zpow_sub₀ two_ne_zero]
    field_simp
  rw [shifted]
  split
  · rename_i negative
    rw [Rounded.power_of_neg negative, div_inv_eq_mul, Nat.shiftLeft_eq, ← Nat.cast_mul]
    exact Rounded.isNearest_natCast _
  · rename_i nonnegative
    rw [Rounded.power_of_nonneg (Int.not_lt.mp nonnegative)]
    exact Rounded.isNearest_nearestQuotient (Nat.two_pow_pos _)

/-- A magnitude lies in the binade of its leading bit. -/
theorem binade_of_leading
    {significand : Nat}
    (positive : 0 < significand)
    (exponent : Int) :
    (2 : ℚ) ^ (significand.log2 + exponent) ≤ significand * 2 ^ exponent ∧
      (significand * 2 ^ exponent : ℚ) ≤ 2 ^ (significand.log2 + exponent + 1) := by
  have next : (significand.log2 + exponent + 1 : Int) =
      (significand.log2 + 1 : Int) + exponent := by
    ring
  rw [next, zpow_add₀ two_ne_zero, zpow_add₀ two_ne_zero]
  constructor
  · gcongr
    exact Rounded.power_log2_le positive
  · gcongr
    exact (Rounded.lt_power_log2 significand).le

/-- A magnitude is rounded to the nearest value of a format. -/
theorem isNearest_magnitudeBits
    (format : Interchange)
    (fractional : 0 < format.fractionBits)
    (significand : Nat)
    (exponent : Int) :
    format.IsNearest (significand * 2 ^ exponent) (format.magnitudeBits significand exponent) := by
  unfold magnitudeBits
  split
  · rename_i zero
    have worthZero : format.worth 0 = 0 := by simp [worth]
    refine ⟨Nat.zero_le _, fun other _ => ?_, fun _ _ _ _ => rfl⟩
    rw [zero, worthZero, Nat.cast_zero, zero_mul, sub_self, abs_zero]
    exact abs_nonneg _
  · rename_i nonzero
    obtain ⟨low, high⟩ := binade_of_leading (Nat.pos_of_ne_zero nonzero) exponent
    have isUnit := max_def (significand.log2 + exponent - format.fractionBits : Int)
      format.leastExponent
    extract_lets leading unit shift rounded
    obtain ⟨binade, isBinade⟩ : ∃ binade : Nat, unit = format.leastExponent + binade :=
      ⟨(unit - format.leastExponent).toNat, by omega⟩
    have nearest : Rounded.IsNearest rounded (significand * 2 ^ exponent / 2 ^ unit) :=
      isNearest_shift significand exponent unit
    have least : binade = 0 ∨
        (2 : ℚ) ^ format.fractionBits * 2 ^ unit ≤ significand * 2 ^ exponent := by
      refine Classical.or_iff_not_imp_left.mpr fun some => ?_
      rw [← zpow_natCast, ← zpow_add₀ two_ne_zero,
        show (format.fractionBits + unit : Int) = leading by omega]
      exact low
    have unitPositive : (0 : ℚ) < 2 ^ unit := zpow_pos two_pos _
    have normal : binade = 0 ∨ 2 ^ format.fractionBits ≤ rounded := by
      refine least.imp_right fun least => (Rounded.isNearest_natCast _).mono nearest ?_
      rw [le_div_iff₀ unitPositive]
      exact_mod_cast least
    have within : rounded ≤ 2 ^ (format.fractionBits + 1) := by
      refine nearest.mono (Rounded.isNearest_natCast _) ?_
      rw [div_le_iff₀ unitPositive]
      refine high.trans ?_
      push_cast
      rw [← zpow_natCast, ← zpow_add₀ two_ne_zero]
      exact zpow_le_zpow_right₀ one_le_two (by push_cast; omega)
    rw [show (unit - format.leastExponent).toNat = binade by omega]
    rw [isBinade] at nearest least
    refine isNearest_min fractional fun other different => ?_
    obtain ⟨near, even⟩ := near_of_units nearest least normal within different
    refine ⟨near, fun tie => ?_⟩
    obtain ⟨bits, isNext⟩ := Nat.exists_eq_succ_of_ne_zero fractional.ne'
    rw [isNext, Nat.pow_succ, ← Nat.mul_assoc, Nat.mul_add_mod_self_right]
    exact even tie

end Interchange

namespace Half

open Interchange

/-- What the bits of a single float are worth. -/
theorem worth_single (magnitude : Nat) :
    single.worth magnitude =
      if magnitude / 2 ^ 23 = 0 then
        ((magnitude % 2 ^ 23 : Nat) : ℚ) * 2 ^ (-149 : Int)
      else
        (2 ^ 23 + magnitude % 2 ^ 23 : Nat) *
          (2 : ℚ) ^ (((magnitude / 2 ^ 23 : Nat) : Int) - 150) := by
  rw [worth_eq]
  refine if_congr Iff.rfl rfl (congrArg _ (congrArg _ ?_))
  rw [show single.leastExponent = -149 from rfl, show single.fractionBits = 23 from rfl]
  omega

theorem worth_normal
    {exponent fraction : Nat}
    (normal : 0 < exponent)
    (small : fraction < 2 ^ 23) :
    single.worth (exponent * 2 ^ 23 + fraction) =
      (2 ^ 23 + fraction : Nat) * (2 : ℚ) ^ ((exponent : Int) - 150) := by
  have isExponent : (exponent * 2 ^ 23 + fraction) / 2 ^ 23 = exponent := by omega
  have isFraction : (exponent * 2 ^ 23 + fraction) % 2 ^ 23 = fraction := by omega
  rw [worth_single, isExponent, isFraction, if_neg normal.ne']

/-- What the bits of a half are worth. -/
theorem worth_half (magnitude : Nat) :
    half.worth magnitude =
      if magnitude / 2 ^ 10 = 0 then
        ((magnitude % 2 ^ 10 : Nat) : ℚ) * 2 ^ (-24 : Int)
      else
        (2 ^ 10 + magnitude % 2 ^ 10 : Nat) *
          (2 : ℚ) ^ (((magnitude / 2 ^ 10 : Nat) : Int) - 25) := by
  rw [worth_eq]
  refine if_congr Iff.rfl rfl (congrArg _ (congrArg _ ?_))
  rw [show half.leastExponent = -24 from rfl, show half.fractionBits = 10 from rfl]
  omega

section Narrowed

variable {magnitude : Nat}

/-- A finite magnitude is rounded to the nearest half. -/
theorem isNearest_roundedMagnitude (finite : magnitude < single.infinity) :
    half.IsNearest (single.worth magnitude) (roundedMagnitude magnitude) := by
  have infinity : single.infinity = 255 * 2 ^ 23 := by decide
  have notInfinite : magnitude / 2 ^ 23 ≠ 255 := by omega
  rw [roundedMagnitude, if_neg notInfinite, worth_single]
  split
  · exact isNearest_magnitudeBits half (by decide) _ _
  · exact isNearest_magnitudeBits half (by decide) _ _

theorem roundedMagnitude_infinity : roundedMagnitude single.infinity = half.infinity := by
  decide

/-- What is no number becomes a half that is none. -/
theorem roundedMagnitude_undefined
    (undefined : single.infinity < magnitude)
    (bounded : magnitude < 2 ^ 31) :
    half.infinity < roundedMagnitude magnitude ∧ roundedMagnitude magnitude < 2 ^ 15 := by
  have infinity : single.infinity = 255 * 2 ^ 23 := by decide
  have quiet : 2 ^ 9 ≤ magnitude % 2 ^ 23 / 2 ^ 13 ||| 2 ^ 9 := Nat.right_le_or
  have payload : (magnitude % 2 ^ 23 / 2 ^ 13 ||| 2 ^ 9) < 2 ^ 10 :=
    Nat.or_lt_two_pow (by omega) (by decide)
  rw [roundedMagnitude, if_pos (by omega), if_neg (by omega), show half.infinity = 0x7c00 by decide]
  omega

theorem roundedMagnitude_lt (bounded : magnitude < 2 ^ 31) :
    roundedMagnitude magnitude < 2 ^ 15 := by
  obtain finite | rfl | undefined := Nat.lt_trichotomy magnitude single.infinity
  · exact Nat.lt_of_le_of_lt (isNearest_roundedMagnitude finite).within (by decide)
  · decide
  · exact (roundedMagnitude_undefined undefined bounded).2

end Narrowed

section Widened

variable {magnitude : Nat}

/-- A quantity is worth the same in other units. -/
theorem units_eq
    {units units' bits : Nat}
    {exponent exponent' : Int}
    (more : units' = units * 2 ^ bits)
    (less : exponent = exponent' + bits) :
    (units' : ℚ) * 2 ^ exponent' = units * 2 ^ exponent := by
  rw [more, less, zpow_add₀ two_ne_zero, zpow_natCast]
  push_cast
  ring

/-- The bits behind the leading one, moved up to it, fill the fraction of a normal number. -/
theorem moved_fraction
    {fraction bits : Nat}
    (positive : fraction ≠ 0)
    (leading : fraction.log2 ≤ bits) :
    let rest := (fraction - 2 ^ fraction.log2) * 2 ^ (bits - fraction.log2)
    rest < 2 ^ bits ∧ 2 ^ bits + rest = fraction * 2 ^ (bits - fraction.log2) := by
  intro rest
  have one : 2 ^ fraction.log2 * 2 ^ (bits - fraction.log2) = 2 ^ bits := by
    rw [← Nat.pow_add, Nat.add_sub_of_le leading]
  have low := Nat.mul_le_mul_right (2 ^ (bits - fraction.log2)) (Nat.log2_self_le positive)
  have high : fraction - 2 ^ fraction.log2 < 2 ^ fraction.log2 := by
    have below := Nat.lt_log2_self (n := fraction)
    rw [Nat.pow_succ] at below
    omega
  have isRest : rest = fraction * 2 ^ (bits - fraction.log2) - 2 ^ bits := by
    rw [← one, ← Nat.sub_mul]
  constructor
  · rw [← one]
    exact Nat.mul_lt_mul_of_pos_right high (Nat.two_pow_pos _)
  · omega

/-- A finite half is a single float of the same worth. -/
theorem worth_widenedMagnitude (finite : magnitude < half.infinity) :
    widenedMagnitude magnitude < single.infinity ∧
      single.worth (widenedMagnitude magnitude) = half.worth magnitude := by
  have infinity : half.infinity = 31 * 2 ^ 10 := by decide
  have singleInfinity : single.infinity = 255 * 2 ^ 23 := by decide
  have notInfinite : magnitude / 2 ^ 10 ≠ 31 := by omega
  rw [worth_half, widenedMagnitude, if_neg notInfinite, singleInfinity]
  split
  · rename_i subnormal
    split
    · rename_i zero
      rw [zero, worth_single]
      norm_num
    · rename_i positive
      extract_lets leading
      have fraction : magnitude % 2 ^ 10 < 2 ^ 10 := Nat.mod_lt _ (by decide)
      have bits : leading ≤ 9 := Nat.le_of_lt_succ ((Nat.log2_lt positive).mpr fraction)
      obtain ⟨small, whole⟩ := moved_fraction positive (Nat.le_trans bits (by decide : 9 ≤ 23))
      generalize (magnitude % 2 ^ 10 - 2 ^ leading) * 2 ^ (23 - leading) = rest at *
      refine ⟨by omega, ?_⟩
      rw [worth_normal (by omega) small]
      exact units_eq whole (by omega)
  · rename_i normal
    refine ⟨by omega, ?_⟩
    have small : magnitude % 2 ^ 10 * 2 ^ 13 < 2 ^ 23 := by omega
    have units : 2 ^ 23 + magnitude % 2 ^ 10 * 2 ^ 13 = (2 ^ 10 + magnitude % 2 ^ 10) * 2 ^ 13 := by
      omega
    rw [worth_normal (by omega) small]
    exact units_eq units (by omega)

theorem widenedMagnitude_infinity : widenedMagnitude half.infinity = single.infinity := by
  decide

/-- What is no number stays none. -/
theorem widenedMagnitude_undefined
    (undefined : half.infinity < magnitude)
    (bounded : magnitude < 2 ^ 15) :
    single.infinity < widenedMagnitude magnitude ∧ widenedMagnitude magnitude < 2 ^ 31 := by
  have infinity : half.infinity = 31 * 2 ^ 10 := by decide
  have quiet : 2 ^ 9 ≤ magnitude % 2 ^ 10 ||| 2 ^ 9 := Nat.right_le_or
  have payload : (magnitude % 2 ^ 10 ||| 2 ^ 9) < 2 ^ 10 :=
    Nat.or_lt_two_pow (by omega) (by decide)
  rw [widenedMagnitude, if_pos (by omega), if_neg (by omega),
    show single.infinity = 255 * 2 ^ 23 by decide]
  omega

theorem widenedMagnitude_lt (bounded : magnitude < 2 ^ 15) :
    widenedMagnitude magnitude < 2 ^ 31 := by
  obtain finite | rfl | undefined := Nat.lt_trichotomy magnitude half.infinity
  · exact Nat.lt_trans (worth_widenedMagnitude finite).1 (by decide)
  · decide
  · exact (widenedMagnitude_undefined undefined bounded).2

end Widened

end Half

/-- The single float of the nearest half: of the same sign, infinite where that half is. -/
structure Single.IsHalved (value halved : Single) : Prop where
  sign : halved.bits.toNat / 2 ^ 31 = value.bits.toNat / 2 ^ 31
  finite : value.bits.toNat % 2 ^ 31 < Interchange.single.infinity → ∃ bits,
    Interchange.half.IsNearest (Interchange.single.worth (value.bits.toNat % 2 ^ 31)) bits ∧
      if bits = Interchange.half.infinity then
        halved.bits.toNat % 2 ^ 31 = Interchange.single.infinity
      else
        halved.bits.toNat % 2 ^ 31 < Interchange.single.infinity ∧
          Interchange.single.worth (halved.bits.toNat % 2 ^ 31) = Interchange.half.worth bits
  infinite : value.bits.toNat % 2 ^ 31 = Interchange.single.infinity →
    halved.bits.toNat % 2 ^ 31 = Interchange.single.infinity
  undefined : Interchange.single.infinity < value.bits.toNat % 2 ^ 31 →
    Interchange.single.infinity < halved.bits.toNat % 2 ^ 31

/-- A single float that is stored as a half is read as the nearest one. -/
theorem Half.isHalved (value : Single) : value.IsHalved (toSingle (ofSingle value)) := by
  have wide := value.bits.toNat_lt
  have bounded : value.bits.toNat % 2 ^ 31 < 2 ^ 31 := Nat.mod_lt _ (by decide)
  have narrow := roundedMagnitude_lt bounded
  have isHalf : (ofSingle value).toNat =
      value.bits.toNat / 2 ^ 31 * 2 ^ 15 + roundedMagnitude (value.bits.toNat % 2 ^ 31) := by
    rw [ofSingle, UInt16.toNat_ofNat']
    omega
  generalize isMagnitude : roundedMagnitude (value.bits.toNat % 2 ^ 31) = magnitude at *
  have isSingle : (toSingle (ofSingle value)).bits.toNat =
      value.bits.toNat / 2 ^ 31 * 2 ^ 31 + widenedMagnitude magnitude := by
    have sign : (ofSingle value).toNat / 2 ^ 15 = value.bits.toNat / 2 ^ 31 := by omega
    have rest : (ofSingle value).toNat % 2 ^ 15 = magnitude := by omega
    have widened := widenedMagnitude_lt narrow
    rw [toSingle, sign, rest, UInt32.toNat_ofNat']
    omega
  have widened := widenedMagnitude_lt narrow
  have read : (toSingle (ofSingle value)).bits.toNat % 2 ^ 31 = widenedMagnitude magnitude := by
    omega
  constructor
  case sign => omega
  case finite =>
    intro finite
    have nearest := isNearest_roundedMagnitude finite
    rw [isMagnitude] at nearest
    refine ⟨magnitude, nearest, ?_⟩
    rw [read]
    split
    · rename_i infinite
      rw [infinite, widenedMagnitude_infinity]
    · exact worth_widenedMagnitude (Nat.lt_of_le_of_ne nearest.within ‹_›)
  case infinite =>
    intro infinite
    rw [infinite, roundedMagnitude_infinity] at isMagnitude
    rw [read, ← isMagnitude, widenedMagnitude_infinity]
  case undefined =>
    intro undefined
    have kept := (roundedMagnitude_undefined undefined bounded).1
    rw [isMagnitude] at kept
    rw [read]
    exact (widenedMagnitude_undefined kept narrow).1

end DpuCycles
