import DpuCycles.Json.Value

namespace DpuCycles

/-!
# Counts in JSON

A count that fits 64 bits is far below the greatest double, also after both of
the roundings on the way there, and is read as it was written.
-/

namespace Rounded

/-- Of a number of 64 bits at most eleven are cut off, and at most 53 stay. -/
theorem normalize_of_le
    {value : Nat}
    (exponent : Int)
    (fits : value ≤ Text.greatest64) :
    ∃ significand cut, normalize value exponent = .finite significand (exponent + (cut : Nat)) ∧
      significand ≤ 2 ^ precision ∧ cut ≤ 11 := by
  by_cases short : value < 2 ^ precision
  · refine ⟨value, 0, ?_, Nat.le_of_lt short, by decide⟩
    rw [normalize, if_pos short]
    simp
  · have positive : value ≠ 0 := by
      rintro rfl
      exact short (by decide)
    have log : value.log2 < 64 :=
      (Nat.log2_lt positive).mpr (Nat.lt_of_le_of_lt fits (by decide))
    have long : precision ≤ value.log2 :=
      (Nat.le_log2 positive).mpr (Nat.not_lt.mp short)
    have cut : value.log2 + 1 - precision ≤ 11 := by
      unfold precision
      omega
    refine ⟨_, _, by rw [normalize, if_neg short], ?_, cut⟩
    have quotient : value / 2 ^ (value.log2 + 1 - precision) < 2 ^ precision := by
      rw [Nat.div_lt_iff_lt_mul (Nat.two_pow_pos _), ← Nat.pow_add,
        Nat.add_sub_cancel' (by omega)]
      exact Nat.lt_log2_self
    rw [nearestQuotient]
    split
    · omega
    split
    · omega
    · omega

/-- Quantities of 53 bits with a small exponent are below the first one that is no double. -/
theorem lt_overflow
    {significand exponent : Nat}
    (bits : significand ≤ 2 ^ precision)
    (small : exponent ≤ 22) :
    (Rounded.finite significand exponent).lt Numeral.Scaled.overflow = true := by
  have unit : min (1024 : Int) exponent = exponent := by omega
  have far : 2 ^ 54 ≤ 2 ^ (1024 - (exponent : Int)).toNat :=
    Nat.pow_le_pow_right (by decide) (by omega)
  have near : significand < 2 ^ 54 := Nat.lt_of_le_of_lt bits (by decide)
  simp only [lt, Numeral.Scaled.overflow, finiteLe, unit, Nat.one_shiftLeft, Int.sub_self,
    Int.toNat_zero, Nat.shiftLeft_zero, Bool.not_eq_eq_eq_not, Bool.not_true,
    decide_eq_false_iff_not, Nat.not_le]
  exact Nat.lt_of_lt_of_le near far

end Rounded

namespace Numeral

/-- All digits of a number of 64 bits are kept. -/
theorem kept_of_le
    {magnitude : Nat}
    (fits : magnitude ≤ Text.greatest64) :
    kept magnitude 0 0 = ⟨magnitude, 0⟩ := by
  have nothing : excess magnitude = 0 := by
    rw [excess, if_pos fits]
  simp [kept, nothing, Nat.mod_one]

/-- A number of 64 bits is a double. -/
theorem isSound_of_le
    {negative : Bool}
    {magnitude : Nat}
    (fits : magnitude ≤ Text.greatest64) :
    (Numeral.whole negative magnitude).isSound = true := by
  rw [isSound, magnitude?, kept_of_le fits, Scaled.double?]
  split
  · rfl
  · obtain ⟨significand, cut, rounded, bits, few⟩ := Rounded.normalize_of_le 0 fits
    obtain ⟨last, again, product, lastBits, fewAgain⟩ :=
      Rounded.normalize_of_le (0 + (cut : Int) + 0)
        (Nat.le_trans (Nat.mul_one significand ▸ bits) (by decide : _ ≤ Text.greatest64))
    have one : Scaled.power 0 = .finite 1 0 := by decide
    have value : Rounded.ofNat magnitude * Scaled.power 0 =
        .finite last ((cut + again : Nat) : Int) := by
      rw [Rounded.ofNat, rounded, one]
      refine product.trans ?_
      simp
    simp only [Int.le_refl, if_true, Int.natAbs_zero, value,
      Rounded.lt_overflow lastBits (Nat.add_le_add few fewAgain)]
    rfl

end Numeral

namespace Json

/-- A count that fits 64 bits reads back. -/
theorem natural?_ofNat
    {limit count : Nat}
    (within : count ≤ limit) :
    (ofNat count).natural? limit = some count := by
  rw [ofNat, natural?, if_pos within]

theorem isSound_ofNat
    {depth count : Nat}
    (fits : count ≤ Text.greatest64) :
    isSound depth (ofNat count) = true := by
  rw [ofNat, isSound]
  exact Numeral.isSound_of_le fits

end Json

end DpuCycles
