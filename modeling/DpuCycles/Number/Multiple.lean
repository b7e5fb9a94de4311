namespace DpuCycles

/-!
# Words, and quotients rounded up

Counts are kept in words of a fixed number of bits.  A count that needs more of
them loses its leading ones, as in a build without overflow checks.  A build with
these checks stops instead, so that both agree wherever nothing is lost.

Quotients and multiples are rounded up in full, and what is kept of them is said
where they are used.

Powers of counts and of integers are the ones of the core library, also where a
library with powers of its own is imported: the priorities are above those of any
other instance.
-/

attribute [instance (high), default_instance 10001] instPowNat

/-- What a word of so many bits keeps of a count. -/
def word
    (bits count : Nat) : Nat :=
  count % 2 ^ bits

theorem word_of_lt
    {bits count : Nat}
    (fits : count < 2 ^ bits) :
    word bits count = count :=
  Nat.mod_eq_of_lt fits

theorem word_zero (bits : Nat) : word bits 0 = 0 :=
  Nat.zero_mod _

/-- The quotient rounded up.  Division by zero gives zero, as division of naturals does. -/
def ceilDiv
    (dividend divisor : Nat) : Nat :=
  (dividend + (divisor - 1)) / divisor

/-- The least multiple of a step that is not below a value. -/
def roundUp
    (value step : Nat) : Nat :=
  ceilDiv value step * step

/-- A quotient rounded up is the least factor that reaches the dividend. -/
theorem ceilDiv_le_iff
    {dividend divisor bound : Nat}
    (positive : 0 < divisor) :
    ceilDiv dividend divisor ≤ bound ↔ dividend ≤ bound * divisor := by
  unfold ceilDiv
  rw [← Nat.lt_succ_iff, Nat.div_lt_iff_lt_mul positive, Nat.succ_mul]
  omega

/-- Of nothing there are no parts, whatever their size. -/
theorem zero_ceilDiv (divisor : Nat) : ceilDiv 0 divisor = 0 := by
  rw [ceilDiv, Nat.zero_add]
  exact Nat.div_eq_zero_iff.mpr (by omega)

theorem ceilDiv_mono
    {dividend greater : Nat}
    (divisor : Nat)
    (within : dividend ≤ greater) :
    ceilDiv dividend divisor ≤ ceilDiv greater divisor :=
  Nat.div_le_div_right (Nat.add_le_add_right within (divisor - 1))

/-- A value rounded up is not below the value. -/
theorem le_roundUp
    {step : Nat}
    (value : Nat)
    (positive : 0 < step) :
    value ≤ roundUp value step :=
  (ceilDiv_le_iff positive).mp (Nat.le_refl _)

/-- A value is rounded up by less than a step. -/
theorem roundUp_lt
    {step : Nat}
    (value : Nat)
    (positive : 0 < step) :
    roundUp value step < value + step := by
  have within : ceilDiv value step * step ≤ value + (step - 1) := Nat.div_mul_le_self _ _
  unfold roundUp
  omega

/-- A greater value is not rounded up to less. -/
theorem roundUp_mono
    {value greater : Nat}
    (step : Nat)
    (within : value ≤ greater) :
    roundUp value step ≤ roundUp greater step :=
  Nat.mul_le_mul_right step (ceilDiv_mono step within)

end DpuCycles
