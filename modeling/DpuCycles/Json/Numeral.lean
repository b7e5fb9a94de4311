import DpuCycles.Number.Rounded
import DpuCycles.Text

namespace DpuCycles

/-!
# Numbers in JSON

A number is kept as it is written.  A reader keeps of its digits what fits 64
bits and makes a double of them and the power of ten that goes with them, with
one rounding for the digits, one for the power and one for their product or
quotient.  A number beyond the greatest double denotes nothing.
-/

/-- A number as written. -/
inductive Numeral where
  /-- Without a fraction or an exponent. -/
  | whole (negative : Bool) (magnitude : Nat)
  /-- The digits without the point, the number of them behind it, and the exponent. -/
  | real (negative : Bool) (digits places : Nat) (exponent : Int)
  deriving Repr, DecidableEq

namespace Numeral

/-- Whether a number has a minus sign. -/
def isNegative : Numeral → Bool
  | .whole negative _ => negative
  | .real negative _ _ _ => negative

/-- Digits to drop at the end of a number until the rest fits 64 bits. -/
def excess (number : Nat) : Nat :=
  if number ≤ Text.greatest64 then 0 else excess (number / 10) + 1
termination_by number
decreasing_by
  exact Nat.div_lt_self (by omega) (by decide)

/-- The number `significand * 10 ^ exponent`. -/
structure Scaled where
  significand : Nat
  exponent : Int
  deriving Repr, DecidableEq

/--
The digits that are kept: of those before the point as many as fit, and behind
them as many of the fraction as still fit.
-/
def kept
    (digits places : Nat)
    (exponent : Int) : Scaled :=
  let whole := digits / 10 ^ places
  let dropped := excess whole
  let joined := whole / 10 ^ dropped * 10 ^ places + digits % 10 ^ places
  let cut := excess joined
  ⟨joined / 10 ^ cut, exponent + dropped + cut - places⟩

namespace Scaled

/-- The greatest exponent of a power of ten that is a double. -/
def greatestPower : Nat := 308

/-- A power of ten as a double. -/
def power (exponent : Nat) : Rounded :=
  .ofNat (10 ^ exponent)

/-- The least magnitude that is no double any more. -/
def overflow : Rounded := .finite 1 1024

/--
The double of a number.  Divisors beyond the greatest power are divided in two
steps; what is less than their product is nothing.
-/
def double? (number : Scaled) : Option Rounded :=
  let significand := Rounded.ofNat number.significand
  if number.significand = 0 then
    some .zero
  else if 0 ≤ number.exponent then
    if greatestPower < number.exponent then
      none
    else
      let product := significand * power number.exponent.natAbs
      if product.lt overflow then some product else none
  else
    let divisor := number.exponent.natAbs
    if divisor ≤ greatestPower then
      some (significand / power divisor)
    else if divisor ≤ 2 * greatestPower then
      some (significand / power greatestPower / power (divisor - greatestPower))
    else
      some .zero

end Scaled

/-- The double of the magnitude of a number, `none` beyond the greatest one. -/
def magnitude? : Numeral → Option Rounded
  | .whole _ magnitude => (kept magnitude 0 0).double?
  | .real _ digits places exponent => (kept digits places exponent).double?

/-- Whether a number stays within the doubles. -/
def isSound (number : Numeral) : Bool :=
  number.magnitude?.isSome

end Numeral

end DpuCycles
