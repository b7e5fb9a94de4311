import DpuCycles.Number.Multiple

namespace DpuCycles

/-!
# Shortest decimal text of a 32-bit float

A float stands for the interval of reals that round to it.  The text is the
decimal number with the fewest digits in that interval, and the one nearest to
the float among those; of two equally near, the greater.  It is always written
positionally.
-/

/-- The positive value `significand * 2 ^ exponent` of a float. -/
structure BinaryValue where
  significand : Nat
  exponent : Int
  /-- The next smaller float is only half as far away as the next greater one. -/
  narrowBelow : Bool
  deriving Repr, DecidableEq

namespace BinaryValue

/-- Decoded magnitude of a finite float. -/
def ofBits (bits : Nat) : BinaryValue :=
  let fraction : Nat := bits % 2 ^ 23
  let exponent : Nat := bits / 2 ^ 23 % 2 ^ 8
  if exponent = 0 then
    ⟨fraction, -149, false⟩
  else
    ⟨2 ^ 23 + fraction, (exponent : Int) - 150, fraction == 0 && 1 < exponent⟩

end BinaryValue

/-- A decimal number `digits * 10 ^ exponent`. -/
structure DecimalValue where
  digits : Nat
  exponent : Int
  deriving Repr, DecidableEq

/--
A value and the ends of its rounding interval, in quarters of the last binary
place, over a common denominator.
-/
structure RoundingInterval where
  low : Nat
  value : Nat
  high : Nat
  denominator : Nat
  closed : Bool
  deriving Repr, DecidableEq

namespace RoundingInterval

/--
The rounding interval of a positive value.  The ends belong to it when the
significand is even.
-/
def ofBinary (value : BinaryValue) : RoundingInterval :=
  let scale := value.exponent - 2
  let up := if 0 ≤ scale then 2 ^ scale.natAbs else 1
  let down := if 0 ≤ scale then 1 else 2 ^ scale.natAbs
  let below := if value.narrowBelow then 1 else 2
  { low := (4 * value.significand - below) * up
    value := 4 * value.significand * up
    high := (4 * value.significand + 2) * up
    denominator := down
    closed := value.significand % 2 == 0 }

/-- Whether the decimal number `digits * 10 ^ exponent` rounds to the value. -/
def contains
    (interval : RoundingInterval)
    (digits : Nat)
    (exponent : Int) : Bool :=
  let up := if 0 ≤ exponent then 10 ^ exponent.natAbs else 1
  let down := if 0 ≤ exponent then 1 else 10 ^ exponent.natAbs
  let point := digits * up * interval.denominator
  if interval.closed then
    decide (interval.low * down ≤ point ∧ point ≤ interval.high * down)
  else
    decide (interval.low * down < point ∧ point < interval.high * down)

/-- The decimal number of a grid that stands for the value, if the grid has one. -/
def onGrid?
    (interval : RoundingInterval)
    (exponent : Int) : Option DecimalValue :=
  let up := if 0 ≤ exponent then 10 ^ exponent.natAbs else 1
  let down := if 0 ≤ exponent then 1 else 10 ^ exponent.natAbs
  let unit := up * interval.denominator
  let floor := interval.value * down / unit
  let rest := interval.value * down % unit
  let low := interval.contains floor exponent
  let high := interval.contains (floor + 1) exponent
  if high && (!low || decide (unit ≤ 2 * rest)) then
    some ⟨floor + 1, exponent⟩
  else if low then
    some ⟨floor, exponent⟩
  else
    none

/-- The first grid that holds a number for the value, from a coarse grid to finer ones. -/
def firstOnGrid
    (interval : RoundingInterval) :
    Nat → Int → DecimalValue
  | 0, exponent => ⟨0, exponent⟩
  | grids + 1, exponent =>
      match interval.onGrid? exponent with
      | some found => found
      | none => interval.firstOnGrid grids (exponent - 1)

end RoundingInterval

namespace DecimalValue

/-- Decimal exponent that no float of 32 bits reaches. -/
def coarsestGrid : Int := 39

/-- Grids from the coarsest one to below the last place of the smallest float. -/
def gridCount : Nat := 100

/-- The shortest decimal number of a positive value. -/
def shortest (value : BinaryValue) : DecimalValue :=
  (RoundingInterval.ofBinary value).firstOnGrid gridCount coarsestGrid

/-- Positional text without an exponent, and without a point for a whole number. -/
def text (value : DecimalValue) : String :=
  if 0 ≤ value.exponent then
    toString (value.digits * 10 ^ value.exponent.natAbs)
  else
    let unit := 10 ^ value.exponent.natAbs
    let fraction := toString (value.digits % unit)
    let zeros := String.ofList (List.replicate (value.exponent.natAbs - fraction.length) '0')
    toString (value.digits / unit) ++ "." ++ zeros ++ fraction

end DecimalValue

/-- Text of a 32-bit float. -/
def float32Text (value : Float32) : String :=
  let bits := value.toBits.toNat
  let sign := if 2 ^ 31 ≤ bits then "-" else ""
  if bits / 2 ^ 23 % 2 ^ 8 = 255 then
    if bits % 2 ^ 23 = 0 then sign ++ "inf" else "NaN"
  else
    let magnitude := BinaryValue.ofBits bits
    if magnitude.significand = 0 then
      sign ++ "0"
    else
      sign ++ (DecimalValue.shortest magnitude).text

end DpuCycles
