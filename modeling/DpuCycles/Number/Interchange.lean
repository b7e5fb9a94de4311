import DpuCycles.Number.Rounded
import DpuCycles.Number.Single

namespace DpuCycles

/-!
# Binary interchange formats

A format has a sign, some exponent bits and some fraction bits.  A magnitude is
rounded to the nearest value of a format, ties to the even one; beyond the
greatest value it becomes infinite.
-/

/-- Widths of the fields of a format. -/
structure Interchange where
  exponentBits : Nat
  fractionBits : Nat
  deriving Repr, DecidableEq

namespace Interchange

/-- Sixteen bits. -/
def half : Interchange := ⟨5, 10⟩

/-- Thirty-two bits. -/
def single : Interchange := ⟨8, 23⟩

/-- Bits of infinity. -/
def infinity (format : Interchange) : Nat :=
  (2 ^ format.exponentBits - 1) * 2 ^ format.fractionBits

/-- Exponent of the last place of the least values. -/
def leastExponent (format : Interchange) : Int :=
  2 - 2 ^ (format.exponentBits - 1) - format.fractionBits

/-- Bits of a magnitude `significand * 2 ^ exponent`, rounded to a format. -/
def magnitudeBits
    (format : Interchange)
    (significand : Nat)
    (exponent : Int) : Nat :=
  if significand = 0 then
    0
  else
    let leading : Int := significand.log2 + exponent
    let unit := max (leading - format.fractionBits) format.leastExponent
    let shift := unit - exponent
    let rounded :=
      if shift < 0 then
        significand <<< shift.natAbs
      else
        Rounded.nearestQuotient significand (2 ^ shift.natAbs)
    min ((unit - format.leastExponent).toNat * 2 ^ format.fractionBits + rounded) format.infinity

end Interchange

/-- The single float nearest to a quantity with a sign. -/
def Rounded.toSingle
    (negative : Bool)
    (quantity : Rounded) : Single :=
  let sign := if negative then 2 ^ 31 else 0
  match quantity with
  | .undefined => .undefined
  | .infinite => ⟨UInt32.ofNat (sign + Interchange.single.infinity)⟩
  | .finite significand exponent =>
      ⟨UInt32.ofNat (sign + Interchange.single.magnitudeBits significand exponent)⟩

end DpuCycles
