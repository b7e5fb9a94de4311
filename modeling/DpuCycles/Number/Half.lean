import DpuCycles.Number.Interchange

namespace DpuCycles

/-!
# Half-precision floats

Sixteen bits hold a sign, five exponent bits and ten fraction bits.  A single
float is rounded to the nearest half, and a half is always a single float as
well.  A value that is no number keeps its sign and the front of its payload, and
becomes quiet either way.
-/

namespace Half

/-- Bits of the half nearest to a magnitude, which is given by the bits of a single float. -/
def roundedMagnitude (magnitude : Nat) : Nat :=
  let fraction : Nat := magnitude % 2 ^ 23
  let exponent : Nat := magnitude / 2 ^ 23
  if exponent = 255 then
    if fraction = 0 then 0x7c00 else 0x7c00 + (fraction / 2 ^ 13 ||| 2 ^ 9)
  else if exponent = 0 then
    Interchange.half.magnitudeBits fraction (-149)
  else
    Interchange.half.magnitudeBits (2 ^ 23 + fraction) ((exponent : Int) - 150)

/-- Bits of the half nearest to a single float. -/
def ofSingle (value : Single) : UInt16 :=
  let bits := value.bits.toNat
  UInt16.ofNat (bits / 2 ^ 31 * 2 ^ 15 + roundedMagnitude (bits % 2 ^ 31))

/-- Bits of the single float for a magnitude, which is given by the bits of a half. -/
def widenedMagnitude (magnitude : Nat) : Nat :=
  let fraction : Nat := magnitude % 2 ^ 10
  let exponent : Nat := magnitude / 2 ^ 10
  if exponent = 31 then
    if fraction = 0 then 255 * 2 ^ 23 else 255 * 2 ^ 23 + (fraction ||| 2 ^ 9) * 2 ^ 13
  else if exponent = 0 then
    if fraction = 0 then
      0
    else
      let leading := fraction.log2
      (leading + 103) * 2 ^ 23 + (fraction - 2 ^ leading) * 2 ^ (23 - leading)
  else
    (exponent + 112) * 2 ^ 23 + fraction * 2 ^ 13

/-- The single float a half stands for. -/
def toSingle (half : UInt16) : Single :=
  let bits := half.toNat
  ⟨UInt32.ofNat (bits / 2 ^ 15 * 2 ^ 31 + widenedMagnitude (bits % 2 ^ 15))⟩

end Half

end DpuCycles
