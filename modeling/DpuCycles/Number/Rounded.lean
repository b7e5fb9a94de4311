import DpuCycles.Number.Multiple

namespace DpuCycles

/-!
# Quantities rounded to 53 significant bits

Cost formulas mix counts with ratios of clocks and bandwidths.  Every operation
here computes the exact rational result and then keeps its 53 leading bits,
nearest first and ties to the even neighbour.  Quantities are never negative,
and the exponent is unbounded, so a result is exact as soon as it fits.

Divisions without a result stay visible: zero by zero is `undefined`, anything
else by zero is `infinite`.
-/

/-- A non-negative quantity, or the outcome of a division that has none. -/
inductive Rounded where
  /-- Zero by zero, and whatever is computed from it. -/
  | undefined
  /-- A quantity beyond every bound. -/
  | infinite
  /-- The quantity `significand * 2 ^ exponent`. -/
  | finite (significand : Nat) (exponent : Int)
  deriving Repr, DecidableEq

namespace Rounded

/-- Significant bits of a quantity. -/
def precision : Nat := 53

/-- The natural nearest to a quotient; a tie goes to the even one. -/
def nearestQuotient
    (dividend divisor : Nat) : Nat :=
  let quotient := dividend / divisor
  let rest := dividend % divisor
  if 2 * rest < divisor then
    quotient
  else if divisor < 2 * rest then
    quotient + 1
  else
    quotient + quotient % 2

/-- A natural times a power of two, cut to the significant bits. -/
def normalize
    (value : Nat)
    (exponent : Int) : Rounded :=
  if value < 2 ^ precision then
    .finite value exponent
  else
    let dropped := value.log2 + 1 - precision
    .finite (nearestQuotient value (2 ^ dropped)) (exponent + dropped)

/-- The quantity of a count. -/
def ofNat (count : Nat) : Rounded :=
  normalize count 0

def zero : Rounded := .finite 0 0

def one : Rounded := .finite 1 0

/--
The exponent `e` for which a positive quotient lies between `2 ^ e` and
`2 ^ (e + 1)`.
-/
def quotientExponent
    (dividend divisor : Nat) : Int :=
  let guess : Int := (dividend.log2 : Int) - divisor.log2
  let reaches :=
    if guess < 0 then
      decide (divisor ≤ dividend <<< guess.natAbs)
    else
      decide (divisor <<< guess.natAbs ≤ dividend)
  if reaches then guess else guess - 1

/-- A quotient of positive naturals times a power of two. -/
def ofQuotient
    (dividend divisor : Nat)
    (exponent : Int) : Rounded :=
  let unit := quotientExponent dividend divisor + 1 - precision
  if unit < 0 then
    .finite (nearestQuotient (dividend <<< unit.natAbs) divisor) (exponent + unit)
  else
    .finite (nearestQuotient dividend (divisor <<< unit.natAbs)) (exponent + unit)

/-- Sum. -/
def add : Rounded → Rounded → Rounded
  | .undefined, _ => .undefined
  | _, .undefined => .undefined
  | .infinite, _ => .infinite
  | _, .infinite => .infinite
  | .finite a i, .finite b j =>
      let unit := min i j
      normalize (a <<< (i - unit).toNat + b <<< (j - unit).toNat) unit

/-- Product. -/
def mul : Rounded → Rounded → Rounded
  | .undefined, _ => .undefined
  | _, .undefined => .undefined
  | .infinite, .infinite => .infinite
  | .infinite, .finite b _ => if b = 0 then .undefined else .infinite
  | .finite a _, .infinite => if a = 0 then .undefined else .infinite
  | .finite a i, .finite b j => normalize (a * b) (i + j)

/-- Quotient. -/
def div : Rounded → Rounded → Rounded
  | .undefined, _ => .undefined
  | _, .undefined => .undefined
  | .infinite, .infinite => .undefined
  | .infinite, .finite _ _ => .infinite
  | .finite _ _, .infinite => zero
  | .finite a i, .finite b j =>
      if b = 0 then
        if a = 0 then .undefined else .infinite
      else if a = 0 then
        zero
      else
        ofQuotient a b (i - j)

instance : Add Rounded := ⟨add⟩
instance : Mul Rounded := ⟨mul⟩
instance : Div Rounded := ⟨div⟩

/-- Finite quantities in order, compared exactly. -/
def finiteLe
    (a : Nat) (i : Int)
    (b : Nat) (j : Int) : Bool :=
  let unit := min i j
  decide (a <<< (i - unit).toNat ≤ b <<< (j - unit).toNat)

/-- Strictly smaller.  Nothing is smaller than `undefined`, nor the other way round. -/
def lt : Rounded → Rounded → Bool
  | .undefined, _ => false
  | _, .undefined => false
  | .infinite, _ => false
  | .finite _ _, .infinite => true
  | .finite a i, .finite b j => !finiteLe b j a i

/-- The smaller quantity.  An undefined one is passed over. -/
def least : Rounded → Rounded → Rounded
  | .undefined, right => right
  | left, .undefined => left
  | left, right => if lt right left then right else left

/-- What is missing to one; nothing is missing to a quantity above one. -/
def complement : Rounded → Rounded
  | .undefined => .undefined
  | .infinite => zero
  | .finite a i =>
      if i < 0 then
        let whole := 2 ^ i.natAbs
        if whole ≤ a then zero else normalize (whole - a) i
      else
        if a = 0 then one else zero

/-- The least whole quantity that is not smaller. -/
def ceil : Rounded → Rounded
  | .finite a i =>
      if i < 0 then
        .finite ((a + (2 ^ i.natAbs - 1)) / 2 ^ i.natAbs) 0
      else
        .finite a i
  | other => other

/-- The greatest count that fits 64 bits. -/
def greatestCount : Nat := 2 ^ 64 - 1

/-- The whole part as a count of at most 64 bits.  An undefined quantity counts nothing. -/
def toNat : Rounded → Nat
  | .undefined => 0
  | .infinite => greatestCount
  | .finite a i =>
      if i < 0 then
        min (a / 2 ^ i.natAbs) greatestCount
      else
        min (a <<< i.natAbs) greatestCount

/-- The quantity of a 32-bit float; a negative one counts as zero. -/
def ofFloat32 (value : Float32) : Rounded :=
  let bits := value.toBits.toNat
  let fraction : Nat := bits % 2 ^ 23
  let exponent : Nat := bits / 2 ^ 23 % 2 ^ 8
  if exponent = 255 ∧ fraction ≠ 0 then
    .undefined
  else if 2 ^ 31 ≤ bits then
    zero
  else if exponent = 255 then
    .infinite
  else if exponent = 0 then
    .finite fraction (-149)
  else
    .finite (2 ^ 23 + fraction) ((exponent : Int) - 150)

end Rounded

end DpuCycles
