import DpuCycles.Number.Multiple

namespace DpuCycles

/-!
# Single floats by their bits

Numbers of a network are kept as their 32 bits.  So a value that is no number
keeps its sign and its payload, which files store and which decide where it
stands in the order of all floats.

Arithmetic on numbers is that of `Float32`.  An operand that is no number is the
result, made quiet, and of two such operands the left one; an operation on
numbers that has no value gives `undefined`.
-/

/-- The 32-bit float nearest to a count of at most 64 bits. -/
def float32OfNat (count : Nat) : Float32 :=
  count.toUInt64.toFloat32

/-- A 32-bit float by its bits. -/
structure Single where
  bits : UInt32
  deriving Repr, DecidableEq

namespace Single

def zero : Single := ⟨0⟩

def one : Single := ⟨0x3f800000⟩

/-- What an operation on numbers gives that has no value. -/
def undefined : Single := ⟨0xffc00000⟩

instance : Inhabited Single := ⟨zero⟩

/-- The bits of the magnitude. -/
def magnitude (value : Single) : UInt32 :=
  value.bits &&& 0x7fffffff

/-- Whether a value is no number. -/
def isUndefined (value : Single) : Bool :=
  0x7f800000 < value.magnitude

/-- Whether a value is zero, of either sign. -/
def isZero (value : Single) : Bool :=
  value.magnitude == 0

/-- Whether a value is above zero. -/
def isPositive (value : Single) : Bool :=
  0 < value.bits && value.bits ≤ 0x7f800000

/-- A value that is no number, as an operation hands it on. -/
def quiet (value : Single) : Single :=
  ⟨value.bits ||| 0x00400000⟩

/-- The bits of a float.  All values that are no numbers become one. -/
def ofFloat32 (value : Float32) : Single :=
  ⟨value.toBits⟩

/-- The float of the bits. -/
def toFloat32 (value : Single) : Float32 :=
  .ofBits value.bits

/-- The result of an operation on numbers. -/
def ofResult (value : Float32) : Single :=
  if value.isNaN then undefined else ofFloat32 value

/-- An operation with one operand. -/
def lift
    (operation : Float32 → Float32)
    (value : Single) : Single :=
  if value.isUndefined then
    value.quiet
  else
    ofResult (operation value.toFloat32)

/-- An operation with two operands. -/
def lift₂
    (operation : Float32 → Float32 → Float32)
    (left right : Single) : Single :=
  if left.isUndefined then
    left.quiet
  else if right.isUndefined then
    right.quiet
  else
    ofResult (operation left.toFloat32 right.toFloat32)

instance : Add Single := ⟨lift₂ Float32.add⟩
instance : Sub Single := ⟨lift₂ Float32.sub⟩
instance : Mul Single := ⟨lift₂ Float32.mul⟩
instance : Div Single := ⟨lift₂ Float32.div⟩

/-- The value with the other sign, numbers or not. -/
instance : Neg Single := ⟨fun value => ⟨value.bits ^^^ 0x80000000⟩⟩

/-- The exponential. -/
def exp : Single → Single := lift Float32.exp

/-- The square root. -/
def sqrt : Single → Single := lift Float32.sqrt

/-- The float nearest to a count of at most 64 bits. -/
def ofNat (count : Nat) : Single :=
  ofFloat32 (float32OfNat count)

/--
Place in the order of all floats.  Below zero the greater magnitude comes first;
values that are no numbers stand outermost, each on the side of its sign.
-/
def rank (value : Single) : Nat :=
  let bits := value.bits.toNat
  if 2 ^ 31 ≤ bits then 2 ^ 32 - 1 - bits else 2 ^ 31 + bits

end Single

end DpuCycles
