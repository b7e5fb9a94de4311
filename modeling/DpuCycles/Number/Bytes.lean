import DpuCycles.Number.Multiple

namespace DpuCycles.Bytes

/-! # Numbers as bytes, the least significant byte first -/

/-- The lowest bytes of a number. -/
def ofNat : Nat → Nat → List UInt8
  | 0, _ => []
  | width + 1, value => UInt8.ofNat (value % 256) :: ofNat width (value / 256)

/-- The number that bytes write. -/
def toNat : List UInt8 → Nat
  | [] => 0
  | byte :: rest => byte.toNat + 256 * toNat rest

/-- The groups of a width that follow one another; an incomplete last group is dropped. -/
def groups
    (width : Nat) :
    Nat → List UInt8 → List (List UInt8)
  | 0, _ => []
  | count + 1, bytes => bytes.take width :: groups width count (bytes.drop width)

/-- The numbers that groups of a width write. -/
def words
    (width : Nat)
    (bytes : List UInt8) : List Nat :=
  (groups width (bytes.length / width) bytes).map toNat

/-- As many bytes as were asked for. -/
theorem length_ofNat
    (width value : Nat) :
    (ofNat width value).length = width := by
  induction width generalizing value with
  | zero => rfl
  | succ width inductionHypothesis =>
      simp [ofNat, inductionHypothesis]

/-- Bytes keep the number they write, as far as they reach. -/
theorem toNat_ofNat
    (width value : Nat) :
    toNat (ofNat width value) = value % 256 ^ width := by
  induction width generalizing value with
  | zero => simp [ofNat, toNat, Nat.mod_one]
  | succ width inductionHypothesis =>
      rw [ofNat, toNat, inductionHypothesis, Nat.pow_succ, Nat.mul_comm (256 ^ width),
        Nat.mod_mul, UInt8.toNat_ofNat_of_lt' (Nat.mod_lt _ (by decide))]

end DpuCycles.Bytes
