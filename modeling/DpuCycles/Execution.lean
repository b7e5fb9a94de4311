import DpuCycles.Enumerated
import DpuCycles.Shape

namespace DpuCycles

/-!
# How work is executed

The execution mode fixes two grids: the block of outputs the multipliers work on
at once, and the cuboid of outputs for which operands are read once.
-/

/-- Execution modes of the multiplier array. -/
inductive ExecutionMode where
  | vector
  | matrix
  | vectorFp16
  | cuboid16x16
  | cuboid8x16
  | cuboid4x16
  deriving Repr, DecidableEq

/-- Outputs for which operands are read once. -/
structure Cuboid where
  width : Nat
  height : Nat
  channels : Nat
  deriving Repr, DecidableEq

namespace ExecutionMode

instance : Enumerated ExecutionMode where
  domain := "ExecutionMode"
  values := [.vector, .matrix, .vectorFp16, .cuboid16x16, .cuboid8x16, .cuboid4x16]
  label
    | .vector => "Vector"
    | .matrix => "Matrix"
    | .vectorFp16 => "VectorFp16"
    | .cuboid16x16 => "Cuboid16x16"
    | .cuboid8x16 => "Cuboid8x16"
    | .cuboid4x16 => "Cuboid4x16"

/-- Block of outputs the multipliers work on at once. -/
def grid : ExecutionMode → Shape
  | .vector => ⟨16, 1, 16, 1⟩
  | .vectorFp16 => ⟨4, 1, 16, 1⟩
  | _ => ⟨4, 4, 16, 1⟩

/-- Cuboid of outputs for which operands are read once. -/
def cuboid : ExecutionMode → Cuboid
  | .cuboid4x16 => ⟨8, 8, 256⟩
  | .cuboid8x16 => ⟨16, 8, 128⟩
  | .cuboid16x16 => ⟨16, 16, 64⟩
  | _ => ⟨1, 1, 1⟩

end ExecutionMode

/-- Address permutations of a buffer. -/
inductive Swizzling where
  | key0
  | key1
  | key2
  | key3
  | key4
  | key5
  deriving Repr, DecidableEq

instance : Enumerated Swizzling where
  domain := "Swizzling"
  values := [.key0, .key1, .key2, .key3, .key4, .key5]
  label
    | .key0 => "Key0"
    | .key1 => "Key1"
    | .key2 => "Key2"
    | .key3 => "Key3"
    | .key4 => "Key4"
    | .key5 => "Key5"

/-- How neighbouring tiles share one output. -/
inductive IsiStrategy where
  | clustering
  | splitOverH
  | splitOverK
  deriving Repr, DecidableEq

instance : Enumerated IsiStrategy where
  domain := "ISIStrategy"
  values := [.clustering, .splitOverH, .splitOverK]
  label
    | .clustering => "Clustering"
    | .splitOverH => "SplitOverH"
    | .splitOverK => "SplitOverK"

end DpuCycles
