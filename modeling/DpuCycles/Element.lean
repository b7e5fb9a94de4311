import DpuCycles.Enumerated

namespace DpuCycles

/-! # Element types and memory layouts -/

/-- Type of one tensor element. -/
inductive DataType where
  | uint8
  | int8
  | float16
  | bfloat16
  | bf8
  | hf8
  | uint4
  | int4
  | uint2
  | int2
  | uint1
  | int1
  | int32
  | float32
  deriving Repr, DecidableEq

namespace DataType

instance : Enumerated DataType where
  domain := "DataType"
  values := [.uint8, .int8, .float16, .bfloat16, .bf8, .hf8, .uint4, .int4, .uint2, .int2,
    .uint1, .int1, .int32, .float32]
  label
    | .uint8 => "Uint8"
    | .int8 => "Int8"
    | .float16 => "Float16"
    | .bfloat16 => "Bfloat16"
    | .bf8 => "Bf8"
    | .hf8 => "Hf8"
    | .uint4 => "Uint4"
    | .int4 => "Int4"
    | .uint2 => "Uint2"
    | .int2 => "Int2"
    | .uint1 => "Uint1"
    | .int1 => "Int1"
    | .int32 => "Int32"
    | .float32 => "Float32"

/-- Bytes one element occupies.  Types below a byte still take one. -/
def bytes : DataType → Nat
  | .float16 => 2
  | .bfloat16 => 2
  | .int32 => 4
  | .float32 => 4
  | _ => 1

/-- Bits one element needs when it is packed. -/
def bits : DataType → Nat
  | .uint4 => 4
  | .int4 => 4
  | .uint2 => 2
  | .int2 => 2
  | .uint1 => 1
  | .int1 => 1
  | dtype => dtype.bytes * 8

/-- Floating-point types. -/
def isFloat : DataType → Bool
  | .float16 => true
  | .bfloat16 => true
  | .bf8 => true
  | .hf8 => true
  | .float32 => true
  | _ => false

/-- True when operands of these types are multiplied in floating point. -/
def multipliesAsFloat
    (input weights : DataType) : Bool :=
  input.isFloat || weights.isFloat

end DataType

/-- Order of the dimensions of a tensor in memory. -/
inductive Layout where
  | zMajor
  | cMajor
  | xyz
  | xzy
  | yxz
  | yzx
  | zxy
  | zyx
  | invalid
  deriving Repr, DecidableEq

instance : Enumerated Layout where
  domain := "Layout"
  values := [.zMajor, .cMajor, .xyz, .xzy, .yxz, .yzx, .zxy, .zyx, .invalid]
  label
    | .zMajor => "ZMajor"
    | .cMajor => "CMajor"
    | .xyz => "Xyz"
    | .xzy => "Xzy"
    | .yxz => "Yxz"
    | .yzx => "Yzx"
    | .zxy => "Zxy"
    | .zyx => "Zyx"
    | .invalid => "Invalid"

end DpuCycles
