namespace DpuCycles

/-!
# Extents

Tensors have four extents in the order width, height, channels, batch.  Kernels
and strides have two, padding has one amount for each edge of the plane, and a
position inside a layer has one coordinate for each extent.
-/

/-- Extents of a tensor. -/
structure Shape where
  width : Nat
  height : Nat
  channels : Nat
  batch : Nat
  deriving Repr, DecidableEq

namespace Shape

/-- Number of elements. -/
def volume (shape : Shape) : Nat :=
  shape.width * shape.height * shape.channels * shape.batch

/-- The four extents in order. -/
def toList (shape : Shape) : List Nat :=
  [shape.width, shape.height, shape.channels, shape.batch]

end Shape

/-- Two extents of the plane, as kernels and strides have them. -/
structure Extent where
  width : Nat
  height : Nat
  deriving Repr, DecidableEq

namespace Extent

/-- Number of points of the rectangle. -/
def area (extent : Extent) : Nat :=
  extent.width * extent.height

end Extent

/-- Zeros added along each edge of the plane. -/
structure Padding where
  top : Nat
  bottom : Nat
  left : Nat
  right : Nat
  deriving Repr, DecidableEq

/-- Position of the first element of a piece inside its layer. -/
structure Offset where
  x : Nat
  y : Nat
  channel : Nat
  batch : Nat
  deriving Repr, DecidableEq

end DpuCycles
