import DpuCycles.Record.Form
import DpuCycles.Tensor

namespace DpuCycles

/-!
# Records of tensors

Extents, amounts and positions stand as lists in the order of their parts.
-/

/-- Four extents. -/
def Shape.form : Form Shape :=
  (Form.list .count).through Shape.toList fun
    | [width, height, channels, batch] => some ⟨width, height, channels, batch⟩
    | _ => none

/-- Two extents. -/
def Extent.form : Form Extent :=
  (Form.list .count).through (fun extent => [extent.width, extent.height]) fun
    | [width, height] => some ⟨width, height⟩
    | _ => none

/-- Amounts at the top, the bottom, the left and the right. -/
def Padding.form : Form Padding :=
  (Form.list .count).through
    (fun padding => [padding.top, padding.bottom, padding.left, padding.right]) fun
    | [top, bottom, left, right] => some ⟨top, bottom, left, right⟩
    | _ => none

/-- Four coordinates. -/
def Offset.form : Form Offset :=
  (Form.list .count).through
    (fun offset => [offset.x, offset.y, offset.channel, offset.batch]) fun
    | [x, y, channel, batch] => some ⟨x, y, channel, batch⟩
    | _ => none

/-- Members of a tensor. -/
def Tensor.record : Record Tensor :=
  [.of "shape" Shape.form (·.shape) fun shape tensor => { tensor with shape },
    .of "dtype" .named (·.dtype) fun dtype tensor => { tensor with dtype },
    .of "layout" .named (·.layout) fun layout tensor => { tensor with layout },
    .of "sparsity" .truth (·.sparse) fun sparse tensor => { tensor with sparse }]

/-- Tensors over the one of sixteen by sixteen points with 64 channels of bytes. -/
def Tensor.form : Form Tensor :=
  Tensor.record.formOver (.dense ⟨16, 16, 64, 1⟩ .uint8)

end DpuCycles
