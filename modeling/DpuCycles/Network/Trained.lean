import DpuCycles.Network.Kernel
import DpuCycles.Network.KernelKind
import DpuCycles.Network.TensorFile
import DpuCycles.Network.Version
import DpuCycles.Number.Half

namespace DpuCycles.Network

/-!
# Trained networks

A network is a row of kernels with the width of its input.  It is read from a
file of tensors: kernel `i` has its numbers under `layer.i.weight`,
`layer.i.bias` and `layer.i.target`.  A file that does not describe a network in
which every kernel takes what the one before it gives is no network at all.

Reading stops without a result where a missing bias stands for more zeros than there
is room for.
-/

/-- A network; without kernels it computes nothing. -/
structure Trained where
  version : Version
  inputSize : Nat
  kernels : List Kernel
  /-- Length of the file it was read from. -/
  fileLength : Nat
  deriving Repr, DecidableEq

namespace Trained

/-- No network. -/
def absent : Trained := ⟨.unnamed, 0, [], 0⟩

/-- Whether there is a network. -/
def isPresent (network : Trained) : Bool :=
  !network.kernels.isEmpty

/-- Width of a row after kernels. -/
def widthAfter
    (width : Nat)
    (kernels : List Kernel) : Nat :=
  kernels.foldl (fun width kernel => kernel.outputWidth width) width

/-- Width of the output. -/
def outputSize (network : Trained) : Nat :=
  widthAfter network.inputSize network.kernels

/-- Widths of a row after each of the kernels. -/
def widths : Nat → List Kernel → List Nat
  | _, [] => []
  | width, kernel :: rest =>
      kernel.outputWidth width :: widths (kernel.outputWidth width) rest

/-- Width of the widest row between the kernels. -/
def maxWidth (network : Trained) : Nat :=
  (widths network.inputSize network.kernels).foldl max network.inputSize

/-- One row through all kernels. -/
def apply
    (network : Trained)
    (row : Array Single) : Array Single :=
  network.kernels.foldl (fun row kernel => kernel.apply row) row

/-- The single floats of an entry. -/
def floats?
    (file : TensorFile)
    (entry : Entry) : Option (Array Single) :=
  let bytes := file.bytesOf entry
  match entry.dtype with
  | .f32 =>
      some ((Bytes.words 4 bytes).map fun word => ⟨UInt32.ofNat word⟩).toArray
  | .f16 => some ((Bytes.words 2 bytes).map fun word => Half.toSingle (UInt16.ofNat word)).toArray
  | _ => none

/-- Name of one tensor of a kernel. -/
def tensorName
    (kernel : Nat)
    (part : String) : String :=
  "layer." ++ toString kernel ++ "." ++ part

/-- Columns of a matrix with a number of rows. -/
def columns?
    (rows : Nat) :
    List Nat → Option Nat
  | [height, width] => if height = rows then some width else none
  | _ => none

/-- The weights of a kernel with their columns. -/
def matrix?
    (file : TensorFile)
    (kernel width : Nat) : Option (Nat × Array Single) :=
  (file.entryOf? (tensorName kernel "weight")).bind fun entry =>
    (floats? file entry).bind fun numbers =>
      (columns? width entry.shape).map fun columns => (columns, numbers)

/-- The bias of a kernel: missing, or single floats. -/
def bias?
    (file : TensorFile)
    (kernel : Nat) : Option (Option (Array Single)) :=
  match file.entryOf? (tensorName kernel "bias") with
  | none => some none
  | some entry => (floats? file entry).map some

/-- The kernel of a kind for rows of a width. -/
def kernel?
    (file : TensorFile)
    (position width : Nat) :
    KernelKind → Option Kernel
  | .relu => some .relu
  | .sigmoid => some .sigmoid
  | .l2Norm => some .l2Norm
  | .dense =>
      (matrix? file position width).bind fun (outputs, weight) =>
        (bias? file position).bind fun bias =>
          (Dense.make width outputs weight bias).toOption.map .dense
  | .nearest neighbours =>
      (matrix? file position width).bind fun (points, weight) =>
        (file.entryOf? (tensorName position "target")).bind fun entry =>
          (floats? file entry).bind fun target =>
            (Nearest.make width points neighbours weight target).toOption.map .nearest

/-- Whether reading a kernel stops for want of room. -/
def lacksRoom
    (file : TensorFile)
    (position width : Nat) :
    KernelKind → Bool
  | .dense =>
      (matrix? file position width).any fun (outputs, weight) =>
        (bias? file position).any fun bias =>
          match Dense.make width outputs weight bias with
          | .error (.noRoom _) => true
          | _ => false
  | _ => false

/-- The kernels of kinds from a position on. -/
def kernels?
    (file : TensorFile) :
    Nat → Nat → List KernelKind → Option (List Kernel)
  | _, _, [] => some []
  | position, width, kind :: rest =>
      (kernel? file position width kind).bind fun kernel =>
        (kernels? file (position + 1) (kernel.outputWidth width) rest).map (kernel :: ·)

/-- Whether reading kernels from a position on comes to one that lacks room. -/
def lackRoom
    (file : TensorFile) :
    Nat → Nat → List KernelKind → Bool
  | _, _, [] => false
  | position, width, kind :: rest =>
      lacksRoom file position width kind ||
        (kernel? file position width kind).any fun kernel =>
          lackRoom file (position + 1) (kernel.outputWidth width) rest

/-- Name of the text with the version. -/
def versionKey : String := "name"

/-- Name of the text with the kinds of the kernels. -/
def kindsKey : String := "layers"

/-- Name of the text with the width of the input. -/
def inputSizeKey : String := "input_size"

/-- The width of the input and the kinds of the kernels that the texts of a file name. -/
def shape? (file : TensorFile) : Option (Nat × List KernelKind) :=
  ((file.text? kindsKey).bind KernelKind.readAll?).bind fun kinds =>
    ((file.text? inputSizeKey).bind fun text =>
        Text.unsigned? Text.greatest64 (Text.trim text.toList)).bind fun inputSize =>
      if kinds.isEmpty || inputSize == 0 then none else some (inputSize, kinds)

/-- The network of a file of tensors. -/
def ofFile?
    (length : Nat)
    (file : TensorFile) : Option Trained :=
  let version := ((file.text? versionKey).map Version.parse).getD .unnamed
  (shape? file).bind fun (inputSize, kinds) =>
    (kernels? file 0 inputSize kinds).map fun kernels =>
      ⟨version, inputSize, kernels, length⟩

/-- The network of bytes, `absent` when they hold none. -/
def ofBytes (bytes : List UInt8) : Trained :=
  ((TensorFile.read? bytes).bind (ofFile? bytes.length)).getD absent

/-- Whether reading bytes stops without a result. -/
def stopsAt (bytes : List UInt8) : Bool :=
  (TensorFile.read? bytes).any fun file =>
    (shape? file).any fun (inputSize, kinds) => lackRoom file 0 inputSize kinds

/-- Read the network of bytes, `none` when that stops. -/
def load? (bytes : List UInt8) : Option Trained :=
  if stopsAt bytes then none else some (ofBytes bytes)

end Trained

end DpuCycles.Network
