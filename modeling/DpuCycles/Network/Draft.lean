import DpuCycles.Network.Trained

namespace DpuCycles.Network

/-!
# Drafts of networks

A draft lists the kernels of a network with their numbers and is written as a
file of tensors that reads back as that network.
-/

/-- One kernel of a draft; its input width is that of the kernels before it. -/
inductive KernelDraft where
  | dense (outputs : Nat) (weight : List Single) (bias : Option (List Single))
  | relu
  | sigmoid
  | l2Norm
  | nearest (neighbours : Nat) (points targets : List Single)
  deriving Repr, DecidableEq

namespace KernelDraft

/-- Kind of the kernel. -/
def kind : KernelDraft → KernelKind
  | .dense _ _ _ => .dense
  | .relu => .relu
  | .sigmoid => .sigmoid
  | .l2Norm => .l2Norm
  | .nearest neighbours _ _ => .nearest neighbours

/-- Width of the rows the kernel produces. -/
def outputWidth : KernelDraft → Nat → Nat
  | .dense outputs _ _, _ => outputs
  | .nearest _ _ _, _ => 1
  | _, width => width

end KernelDraft

/-- A tensor to be stored. -/
structure Stored where
  name : String
  shape : List Nat
  values : List Single
  deriving Repr, DecidableEq

namespace KernelDraft

/-- The tensors of a kernel at a position, for rows of a width. -/
def tensors
    (position width : Nat) :
    KernelDraft → List Stored
  | .dense outputs weight none =>
      [⟨Trained.tensorName position "weight", [width, outputs], weight⟩]
  | .dense outputs weight (some bias) =>
      [⟨Trained.tensorName position "weight", [width, outputs], weight⟩,
        ⟨Trained.tensorName position "bias", [outputs], bias⟩]
  | .nearest _ points targets =>
      [⟨Trained.tensorName position "weight", [width, targets.length], points⟩,
        ⟨Trained.tensorName position "target", [targets.length], targets⟩]
  | _ => []

end KernelDraft

/-- A network to be written. -/
structure Draft where
  version : Version
  inputSize : Nat
  /-- Store halves instead of single floats. -/
  half : Bool
  kernels : List KernelDraft
  deriving Repr, DecidableEq

namespace Draft

/-- The tensors of kernels from a position on. -/
def tensorsFrom : Nat → Nat → List KernelDraft → List Stored
  | _, _, [] => []
  | position, width, kernel :: rest =>
      kernel.tensors position width ++
        tensorsFrom (position + 1) (kernel.outputWidth width) rest

/-- All tensors of a draft. -/
def tensors (draft : Draft) : List Stored :=
  tensorsFrom 0 draft.inputSize draft.kernels

/-- Type of the stored numbers. -/
def dtype (draft : Draft) : StoredType :=
  if draft.half then .f16 else .f32

/-- Bytes of one number. -/
def numberBytes
    (draft : Draft)
    (value : Single) : List UInt8 :=
  if draft.half then
    Bytes.ofNat 2 (Half.ofSingle value).toNat
  else
    Bytes.ofNat 4 value.bits.toNat

/-- Whether a tensor has as many values as its extents say. -/
def fits (stored : Stored) : Bool :=
  stored.values.length == stored.shape.foldl (· * ·) 1

/-- Entries for tensors that follow one another from a byte on. -/
def place
    (dtype : StoredType) :
    Nat → List Stored → List Entry
  | _, [] => []
  | start, stored :: rest =>
      let stop := start + stored.values.length * dtype.bytes
      ⟨stored.name, dtype, stored.shape, start, stop⟩ :: place dtype stop rest

/-- Order of tensors in a file. -/
def storedBefore
    (left right : Stored) : Bool :=
  !decide (right.name < left.name)

/-- The named texts of a draft. -/
def texts (draft : Draft) : List (String × String) :=
  [(Trained.versionKey, draft.version.text),
    (Trained.kindsKey, KernelKind.writeAll (draft.kernels.map KernelDraft.kind)),
    (Trained.inputSizeKey, toString draft.inputSize)]

/-- The file of a draft, `none` when a tensor does not have the values its extents call for. -/
def toFile? (draft : Draft) : Option TensorFile :=
  if draft.tensors.all fits then
    let stored := draft.tensors.mergeSort storedBefore
    some
      { texts := draft.texts
        entries := place draft.dtype 0 stored
        data := stored.flatMap fun tensor => tensor.values.flatMap draft.numberBytes }
  else
    none

/-- The bytes of a draft. -/
def toBytes? (draft : Draft) : Option (List UInt8) :=
  draft.toFile?.map TensorFile.write

end Draft

end DpuCycles.Network
