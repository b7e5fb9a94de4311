import DpuCycles.Json.Reader
import DpuCycles.Json.Writer

namespace DpuCycles.Network

/-!
# Kinds of kernels

A network stores the kinds of its kernels as a JSON array.  A kind is an object
whose `type` names it, or the array of that name and the further fields.
-/

/-- Kind of a kernel, as a network stores it. -/
inductive KernelKind where
  | dense
  | relu
  | sigmoid
  | l2Norm
  | nearest (neighbours : Nat)
  deriving Repr, DecidableEq

namespace KernelKind

/-- Levels of nesting a reader accepts inside a kind. -/
def depth : Nat := 125

/-- Label of the number of neighbours. -/
def neighboursLabel : String := "n_neighbors"

/-- The kind with a name and the JSON value of its further fields. -/
def ofFields? : String → Json → Option KernelKind
  | "dense", fields => (Json.record? [] fields).map fun _ => .dense
  | "relu", fields => (Json.record? [] fields).map fun _ => .relu
  | "sigmoid", fields => (Json.record? [] fields).map fun _ => .sigmoid
  | "l2_norm", fields => (Json.record? [] fields).map fun _ => .l2Norm
  | "knn", fields =>
      match Json.record? [neighboursLabel] fields with
      | some [some value] => (value.natural? Text.greatest64).map .nearest
      | _ => none
  | _, _ => none

/-- The kind a JSON value writes. -/
def ofJson? : Json → Option KernelKind
  | .object members =>
      (Json.keyed? members).bind fun keyed =>
        match Json.field? keyed "type" with
        | some (some name) =>
            let others := members.filter fun member => member.1 != some "type"
            if others.all fun member => Json.isSound depth member.2 then
              name.text?.bind fun name => ofFields? name (.object others)
            else
              none
        | _ => none
  | .array (name :: fields) =>
      if fields.all (Json.isSound depth) then
        name.text?.bind fun name => ofFields? name (.array fields)
      else
        none
  | _ => none

/-- The JSON value of a kind. -/
def toJson : KernelKind → Json
  | .dense => .ofMembers [("type", .ofString "dense")]
  | .relu => .ofMembers [("type", .ofString "relu")]
  | .sigmoid => .ofMembers [("type", .ofString "sigmoid")]
  | .l2Norm => .ofMembers [("type", .ofString "l2_norm")]
  | .nearest neighbours =>
      .ofMembers [("type", .ofString "knn"), (neighboursLabel, .ofNat neighbours)]

/-- The kinds a text writes. -/
def readAll? (text : String) : Option (List KernelKind) :=
  (Json.read? text.toList).bind fun value =>
    value.items?.bind fun items => items.mapM ofJson?

/-- The text of kinds. -/
def writeAll (kinds : List KernelKind) : String :=
  String.ofList (Json.array (kinds.map toJson)).compact

end KernelKind

end DpuCycles.Network
