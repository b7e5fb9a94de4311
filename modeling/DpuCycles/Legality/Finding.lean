import DpuCycles.Legality.Footprint
import DpuCycles.Number.Shortest

namespace DpuCycles

/-!
# Findings

A finding names one rule that a job breaks, together with the values that break
it.  The rules are checked in a fixed order and all findings are collected.
-/

/-- Axes of the plane. -/
inductive Axis where
  | width
  | height
  deriving Repr, DecidableEq

namespace Axis

def label : Axis → String
  | .width => "width"
  | .height => "height"

end Axis

/-- Edges of the plane. -/
inductive Edge where
  | top
  | bottom
  | left
  | right
  deriving Repr, DecidableEq

namespace Edge

def label : Edge → String
  | .top => "top"
  | .bottom => "bottom"
  | .left => "left"
  | .right => "right"

end Edge

/-- The tensors a job reads and writes. -/
inductive Side where
  | input
  | output
  deriving Repr, DecidableEq

namespace Side

def label : Side → String
  | .input => "input"
  | .output => "output"

end Side

/-- Halos on the output side. -/
inductive OutputHalo where
  | written
  | broadcast
  | inbound
  deriving Repr, DecidableEq

namespace OutputHalo

def label : OutputHalo → String
  | .written => "output halo"
  | .broadcast => "output halo broadcast"
  | .inbound => "inbound halo"

end OutputHalo

/-- Streams with a fraction of zeros. -/
inductive Stream where
  | activations
  | weights
  deriving Repr, DecidableEq

namespace Stream

def label : Stream → String
  | .activations => "act_sparsity"
  | .weights => "weight_sparsity"

end Stream

/-- One broken rule. -/
inductive Finding where
  | mode (mode : ExecutionMode) (accepted : List ExecutionMode)
  | operandSwizzling (operand : Nat) (swizzling : Swizzling)
  | outputSwizzling (swizzling : Swizzling)
  | writeTiles (tiles : Nat) (accepted : List Nat)
  | writeTilesOfOperation (tiles : Nat) (operation : Operation)
  | isiStrategy (strategy : IsiStrategy)
  | channelSplitToOneTile
  | severalTilesWithoutChannelSplit (tiles : Nat) (strategy : IsiStrategy)
  | dataType (side : Side) (dtype : DataType)
  | weightType (dtype : DataType)
  | layout (side : Side) (layout : Layout)
  | channels (side : Side) (count : Nat) (accepted : ChannelRange)
  | differentChannels (operation : Operation) (input output : Nat)
  | extent (side : Side) (axis : Axis) (value limit : Nat)
  | differentBatches (input output : Nat)
  | batch (count : Nat)
  | kernel (axis : Axis) (value limit : Nat)
  | stride (axis : Axis) (value limit : Nat)
  | strideBeyondInput (axis : Axis) (value input : Nat)
  | padding (edge : Edge) (value limit : Nat)
  | outputExtent (axis : Axis) (value : Nat) (expected : Option Nat)
  | sparsity (stream : Stream) (value : Float32)
  | sparseWeightsOfOperation (operation : Operation)
  | sparsityOfDenseWeights
  | sparseInputOfOperation (operation : Operation)
  | sparsityOfDenseInput
  | negativeInputHalo (halo : Halo)
  | paddingAndHalo (edge : Edge) (padding : Nat) (halo : Int)
  | negativeOutputHalo (kind : OutputHalo) (halo : Halo)
  | outputHaloOfDevice (kind : OutputHalo) (device : Device)
  | pointerTableOfOperation (operation : Operation)
  | pointerTableChannels (count : Nat)
  | pointerTableOfChannelMajor
  deriving Repr, DecidableEq

namespace Finding

open Enumerated (label)

/-- Amounts of a halo in a message. -/
def haloText (halo : Halo) : String :=
  Text.listing (halo.toList.map toString)

/-- Text of a finding. -/
def message : Finding → String
  | .mode value accepted =>
      "execution mode " ++ label value ++ " not in " ++ Text.listing (accepted.map label)
  | .operandSwizzling operand swizzling =>
      "input_" ++ toString operand ++ " swizzling " ++ label swizzling ++ " not supported"
  | .outputSwizzling swizzling => "output swizzling " ++ label swizzling ++ " not supported"
  | .writeTiles tiles accepted =>
      "output_write_tiles " ++ toString tiles ++ " not in " ++
        Text.listing (accepted.map toString)
  | .writeTilesOfOperation tiles operation =>
      "output_write_tiles " ++ toString tiles ++ " not allowed for " ++ label operation
  | .isiStrategy strategy => "ISI strategy " ++ label strategy ++ " not supported"
  | .channelSplitToOneTile => "SPLIT_OVER_K requires output_write_tiles > 1"
  | .severalTilesWithoutChannelSplit tiles strategy =>
      "output_write_tiles " ++ toString tiles ++ " requires SPLIT_OVER_K, got " ++ label strategy
  | .dataType side dtype => side.label ++ " datatype " ++ label dtype ++ " invalid"
  | .weightType dtype => "weight datatype " ++ label dtype ++ " invalid"
  | .layout side order => side.label ++ " layout " ++ label order ++ " invalid"
  | .channels side count accepted =>
      side.label ++ " channels " ++ toString count ++ " not in " ++ accepted.describe
  | .differentChannels operation input output =>
      label operation ++ " needs equal channels, got " ++ toString input ++ " and " ++
        toString output
  | .extent side axis value limit =>
      side.label ++ " " ++ axis.label ++ " " ++ toString value ++ " outside [1, " ++
        toString limit ++ "]"
  | .differentBatches input output =>
      "batch mismatch " ++ toString input ++ " vs " ++ toString output
  | .batch count => "batch " ++ toString count ++ " not supported"
  | .kernel axis value limit =>
      "kernel " ++ axis.label ++ " " ++ toString value ++ " outside [1, " ++ toString limit ++ "]"
  | .stride axis value limit =>
      "stride " ++ axis.label ++ " " ++ toString value ++ " outside [1, " ++ toString limit ++ "]"
  | .strideBeyondInput axis value input =>
      "stride " ++ axis.label ++ " " ++ toString value ++ " larger than input " ++ toString input
  | .padding edge value limit =>
      edge.label ++ " padding " ++ toString value ++ " larger than kernel/2 (" ++
        toString limit ++ ")"
  | .outputExtent axis value expected =>
      "output " ++ axis.label ++ " " ++ toString value ++ " inconsistent, expected " ++
        Text.optional (expected.map toString)
  | .sparsity stream value => stream.label ++ " " ++ float32Text value ++ " outside [0, 1]"
  | .sparseWeightsOfOperation operation =>
      "weight sparsity not supported for " ++ label operation
  | .sparsityOfDenseWeights => "weight_sparsity set while disabled"
  | .sparseInputOfOperation operation =>
      "activation sparsity not supported for " ++ label operation
  | .sparsityOfDenseInput => "act_sparsity set while input is dense"
  | .negativeInputHalo halo => "negative input halo " ++ haloText halo
  | .paddingAndHalo edge zeros halo =>
      edge.label ++ " edge has both padding " ++ toString zeros ++ " and halo " ++ toString halo
  | .negativeOutputHalo kind halo => "negative " ++ kind.label ++ " " ++ haloText halo
  | .outputHaloOfDevice kind device => kind.label ++ " not supported on " ++ label device
  | .pointerTableOfOperation operation => "SEP not supported for " ++ label operation
  | .pointerTableChannels count =>
      "SEP pointer table needs one channel, got " ++ toString count
  | .pointerTableOfChannelMajor => "SEP with CM_CONVOLUTION"

end Finding

end DpuCycles
