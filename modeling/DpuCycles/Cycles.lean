import DpuCycles.Number.Rounded

namespace DpuCycles

/-!
# Cycle counts and error codes

Inside the library a cost is `Except CostError Nat`.  At the boundary a cost is
one 32-bit scalar: the last thousand values stand for errors, everything below
is a count.  `CostError.code` and `CostError.ofCode?` are the only conversions.
-/

/-- Why a workload has no cost. -/
inductive CostError where
  | inputTooBig
  | invalidInputConfiguration
  | invalidInputDevice
  | invalidInputOperation
  | invalidOutputRange
  | tileOutput
  | tileSplitZeroCycles
  | tileSplitException
  | invalidLayerConfiguration
  /-- A code of the error range without a name of its own. -/
  | other (code : Nat)
  deriving Repr, DecidableEq

namespace Cycles

/-- The greatest scalar. -/
def greatest : Nat := 4294967295

/-- The greatest scalar that is a count.  Every value above it is an error code. -/
def limit : Nat := greatest - 1000

/-- Whether a scalar is an error code. -/
def isError (scalar : Nat) : Bool :=
  decide (limit < scalar)

/-- A count clamped below the error codes. -/
def clamp (count : Nat) : Nat :=
  min count limit

/--
Add two scalars.  An error on either side wins, the left one first; the sum of
two counts is clamped below the error codes.
-/
def add
    (left right : Nat) : Nat :=
  if isError left then
    left
  else if isError right then
    right
  else
    clamp (left + right)

/-- The sums that scalars lead to when they are added one after another. -/
def runningSums : Nat → List Nat → List Nat
  | _, [] => []
  | sum, scalar :: rest => add sum scalar :: runningSums (add sum scalar) rest

/--
A predicted value as whole cycles, rounded up and clamped.  A prediction that is
not a positive finite number gives none.
-/
def ofPrediction (value : Float32) : Nat :=
  match Rounded.ofFloat32 value with
  | .finite significand exponent =>
      clamp (Rounded.finite significand exponent).ceil.toNat
  | _ => 0

end Cycles

namespace CostError

/-- The scalar of an error. -/
def code : CostError → Nat
  | .inputTooBig => Cycles.greatest
  | .invalidInputConfiguration => Cycles.greatest - 1
  | .invalidInputDevice => Cycles.greatest - 2
  | .invalidInputOperation => Cycles.greatest - 3
  | .invalidOutputRange => Cycles.greatest - 4
  | .tileOutput => Cycles.greatest - 5
  | .tileSplitZeroCycles => Cycles.greatest - 6
  | .tileSplitException => Cycles.greatest - 7
  | .invalidLayerConfiguration => Cycles.greatest - 8
  | .other code => code

/-- The errors with a name, by rising distance of their code from the greatest scalar. -/
def named : List CostError :=
  [.inputTooBig, .invalidInputConfiguration, .invalidInputDevice, .invalidInputOperation,
    .invalidOutputRange, .tileOutput, .tileSplitZeroCycles, .tileSplitException,
    .invalidLayerConfiguration]

/-- The error of a scalar, `none` for a count. -/
def ofCode? (scalar : Nat) : Option CostError :=
  if Cycles.isError scalar then
    some ((named.find? fun error => error.code == scalar).getD (.other scalar))
  else
    none

/-- Text of an error. -/
def message : CostError → String
  | .inputTooBig => "input too big for CMX"
  | .invalidInputConfiguration => "invalid input configuration"
  | .invalidInputDevice => "invalid input device"
  | .invalidInputOperation => "invalid input operation"
  | .invalidOutputRange => "inferred value outside the valid output range"
  | .tileOutput => "tile output error"
  | .tileSplitZeroCycles => "tile split produced zero cycles"
  | .tileSplitException => "tile split exception"
  | .invalidLayerConfiguration => "invalid layer configuration"
  | .other code => "unknown error code " ++ toString code

end CostError

namespace Cycles

/-- The scalar of a cost. -/
def toScalar : Except CostError Nat → Nat
  | .ok count => clamp count
  | .error error => error.code

/-- The cost a scalar stands for. -/
def ofScalar (scalar : Nat) : Except CostError Nat :=
  match CostError.ofCode? scalar with
  | some error => .error error
  | none => .ok scalar

end Cycles

end DpuCycles
