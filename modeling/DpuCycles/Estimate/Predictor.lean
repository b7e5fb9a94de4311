import DpuCycles.Descriptor.JobLayout
import DpuCycles.Network.Runner
import DpuCycles.Number.Multiple

namespace DpuCycles

open Network

/-!
# Predictors

A predictor is a network that fits the library: its version names a layout of
descriptors and a reading of outputs, and the descriptors have the width of its
input.
-/

/-- A network with the descriptors it reads and the reading of its output. -/
structure Predictor where
  network : Trained
  schema : Descriptor.Schema Job
  reading : OutputReading

/-- Why a network does not fit. -/
inductive PredictorFault where
  | inputVersion (version : Nat) (name : String)
  | outputVersion (version : Nat) (name : String)
  | schema (fault : Descriptor.SchemaFault)
  | width (descriptor network : Nat)
  deriving Repr, DecidableEq

namespace PredictorFault

/-- Text of a fault. -/
def message : PredictorFault → String
  | .inputVersion version name =>
      "Input interface version " ++ toString version ++ " is not supported (model '" ++ name ++
        "')"
  | .outputVersion version name =>
      "Output interface version " ++ toString version ++ " is not supported (model '" ++ name ++
        "')"
  | .schema fault => "Schema error: " ++ fault.message
  | .width descriptor network =>
      "Encoder produces " ++ toString descriptor ++ " features but the model expects " ++
        toString network

end PredictorFault

namespace Predictor

/-- The layout that a version names. -/
def layout (version : Version) : Except PredictorFault Descriptor.JobLayout :=
  match Descriptor.JobLayout.ofNumber? version.input with
  | some layout => .ok layout
  | none => .error (.inputVersion version.input version.name)

/-- The reading that a version names. -/
def readingOf (version : Version) : Except PredictorFault OutputReading :=
  match OutputReading.ofNumber? version.output with
  | some reading => .ok reading
  | none => .error (.outputVersion version.output version.name)

/-- The predictor of a network. -/
def ofNetwork (network : Trained) : Except PredictorFault Predictor := do
  let layout ← layout network.version
  let reading ← readingOf network.version
  match layout.schema with
  | .error fault => .error (.schema fault)
  | .ok schema =>
      if schema.width = network.inputSize then
        .ok ⟨network, schema, reading⟩
      else
        .error (.width schema.width network.inputSize)

/-- The first value of each row of a width; a last row may be shorter. -/
def firsts
    (width : Nat)
    (values : Array Single) : List Float32 :=
  (List.range (ceilDiv values.size width)).map fun row =>
    (values.getD (row * width) .zero).toFloat32

/-- The descriptors of jobs one after another. -/
def descriptors
    (predictor : Predictor)
    (jobs : List Job) : Array Single :=
  ((jobs.flatMap predictor.schema.vector).map Single.ofFloat32).toArray

/--
One output for each job, computed in a context.  Descriptors fill whole rows, so
a context with rows loses none of them.
-/
def outputs
    (predictor : Predictor)
    (context : Context)
    (jobs : List Job) : Context × List Float32 :=
  match predictor.network.predict context (predictor.descriptors jobs) with
  | (next, .ok values) => (next, firsts (max predictor.network.outputSize 1) values)
  | (next, .error _) => (next, [])

end Predictor

end DpuCycles
