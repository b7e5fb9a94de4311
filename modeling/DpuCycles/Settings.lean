import DpuCycles.Record.Form

namespace DpuCycles

/-!
# Settings of a cost model

Settings are kept as a JSON record.  A field that is absent has its default, and
a batch is never smaller than one row once it was read.
-/

/-- Settings of a cost model. -/
structure Settings where
  /-- File of the trained network; without one, costs are closed forms. -/
  networkPath? : Option String
  /-- Rows evaluated at once. -/
  batch : Nat
  profiling : Bool
  /-- Leave the fixed share of local memory out of the budget. -/
  ignoreOverhead : Bool
  /-- Use closed forms when no network is loaded; otherwise every cost is zero. -/
  closedFormFallback : Bool
  deriving Repr, DecidableEq

namespace Settings

/-- The settings nobody changed. -/
def initial : Settings := ⟨none, 1, false, true, true⟩

/-- Use a network. -/
def withNetwork
    (settings : Settings)
    (path : String) : Settings :=
  { settings with networkPath? := some path }

/-- Use a batch of at least one row. -/
def withBatch
    (settings : Settings)
    (rows : Nat) : Settings :=
  { settings with batch := max rows 1 }

/-- Members of the settings, in the order they are written. -/
def record : Record Settings :=
  [.of "model_path" (.option .text) (·.networkPath?)
      fun networkPath? settings => { settings with networkPath? },
    .of "batch_size" .count (·.batch) fun batch settings => { settings with batch },
    .of "profiling" .truth (·.profiling) fun profiling settings => { settings with profiling },
    .of "ignore_cmx_overhead" .truth (·.ignoreOverhead)
      fun ignoreOverhead settings => { settings with ignoreOverhead },
    .of "use_theoretical_fallback" .truth (·.closedFormFallback)
      fun closedFormFallback settings => { settings with closedFormFallback }]

/-- The settings a JSON value writes, as they stand there. -/
def ofJson? (value : Json) : Option Settings :=
  match Json.record? (record.map (·.label)) value with
  | some [path, batch, profiling, overhead, fallback] =>
      (Json.given initial.networkPath? (Form.option .text).read? path).bind fun path =>
        (Json.given initial.batch (Json.natural? Text.greatest64) batch).bind fun batch =>
          (Json.given initial.profiling Json.bool? profiling).bind fun profiling =>
            (Json.given initial.ignoreOverhead Json.bool? overhead).bind fun overhead =>
              (Json.given initial.closedFormFallback Json.bool? fallback).map fun fallback =>
                ⟨path, batch, profiling, overhead, fallback⟩
  | _ => none

/-- Read settings from the text of a file. -/
def load? (text : String) : Option Settings :=
  (Json.read? text.toList).bind fun value =>
    (ofJson? value).map fun settings => settings.withBatch settings.batch

/-- The text the settings are saved as. -/
def save (settings : Settings) : String :=
  String.ofList (record.write settings).openText

/--
The initial settings with two values from the environment.  An empty path and a
batch that is no number are passed over.
-/
def ofEnvironment
    (path? batch? : Option String) : Settings :=
  let settings :=
    match path? with
    | some path => if path.isEmpty then initial else initial.withNetwork path
    | none => initial
  match batch?.bind fun text => Text.unsigned? Text.greatest64 text.toList with
  | some rows => settings.withBatch rows
  | none => settings

end Settings

end DpuCycles
