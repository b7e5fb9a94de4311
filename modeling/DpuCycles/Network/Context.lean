import DpuCycles.Network.Trained

namespace DpuCycles.Network

/-!
# Running networks

A context holds two buffers that the kernels write in turn, and the collected
output.  It can be handed from network to network: buffers grow with the widest
network that used them, and a network reads only what it has written itself.

Sizes of buffers are counted in full, and there is no room for one beyond the capacity.
Where the count of a size does not fit a word either, a build without overflow checks
makes shorter buffers instead.
-/

/-- Buffers for a number of rows. -/
structure Context where
  batch : Nat
  width : Nat
  front : Array Single
  back : Array Single
  output : Array Single
  deriving Repr, DecidableEq

namespace Context

/-- Whether there can be buffers for at least one row of a width. -/
def fits
    (batch width : Nat) : Bool :=
  let rows := max batch 1
  decide (rows ≤ capacity ∧ rows * width ≤ capacity)

/-- Whether a context is wide enough, or its buffers can grow to a width. -/
def hasRoom
    (context : Context)
    (width : Nat) : Bool :=
  decide (width ≤ context.width ∨ context.batch * width ≤ capacity)

/-- A context for at least one row of a width. -/
def make
    (batch width : Nat) : Context :=
  let rows := max batch 1
  let buffer := Array.replicate (rows * width) .zero
  ⟨rows, width, buffer, buffer, #[]⟩

/-- A context without rows. -/
def blank : Context := ⟨0, 0, #[], #[], #[]⟩

instance : Inhabited Context := ⟨blank⟩

/-- A buffer of a size, filled up with zeros or cut. -/
def resize
    (buffer : Array Single)
    (size : Nat) : Array Single :=
  buffer.extract 0 size ++ Array.replicate (size - buffer.size) .zero

/-- A context for rows of a width; wider ones stay as they are. -/
def ensureWidth
    (context : Context)
    (width : Nat) : Context :=
  if context.width < width then
    { context with
      width := width
      front := resize context.front (context.batch * width)
      back := resize context.back (context.batch * width) }
  else
    context

/--
What a run that stops for want of room leaves of a context.  The width is noted before
the buffers grow, so that it stays ahead of those that cannot.
-/
def widenedFor
    (context : Context)
    (width : Nat) : Context :=
  let cleared := { context with output := #[] }
  if context.hasRoom width then cleared.ensureWidth width else { cleared with width := width }

end Context

namespace Kernel

/-- Send a batch of rows at the front of one buffer through a kernel into the other buffer. -/
def step
    (rows width : Nat)
    (front back : Array Single)
    (kernel : Kernel) : Except Fault (Array Single) :=
  let next := kernel.outputWidth width
  if rows * width ≤ front.size ∧ rows * next ≤ back.size then
    (kernel.forward rows width (front.extract 0 (rows * width)) (back.extract 0 (rows * next))).map
      fun written => written ++ back.extract (rows * next) back.size
  else
    .error .outOfRange

/-- Send a batch of rows through kernels; the buffers change places after each. -/
def steps
    (rows : Nat) :
    Nat → Array Single → Array Single → List Kernel →
      Except Fault (Nat × Array Single × Array Single)
  | width, front, back, [] => .ok (width, front, back)
  | width, front, back, kernel :: rest =>
      match kernel.step rows width front back with
      | .ok written => steps rows (kernel.outputWidth width) written front rest
      | .error fault => .error fault

end Kernel

namespace Trained

/-- Run a slice of rows and append what comes out. -/
def runSlice
    (network : Trained)
    (context : Context)
    (slice : Array Single) : Except Kernel.Fault Context :=
  let rows := slice.size / network.inputSize
  if context.front.size < slice.size then
    .error .outOfRange
  else
    let front := Kernel.overwrite slice context.front
    match Kernel.steps rows network.inputSize front context.back network.kernels with
    | .error fault => .error fault
    | .ok (width, front, back) =>
        if front.size < rows * width then
          .error .outOfRange
        else
          .ok
            { context with
              front := front
              back := back
              output := context.output ++ front.extract 0 (rows * width) }

/-- Run slices one after another. -/
def runSlices
    (network : Trained) :
    Context → List (Array Single) → Except Kernel.Fault Context
  | context, [] => .ok context
  | context, slice :: rest =>
      match network.runSlice context slice with
      | .ok next => runSlices network next rest
      | .error fault => .error fault

/-- Values cut into slices of a size; the last one may be shorter. -/
def slices
    (values : Array Single)
    (size : Nat) : List (Array Single) :=
  (List.range ((values.size + (size - 1)) / size)).map fun position =>
    values.extract (position * size) (position * size + size)

/--
Run every complete row of the input.  The rows are run in slices as long as the
context has rows; a context without any cannot run one.
-/
def predict
    (network : Trained)
    (context : Context)
    (input : Array Single) : Context × Except Kernel.Fault (Array Single) :=
  let cleared := { context with output := #[] }
  if !network.isPresent || network.inputSize == 0 then
    (cleared, .ok #[])
  else
    let wide := cleared.ensureWidth network.maxWidth
    let rows := input.size / network.inputSize
    let size := wide.batch * network.inputSize
    if size = 0 then
      (wide, .error .emptyBatch)
    else
      match network.runSlices wide (slices (input.extract 0 (rows * network.inputSize)) size) with
      | .ok done => (done, .ok done.output)
      | .error fault => (wide, .error fault)

/-- The width that a run takes of a context; where nothing is run it takes none. -/
def neededWidth (network : Trained) : Nat :=
  if !network.isPresent || network.inputSize == 0 then 0 else network.maxWidth

/-- Whether there is room for the outputs of as many rows as an input has. -/
def collects
    (network : Trained)
    (input : Array Single) : Bool :=
  decide (input.size / network.inputSize * network.outputSize ≤ capacity)

/-- Whether there is room for a run: the buffers can grow and the outputs can be collected. -/
def canPredict
    (network : Trained)
    (context : Context)
    (input : Array Single) : Bool :=
  context.hasRoom network.neededWidth && network.collects input

/-- Run every complete row of the input as long as there is room for that. -/
def predictWithin
    (network : Trained)
    (context : Context)
    (input : Array Single) : Context × Except Kernel.Fault (Array Single) :=
  if network.canPredict context input then
    network.predict context input
  else
    (context.widenedFor network.neededWidth, .error .noRoom)

end Trained

end DpuCycles.Network
