import DpuCycles.Network.Context

namespace DpuCycles.Network

/-!
# Runners

A runner is a network with the number of rows its contexts have unless another
number is asked for.
-/

/-- A network with the rows of its contexts. -/
structure Runner where
  network : Trained
  batch : Nat
  deriving Repr, DecidableEq

namespace Runner

/-- A runner with at least one row. -/
def make
    (network : Trained)
    (batch : Nat) : Runner :=
  ⟨network, max batch 1⟩

/-- Whether there can be a context for a number of rows. -/
def hasContext
    (runner : Runner)
    (batch : Nat) : Bool :=
  Context.fits batch runner.network.maxWidth

/-- A context for a number of rows. -/
def createContext
    (runner : Runner)
    (batch : Nat) : Context :=
  .make batch runner.network.maxWidth

/-- A context for the rows of the runner. -/
def defaultContext (runner : Runner) : Context :=
  runner.createContext runner.batch

end Runner

end DpuCycles.Network
