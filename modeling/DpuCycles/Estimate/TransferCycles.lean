import DpuCycles.Cycles
import DpuCycles.Transfer

namespace DpuCycles

/-!
# Cycles of a transfer

A transfer takes the longer of the times its two ends need, after the longer of
their latencies.  An end in the external memory is bound by its bandwidth, an end
in a local memory by the words it moves at once.
-/

namespace Transfer

/-- One end of a transfer. -/
structure Terminal where
  tensor : Tensor
  location : MemoryLocation
  deriving Repr, DecidableEq

/-- The end that is read. -/
def origin (transfer : Transfer) : Terminal :=
  ⟨transfer.input, transfer.source⟩

/-- The end that is written. -/
def target (transfer : Transfer) : Terminal :=
  ⟨transfer.output, transfer.destination⟩

/-- Both ends lie in local memory, and reading and writing take turns. -/
def isHalfDuplex (transfer : Transfer) : Bool :=
  transfer.device.halvesLocalCopies && transfer.source == .cmx && transfer.destination == .cmx

/-- The elements change their order. -/
def permutes (transfer : Transfer) : Bool :=
  transfer.input.layout != transfer.output.layout

/-- The data change their size. -/
def compresses (transfer : Transfer) : Bool :=
  transfer.input.size != transfer.output.size

/--
Bytes an end in a local memory moves at once.  A change of order moves single
elements; a change of size doubles the word, and taking turns halves it.
-/
def wordBytes
    (transfer : Transfer)
    (terminal : Terminal) : Nat :=
  let inCmx := terminal.location == .cmx
  if transfer.permutes && inCmx then
    max terminal.tensor.dtype.bytes 1
  else
    let full := if transfer.compresses && inCmx then 64 else 32
    let word := if transfer.isHalfDuplex then full / 2 else full
    max (min terminal.tensor.size word) 1

/-- Cycles for each byte of an end. -/
def cyclesPerByte
    (transfer : Transfer)
    (hardware : Hardware)
    (terminal : Terminal) : Rounded :=
  match terminal.location with
  | .dram => .ofNat hardware.dpuClock / .ofNat hardware.dramBandwidth
  | _ =>
      .ofNat hardware.dpuClock / .ofNat hardware.cmxClock / .ofNat (transfer.wordBytes terminal)

/-- Cycles of one end. -/
def terminalCycles
    (transfer : Transfer)
    (hardware : Hardware)
    (terminal : Terminal) : Nat :=
  Cycles.clamp
    (Rounded.ofNat terminal.tensor.size * transfer.cyclesPerByte hardware terminal).ceil.toNat

/-- Whether hardware can make the transfer: it is of the same generation, and its clocks run. -/
def runsOn
    (transfer : Transfer)
    (hardware : Hardware) : Bool :=
  hardware.device == transfer.device && hardware.dramBandwidth != 0 && hardware.cmxClock != 0 &&
    hardware.dpuClock != 0

/-- Cycles of a transfer. -/
def cycles
    (transfer : Transfer)
    (hardware : Hardware) : Except CostError Nat :=
  if transfer.runsOn hardware then
    let latency :=
      max (hardware.transferLatency transfer.source)
        (hardware.transferLatency transfer.destination)
    let moving :=
      max (transfer.terminalCycles hardware transfer.origin)
        (transfer.terminalCycles hardware transfer.target)
    .ok (Cycles.add latency moving)
  else
    .error .invalidInputDevice

end Transfer

end DpuCycles
