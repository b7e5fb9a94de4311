import DpuCycles.Device
import DpuCycles.Number.Multiple

namespace DpuCycles

/-!
# Hardware of a generation

Clocks are in MHz, the bandwidth of the external memory in bytes per
microsecond, its latency in nanoseconds.
-/

/-- Memories a transfer can start from or end in. -/
inductive MemoryLocation where
  | dram
  | cmx
  | csram
  | upa
  deriving Repr, DecidableEq

instance : Enumerated MemoryLocation where
  domain := "MemoryLocation"
  values := [.dram, .cmx, .csram, .upa]
  label
    | .dram => "Dram"
    | .cmx => "Cmx"
    | .csram => "Csram"
    | .upa => "Upa"

/-- Constants of one generation that its costs depend on. -/
structure Hardware where
  device : Device
  name : String
  dpuClock : Nat
  cmxClock : Nat
  cmxWordBytes : Nat
  dmaBytesPerCycle : Nat
  cmxReadPorts : Nat
  dramBandwidth : Nat
  dramLatency : Nat
  cmxLatency : Nat
  macs : Nat
  floatCostRatio : Nat
  postProcessors : Nat
  channelsPerMac : Nat
  dpusPerTile : Nat
  deriving Repr, DecidableEq

namespace Hardware

/-- Constants of the first generation. -/
def vpu20 : Hardware where
  device := .vpu20
  name := "VPU 2.0"
  dpuClock := 700
  cmxClock := 700
  cmxWordBytes := 16
  dmaBytesPerCycle := 32
  cmxReadPorts := 4
  dramBandwidth := 20000
  dramLatency := 0
  cmxLatency := 0
  macs := 256
  floatCostRatio := 4
  postProcessors := 16
  channelsPerMac := 1
  dpusPerTile := 5

/-- The second generation is the first one with faster clocks. -/
def vpu21 : Hardware :=
  { vpu20 with
    device := .vpu21
    name := "VPU 2.1"
    dpuClock := 850
    cmxClock := 850 }

/-- Constants of the third generation. -/
def vpu27 : Hardware where
  device := .vpu27
  name := "VPU 2.7"
  dpuClock := 1300
  cmxClock := 975
  cmxWordBytes := 16
  dmaBytesPerCycle := 32
  cmxReadPorts := 8
  dramBandwidth := 27000
  dramLatency := 956
  cmxLatency := 16
  macs := 2048
  floatCostRatio := 2
  postProcessors := 64
  channelsPerMac := 8
  dpusPerTile := 1

/-- The fourth generation is the third one with a wider and faster memory system. -/
def vpu40 : Hardware :=
  { vpu27 with
    device := .vpu40
    name := "VPU 4.0"
    dpuClock := 1700
    cmxWordBytes := 32
    dmaBytesPerCycle := 64
    dramBandwidth := 45000
    cmxLatency := 32 }

/-- Constants of a generation. -/
def ofDevice : Device → Hardware
  | .vpu20 => vpu20
  | .vpu21 => vpu21
  | .vpu27 => vpu27
  | .vpu40 => vpu40

/-- The generations in order. -/
def catalogue : List Hardware :=
  [vpu20, vpu21, vpu27, vpu40]

/--
Cycles before a transfer at a memory starts, as a 32-bit word.  The local
memories need a running clock, which transfers check first.
-/
def transferLatency
    (hardware : Hardware) :
    MemoryLocation → Nat
  | .dram => hardware.dramLatency * hardware.dpuClock / 1000 % 2 ^ 32
  | _ => hardware.cmxLatency * hardware.dpuClock / hardware.cmxClock % 2 ^ 32

end Hardware

end DpuCycles
