import DpuCycles.Estimate.CostModel
import DpuCycles.Proofs.Estimate.Sums

namespace DpuCycles

/-!
# Transfers in both directions

What makes an end of a transfer slow is either a fact about both ends, such as a change
of layout or of size, or a fact about that end alone.  The copy back shares the former
and exchanges the latter, and the slower end decides in both directions.

A generation has running clocks and latencies far below the limit of counts.  So it
makes every transfer, in no less time than either of its latencies.
-/

namespace Transfer

section Reverse

theorem permutes_reverse (transfer : Transfer) :
    transfer.reverse.permutes = transfer.permutes :=
  bne_comm

theorem compresses_reverse (transfer : Transfer) :
    transfer.reverse.compresses = transfer.compresses :=
  bne_comm

theorem isHalfDuplex_reverse (transfer : Transfer) :
    transfer.reverse.isHalfDuplex = transfer.isHalfDuplex :=
  Bool.and_right_comm _ _ _

/-- An end moves the same words in both directions. -/
theorem wordBytes_reverse
    (transfer : Transfer)
    (terminal : Terminal) :
    transfer.reverse.wordBytes terminal = transfer.wordBytes terminal := by
  simp only [wordBytes, permutes_reverse, compresses_reverse, isHalfDuplex_reverse]

/-- An end takes the same time in both directions. -/
theorem terminalCycles_reverse
    (transfer : Transfer)
    (hardware : Hardware)
    (terminal : Terminal) :
    transfer.reverse.terminalCycles hardware terminal =
      transfer.terminalCycles hardware terminal := by
  simp only [terminalCycles, cyclesPerByte, wordBytes_reverse]

/-- The copy back takes as long as the transfer, and is refused where the transfer is. -/
theorem cycles_reverse
    (transfer : Transfer)
    (hardware : Hardware) :
    transfer.reverse.cycles hardware = transfer.cycles hardware := by
  have sameHardware : transfer.reverse.runsOn hardware = transfer.runsOn hardware := rfl
  have origin : transfer.reverse.origin = transfer.target := rfl
  have target : transfer.reverse.target = transfer.origin := rfl
  have source : transfer.reverse.source = transfer.destination := rfl
  have destination : transfer.reverse.destination = transfer.source := rfl
  rw [cycles, cycles, sameHardware, origin, target, source, destination, terminalCycles_reverse,
    terminalCycles_reverse, Nat.max_comm (hardware.transferLatency transfer.destination),
    Nat.max_comm (transfer.terminalCycles hardware transfer.target)]

/-- A tensor takes as long to be compressed on its way out as to be expanded on its way in. -/
example :
    let expanded : Transfer :=
      ⟨.vpu27, .dense ⟨25088, 1, 1, 1⟩ .uint8, .dense ⟨56, 56, 16, 1⟩ .uint8, .dram, .cmx, 1⟩
    (expanded.cycles .vpu27).toOption = some 2450 ∧
      (expanded.reverse.cycles .vpu27).toOption = some 2450 := by
  decide +kernel

end Reverse

section Generations

theorem runsOn_ofDevice (transfer : Transfer) :
    transfer.runsOn (.ofDevice transfer.device) = true := by
  unfold runsOn
  cases transfer.device <;> rfl

theorem transferLatency_le_limit
    (device : Device)
    (location : MemoryLocation) :
    (Hardware.ofDevice device).transferLatency location ≤ Cycles.limit := by
  cases device <;> cases location <;> decide

/-- Hardware of the generation of a transfer makes it, for no less than its latencies. -/
theorem exists_cycles_ofDevice (transfer : Transfer) :
    let hardware := Hardware.ofDevice transfer.device
    ∃ cycles,
      transfer.cycles hardware = .ok cycles ∧
        max (hardware.transferLatency transfer.source)
            (hardware.transferLatency transfer.destination) ≤ cycles ∧
        cycles ≤ Cycles.limit := by
  intro hardware
  have latencyWithin :
      max (hardware.transferLatency transfer.source)
          (hardware.transferLatency transfer.destination) ≤ Cycles.limit :=
    Nat.max_le.mpr ⟨transferLatency_le_limit _ _, transferLatency_le_limit _ _⟩
  have movingWithin :
      max (transfer.terminalCycles hardware transfer.origin)
          (transfer.terminalCycles hardware transfer.target) ≤ Cycles.limit :=
    Nat.max_le.mpr ⟨Nat.min_le_right _ _, Nat.min_le_right _ _⟩
  have sum :=
    Cycles.add_of_counts (Cycles.isError_eq_false_iff.mpr latencyWithin)
      (Cycles.isError_eq_false_iff.mpr movingWithin)
  refine ⟨_, (if_pos transfer.runsOn_ofDevice).trans (congrArg Except.ok sum), ?_, ?_⟩
  · exact Nat.le_min.mpr ⟨Nat.le_add_right _ _, latencyWithin⟩
  · exact Nat.min_le_right _ _

end Generations

end Transfer

end DpuCycles
