import DpuCycles.Proofs.Split.Counts
import DpuCycles.Proofs.Split.Makespan
import DpuCycles.Proofs.Split.Selection

namespace DpuCycles

/-!
# Cutting is never worse than not cutting

One is a number of every pool, and of the number one every cut makes the whole
output.  So a search that tries any cut tries the whole output in every mode, even
where no workloads at all are admitted.  A single workload takes its cost and the
overhead, however many processors there are, and the least time of all candidates
is no more than that.
-/

namespace CostModel

variable
  {model : CostModel}
  {layer : Layer}
  {options : SearchOptions}
  {mode : ExecutionMode}

/-- The time of one workload is its cost with the overhead. -/
theorem splitTime_singleton
    (model : CostModel)
    (options : SearchOptions)
    (processors : Nat)
    (workload : Workload) :
    model.splitTime options processors [workload] =
      Cycles.clamp (model.cost workload + options.overhead) := by
  rw [splitTime, costs_singleton, Schedule.makespan_singleton]

/-- One workload is feasible when it has a cost and takes time. -/
theorem feasible_singleton
    {processors : Nat}
    {workload : Workload}
    (hasCost : Cycles.isError (model.cost workload) = false)
    (takesTime : 0 < Cycles.clamp (model.cost workload + options.overhead)) :
    model.Feasible options processors [workload] := by
  constructor
  · intro cost member
    rw [costs_singleton, List.mem_singleton] at member
    rw [member]
    exact hasCost
  · rw [splitTime_singleton]
    exact takesTime

/--
Where any cut is tried, the number one stands for the whole output as a single
workload.  If that has a cost in some mode of the layer and takes time with the
overhead, a search for least latency answers, and with no more time.  No bound on
the number of workloads matters to this.
-/
theorem searchInto_le_whole
    (model : CostModel)
    (store : List Split)
    (latency : options.objective = .latency)
    (cuts : layer.cutsFor options (options.processorsFor layer) ≠ [])
    (isMode : mode ∈ layer.modes) :
    let whole := layer.wholeBox mode
    let time := Cycles.clamp (model.cost whole + options.overhead)
    (∀ cut, Cut.boxes? cut layer mode 1 = some [[whole]]) ∧
      (Cycles.isError (model.cost whole) = false →
        0 < time →
          ∃ split,
            (model.searchInto layer options store).1 = .ok split ∧ split.cost ≤ time) := by
  intro whole time
  refine ⟨fun cut => rfl, fun hasCost takesTime => ?_⟩
  obtain ⟨cut, isCut⟩ := List.exists_mem_of_ne_nil _ cuts
  have tried : [whole] ∈ candidatesOf layer options :=
    Layer.wholeBox_mem_candidates_of_cut _ isCut isMode
  have feasible : model.Feasible options (options.processorsFor layer) [whole] :=
    feasible_singleton hasCost takesTime
  obtain ⟨split, isBest, atMost⟩ := exists_best_le latency tried feasible
  refine ⟨split, isBest, ?_⟩
  calc split.cost
      ≤ model.splitTime options (options.processorsFor layer) [whole] := atMost
    _ = time := splitTime_singleton model options _ whole

/-- A layer of a single row, which the modes read at different costs. -/
def singleRow : Layer :=
  .ofWorkload (.plain .vpu27 .convolution (.dense ⟨64, 1, 64, 1⟩ .uint8)
    (.dense ⟨64, 1, 256, 1⟩ .uint8) .cuboid16x16)

/-- A search that admits no workloads, and only a microsecond, with an overhead. -/
def noWorkloads : SearchOptions :=
  { twoProcessors with maxWorkloads := 0, maxLatency := 1, overhead := 3 }

/-- It still answers, and with no more time than the whole row takes in its worst mode. -/
theorem searchInto_of_singleRow :
    noWorkloads.objective = .latency ∧
      singleRow.cutsFor noWorkloads (noWorkloads.processorsFor singleRow) ≠ [] ∧
      ExecutionMode.cuboid4x16 ∈ singleRow.modes ∧
      initial.cost (singleRow.wholeBox .cuboid4x16) = 792 ∧
      ∃ split,
        (initial.searchInto singleRow noWorkloads []).1 = .ok split ∧ split.cost ≤ 795 := by
  have latency : noWorkloads.objective = .latency := rfl
  have cuts : singleRow.cutsFor noWorkloads (noWorkloads.processorsFor singleRow) ≠ [] := by
    decide
  have isMode : ExecutionMode.cuboid4x16 ∈ singleRow.modes := by
    decide
  have cost : initial.cost (singleRow.wholeBox .cuboid4x16) = 792 := by
    decide +kernel
  have answers := (searchInto_le_whole initial [] latency cuts isMode).2
  rw [cost] at answers
  exact ⟨latency, cuts, isMode, cost, answers (by decide) (by decide)⟩

end CostModel

end DpuCycles
