import DpuCycles.Proofs.Split.Counts
import DpuCycles.Proofs.Split.Selection
import Mathlib.Order.MinMax
import Mathlib.Order.Nat

namespace DpuCycles

/-!
# Searching among more workloads

The limit on the number of workloads enters a pool as the end of its multiples and
of its halvings.  Whatever a limit admits, a higher one admits as well, so a search
with a higher limit tries every candidate of one with a lower limit.  It selects
from more, and never answers with more cycles.
-/

theorem mem_halvings_of_le
    {range limit higher number : Nat}
    (within : limit ≤ higher)
    (member : number ∈ halvings range limit) :
    number ∈ halvings range higher := by
  obtain ⟨exponent, isExponent, below, divides, rfl, kept⟩ := mem_halvings.mp member
  exact mem_halvings.mpr
    ⟨exponent, isExponent, below, divides, rfl, Nat.le_trans kept within⟩

namespace Cut

/-- Counts stay counts when the limit is raised and others are added. -/
theorem mem_counts_of_le
    {processors limit higher number : Nat}
    {others more : List Nat}
    (within : limit ≤ higher)
    (kept : ∀ other ∈ others, other ∈ more)
    (member : number ∈ counts processors limit others) :
    number ∈ counts processors higher more := by
  have positive : 0 < max processors 1 := Nat.le_max_right processors 1
  rcases mem_counts.mp member with isOne | inOthers | isMultiple
  · exact mem_counts.mpr (.inl isOne)
  · exact mem_counts.mpr (.inr (.inl (kept number inOthers)))
  · obtain ⟨isPositive, below, divides⟩ := (mem_multiples positive).mp isMultiple
    exact mem_counts.mpr (.inr (.inr ((mem_multiples positive).mpr
      ⟨isPositive, Nat.le_trans below within, divides⟩)))

variable
  {layer : Layer}
  {processors limit higher number : Nat}
  {mode : ExecutionMode}

theorem mem_channelCounts_of_le
    (within : limit ≤ higher)
    (member : number ∈ channelCounts layer processors mode limit) :
    number ∈ channelCounts layer processors mode higher := by
  unfold channelCounts at member ⊢
  dsimp only at member ⊢
  split at member
  · rename_i alone
    rwa [if_pos alone]
  · rename_i shared
    rw [if_neg shared]
    split at member
    · rename_i uncut
      rwa [if_pos uncut]
    · rename_i cuts
      rw [if_neg cuts]
      refine mem_counts_of_le (min_le_min_right _ within) ?_ member
      intro other inHalvings
      obtain ⟨range, isRange, halved⟩ := List.mem_flatMap.mp inHalvings
      exact List.mem_flatMap.mpr
        ⟨range, isRange, mem_halvings_of_le (min_le_min_right _ within) halved⟩

theorem mem_planeCounts_of_le
    (within : limit ≤ higher)
    (member : number ∈ planeCounts layer processors mode limit) :
    number ∈ planeCounts layer processors mode higher := by
  unfold planeCounts at member ⊢
  dsimp only at member ⊢
  split at member
  · rename_i alone
    rwa [if_pos alone]
  · rename_i shared
    rw [if_neg shared]
    refine mem_counts_of_le (min_le_min_right _ within) ?_ member
    intro other halved
    exact mem_halvings_of_le (min_le_min_right _ within) halved

/-- A number that is tried below a limit is tried below any higher one. -/
theorem mem_pool_of_le
    {cut : Cut}
    (within : limit ≤ higher)
    (member : number ∈ cut.pool layer processors mode limit) :
    number ∈ cut.pool layer processors mode higher := by
  cases cut with
  | channels =>
      exact mem_channelCounts_of_le within member
  | plane | rows | columns =>
      exact mem_planeCounts_of_le within member

end Cut

/-- No candidate is lost when the limit is raised. -/
theorem Layer.mem_candidates_of_le
    {layer : Layer}
    {options : SearchOptions}
    {processors limit higher : Nat}
    {boxes : List Workload}
    (within : limit ≤ higher)
    (member : boxes ∈ layer.candidates options processors limit) :
    boxes ∈ layer.candidates options processors higher := by
  obtain ⟨cut, isCut, mode, isMode, count, inPool, made⟩ := mem_candidates.mp member
  exact mem_candidates.mpr
    ⟨cut, isCut, mode, isMode, count, Cut.mem_pool_of_le within inPool, made⟩

namespace SearchOptions

/-- The options with other bounds on how many workloads there may be. -/
def withBounds
    (options : SearchOptions)
    (maxWorkloads maxLatency : Nat) : SearchOptions :=
  { options with maxWorkloads, maxLatency }

/-- One latency admits no more than another; zero admits everything. -/
def NoLonger (latency other : Nat) : Prop :=
  other = 0 ∨ latency ≠ 0 ∧ latency ≤ other

theorem workloadLimit_withBounds
    (options : SearchOptions)
    (maxWorkloads maxLatency clock : Nat) :
    (options.withBounds maxWorkloads maxLatency).workloadLimit clock =
      if maxLatency = 0 then
        maxWorkloads
      else
        min maxWorkloads
          (min (max (maxLatency * clock / (options.overhead + 1)) 1) Text.greatest32) :=
  rfl

/-- More workloads and a longer latency never lower the limit. -/
theorem workloadLimit_mono
    {fewer more latency longer : Nat}
    (options : SearchOptions)
    (clock : Nat)
    (workloads : fewer ≤ more)
    (noLonger : NoLonger latency longer) :
    (options.withBounds fewer latency).workloadLimit clock ≤
      (options.withBounds more longer).workloadLimit clock := by
  rw [workloadLimit_withBounds, workloadLimit_withBounds]
  rcases noLonger with rfl | ⟨limits, shorter⟩
  · -- The other latency does not limit, so only the numbers of workloads are compared.
    rw [if_pos rfl]
    split
    · exact workloads
    · exact Nat.le_trans (Nat.min_le_left _ _) workloads
  · have longerLimits : longer ≠ 0 :=
      Nat.ne_of_gt (Nat.lt_of_lt_of_le (Nat.pos_of_ne_zero limits) shorter)
    rw [if_neg limits, if_neg longerLimits]
    have started : latency * clock / (options.overhead + 1) ≤
        longer * clock / (options.overhead + 1) :=
      Nat.div_le_div_right (Nat.mul_le_mul_right clock shorter)
    exact min_le_min workloads (min_le_min_right _ (max_le_max_right 1 started))

end SearchOptions

namespace CostModel

/--
A search that answers still answers when its bounds are changed so that the limit
on the number of workloads does not fall, and then with no greater cost.  The limit
itself does not fall when more workloads or a longer latency are admitted.
-/
theorem searchInto_withBounds
    {options : SearchOptions}
    (model : CostModel)
    (layer : Layer)
    (latency : options.objective = .latency) :
    let clock := (Hardware.ofDevice layer.device).dpuClock
    (∀ maxWorkloads maxLatency store wideStore split,
        options.workloadLimit clock ≤
            (options.withBounds maxWorkloads maxLatency).workloadLimit clock →
          (model.searchInto layer options store).1 = .ok split →
            ∃ better,
              (model.searchInto layer (options.withBounds maxWorkloads maxLatency)
                  wideStore).1 = .ok better ∧
                better.cost ≤ split.cost) ∧
      ∀ fewer more shorter longer,
        fewer ≤ more → SearchOptions.NoLonger shorter longer →
          (options.withBounds fewer shorter).workloadLimit clock ≤
            (options.withBounds more longer).workloadLimit clock := by
  intro clock
  refine ⟨?_, fun fewer more shorter longer => options.workloadLimit_mono clock⟩
  intro maxWorkloads maxLatency store wideStore split within answers
  obtain ⟨cost, position, wins⟩ := (best_eq_ok_iff latency).mp answers
  have stillLatency : (options.withBounds maxWorkloads maxLatency).objective = .latency := latency
  -- The winner is still a candidate, and its time does not depend on the bounds.
  have stillTried : split.workloads ∈
      candidatesOf layer (options.withBounds maxWorkloads maxLatency) :=
    Layer.mem_candidates_of_le within (List.mem_of_getElem? wins.found)
  obtain ⟨better, isBest, atMost⟩ := exists_best_le stillLatency stillTried wins.itCounts
  exact ⟨better, isBest, cost ▸ atMost⟩

/-- Two processors take half the time when there may be more than one workload. -/
theorem searchInto_of_oneOrFourWorkloads :
    let single := twoProcessors.withBounds 1 0
    let several := twoProcessors.withBounds 4 100
    let clock := (Hardware.ofDevice squareLayer.device).dpuClock
    single.objective = .latency ∧
      single.workloadLimit clock ≤ several.workloadLimit clock ∧
      ∃ split better,
        (initial.searchInto squareLayer single []).1 = .ok split ∧
          (initial.searchInto squareLayer several []).1 = .ok better ∧
          split.cost = 2048 ∧ better.cost ≤ split.cost := by
  intro single several clock
  have latency : single.objective = .latency := rfl
  have within : single.workloadLimit clock ≤ several.workloadLimit clock := by
    decide
  have answers : (initial.searchInto squareLayer single []).1.toOption.map Split.cost =
      some 2048 := by
    decide +kernel
  refine ⟨latency, within, ?_⟩
  cases answer : (initial.searchInto squareLayer single []).1 with
  | error failure =>
      rw [answer] at answers
      contradiction
  | ok split =>
      rw [answer] at answers
      obtain ⟨better, isBest, atMost⟩ :=
        (searchInto_withBounds initial squareLayer latency).1 4 100 [] [] split within answer
      exact ⟨split, better, rfl, isBest, Option.some.inj answers, atMost⟩

end CostModel

end DpuCycles
