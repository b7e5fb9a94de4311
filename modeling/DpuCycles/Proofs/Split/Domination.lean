import DpuCycles.Proofs.Split.Loads
import Mathlib.Order.MinMax

namespace DpuCycles

/-!
# Easier tasks take no longer

Greedy schedules are known for anomalies: with tasks that wait for each other, a
shorter task or one more processor can delay the end.  Tasks that are handed out in
a fixed order show none.

Two runs are compared by the number of processors that are busy after a time.  As
soon as some processor of the harder run is free, no more processors are busy in the
easier one.  Before that all processors of the harder run are busy, and nothing is
asked of the easier run, which may have more of them.
-/

namespace Schedule

/-- The number of processors that are still busy after a time. -/
def busyAfter
    (loads : List Nat)
    (time : Nat) : Nat :=
  loads.countP fun load => time < load

theorem busyAfter_cons
    (load time : Nat)
    (rest : List Nat) :
    busyAfter (load :: rest) time = busyAfter rest time + if time < load then 1 else 0 := by
  simp [busyAfter, List.countP_cons]

/-- A task changes the load of the least loaded processor only. -/
theorem busyAfter_assign
    (task least time : Nat)
    (rest : List Nat) :
    busyAfter (assign task (least :: rest)) time =
      busyAfter rest time + if time < least + task then 1 else 0 := by
  rw [← busyAfter_cons]
  exact (insert_perm (least + task) rest).countP_eq _

theorem busyAfter_eq_zero_iff
    {loads : List Nat}
    {time : Nat} :
    busyAfter loads time = 0 ↔ ∀ load ∈ loads, load ≤ time := by
  simp [busyAfter, List.countP_eq_zero]

/-- Rising loads of two runs, of which the second is the harder one. -/
structure Dominated (loads harder : List Nat) : Prop where
  rising : loads.Pairwise (· ≤ ·)
  harderRising : harder.Pairwise (· ≤ ·)
  some : harder ≠ []
  processors : harder.length ≤ loads.length
  busy : ∀ time, (∃ load ∈ harder, load ≤ time) → busyAfter loads time ≤ busyAfter harder time

namespace Dominated

variable {loads harder rest others : List Nat}

/-- Before any task, the run with fewer processors is the harder one. -/
theorem idle
    {processors fewer : Nat}
    (some : 0 < fewer)
    (fewerLe : fewer ≤ processors) :
    Dominated (List.replicate processors 0) (List.replicate fewer 0) where
  rising := List.pairwise_replicate.mpr (.inr (Nat.le_refl 0))
  harderRising := List.pairwise_replicate.mpr (.inr (Nat.le_refl 0))
  some := fun none => Nat.ne_of_gt some ((List.replicate_eq_nil_iff 0).mp none)
  processors := by
    rwa [List.length_replicate, List.length_replicate]
  busy := by
    intro time _
    have noneBusy : busyAfter (List.replicate processors 0) time = 0 := by
      refine busyAfter_eq_zero_iff.mpr fun load member => ?_
      rw [List.eq_of_mem_replicate member]
      exact Nat.zero_le time
    rw [noneBusy]
    exact Nat.zero_le _

/-- The next task of the easier run starts no later. -/
theorem least_le
    {least other : Nat}
    (dominated : Dominated (least :: rest) (other :: others)) :
    least ≤ other := by
  by_contra later
  have allBusy : busyAfter (least :: rest) other = (least :: rest).length := by
    refine List.countP_eq_length.mpr fun load member => ?_
    have leastLe : least ≤ load := by
      rcases List.mem_cons.mp member with rfl | inRest
      · exact Nat.le_refl load
      · exact (List.pairwise_cons.mp dominated.rising).1 load inRest
    exact decide_eq_true (Nat.lt_of_lt_of_le (Nat.not_le.mp later) leastLe)
  have oneFree : busyAfter (other :: others) other ≤ others.length := by
    rw [busyAfter_cons, if_neg (Nat.lt_irrefl other), Nat.add_zero]
    exact List.countP_le_length
  have busy := dominated.busy other ⟨other, List.mem_cons_self, Nat.le_refl other⟩
  have processors := dominated.processors
  rw [List.length_cons] at processors
  omega

/-- A task that is not longer keeps the run the easier one. -/
theorem assign
    {task longer : Nat}
    (dominated : Dominated loads harder)
    (taskLe : task ≤ longer) :
    Dominated (assign task loads) (Schedule.assign longer harder) := by
  cases harder with
  | nil =>
      exact absurd rfl dominated.some
  | cons other others =>
      cases loads with
      | nil =>
          exact absurd dominated.processors (Nat.not_succ_le_zero others.length)
      | cons least rest =>
          have starts : least ≤ other := dominated.least_le
          refine ⟨pairwise_assign task dominated.rising,
            pairwise_assign longer dominated.harderRising,
            (sum_assign longer dominated.some).2, ?_, ?_⟩
          · rw [Schedule.assign, Schedule.assign, (insert_perm _ rest).length_eq,
              (insert_perm _ others).length_eq]
            exact dominated.processors
          · rintro time ⟨load, member, free⟩
            -- A processor that is free now was so before the task, so the old loads compare.
            have wasFree : other ≤ time := by
              rcases List.mem_cons.mp ((insert_perm _ others).mem_iff.mp member) with
                rfl | inOthers
              · exact Nat.le_trans (Nat.le_add_right other longer) free
              · exact Nat.le_trans
                  ((List.pairwise_cons.mp dominated.harderRising).1 load inOthers) free
            have before := dominated.busy time ⟨other, List.mem_cons_self, wasFree⟩
            rw [busyAfter_cons, busyAfter_cons, if_neg (Nat.not_lt.mpr wasFree),
              if_neg (Nat.not_lt.mpr (Nat.le_trans starts wasFree))] at before
            rw [busyAfter_assign, busyAfter_assign]
            have ends : least + task ≤ other + longer := Nat.add_le_add starts taskLe
            split <;> split <;> omega

/-- Tasks that are not longer, one by one, keep the run the easier one. -/
theorem handOut
    {tasks longer : List Nat}
    (dominated : Dominated loads harder)
    (tasksLe : List.Forall₂ (· ≤ ·) tasks longer) :
    Dominated (handOut loads tasks) (Schedule.handOut harder longer) := by
  induction tasksLe generalizing loads harder with
  | nil =>
      exact dominated
  | cons taskLe _ inductionHypothesis =>
      exact inductionHypothesis (dominated.assign taskLe)

/-- The easier run ends no later. -/
theorem foldl_max_le
    (dominated : Dominated loads harder) :
    loads.foldl max 0 ≤ harder.foldl max 0 := by
  have ended : ∀ load ∈ harder, load ≤ harder.foldl max 0 :=
    (foldl_max_le_iff.mp (Nat.le_refl _)).2
  obtain ⟨load, member⟩ := List.exists_mem_of_ne_nil harder dominated.some
  have busy := dominated.busy _ ⟨load, member, ended load member⟩
  rw [busyAfter_eq_zero_iff.mpr ended, Nat.le_zero, busyAfter_eq_zero_iff] at busy
  exact foldl_max_le_iff.mpr ⟨Nat.zero_le _, busy⟩

end Dominated

/--
Cheaper tasks, less overhead for each or more processors never lengthen a schedule.
Without any processor there is still one.
-/
theorem makespan_mono
    {processors fewer overhead greater : Nat}
    {costs dearer : List Nat}
    (fewerLe : fewer ≤ processors)
    (costsLe : List.Forall₂ (· ≤ ·) costs dearer)
    (overheadLe : overhead ≤ greater) :
    makespan processors costs overhead ≤ makespan fewer dearer greater := by
  have tasksLe :
      List.Forall₂ (· ≤ ·) (costs.map (· + overhead)) (dearer.map (· + greater)) := by
    rw [List.forall₂_map_left_iff, List.forall₂_map_right_iff]
    exact costsLe.imp fun _ _ costLe => Nat.add_le_add costLe overheadLe
  have idle : Dominated (List.replicate (max processors 1) 0) (List.replicate (max fewer 1) 0) :=
    .idle (Nat.le_max_right fewer 1) (max_le_max_right 1 fewerLe)
  rw [makespan_eq, makespan_eq]
  exact min_le_min_right Cycles.limit (idle.handOut tasksLe).foldl_max_le

/-- One processor more, and one cycle less for the second task and for the overhead. -/
theorem makespan_mono_of_thirdProcessor :
    2 ≤ 3 ∧ List.Forall₂ (· ≤ ·) [10, 19, 5, 8] [10, 20, 5, 8] ∧ 4 ≤ 5 ∧
      makespan 3 [10, 19, 5, 8] 4 ≤ makespan 2 [10, 20, 5, 8] 5 := by
  have fewerLe : 2 ≤ 3 := by decide
  have costsLe : List.Forall₂ (· ≤ ·) [10, 19, 5, 8] [10, 20, 5, 8] := by decide
  have overheadLe : 4 ≤ 5 := by decide
  exact ⟨fewerLe, costsLe, overheadLe, makespan_mono fewerLe costsLe overheadLe⟩

example : makespan 3 [10, 19, 5, 8] 4 = 23 ∧ makespan 2 [10, 20, 5, 8] 5 = 38 := by
  decide

end Schedule

end DpuCycles
