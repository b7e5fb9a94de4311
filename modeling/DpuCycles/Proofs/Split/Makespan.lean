import DpuCycles.Split.Schedule
import Mathlib.Algebra.GroupWithZero.Nat

namespace DpuCycles

/-!
# The time of a schedule

Handing out a task keeps all work that was handed out before: the loads of the
processors always sum up to the tasks so far.  A schedule therefore takes time
exactly when one of its tasks does.
-/

namespace Schedule

theorem sum_insert
    (load : Nat)
    (loads : List Nat) :
    (insert load loads).sum = load + loads.sum := by
  induction loads with
  | nil =>
      rfl
  | cons first rest inductionHypothesis =>
      unfold insert
      split
      · rfl
      · rw [List.sum_cons, List.sum_cons, inductionHypothesis, Nat.add_left_comm]

theorem insert_ne_nil
    (load : Nat)
    (loads : List Nat) :
    insert load loads ≠ [] := by
  cases loads with
  | nil =>
      exact List.cons_ne_nil load []
  | cons first rest =>
      unfold insert
      split <;> exact List.cons_ne_nil _ _

/-- A task adds its length to the loads of the processors, of which there are some. -/
theorem sum_assign
    {loads : List Nat}
    (length : Nat)
    (processors : loads ≠ []) :
    (assign length loads).sum = length + loads.sum ∧ assign length loads ≠ [] := by
  cases loads with
  | nil =>
      exact absurd rfl processors
  | cons least rest =>
      refine ⟨?_, insert_ne_nil _ _⟩
      rw [assign, sum_insert, List.sum_cons, Nat.add_comm least, Nat.add_assoc]

/-- One task takes its own time, whichever processor it is handed to. -/
theorem makespan_singleton
    (processors cost overhead : Nat) :
    makespan processors [cost] overhead = Cycles.clamp (cost + overhead) := by
  have oneProcessor : max (min processors [cost].length) 1 = 1 := by
    rw [List.length_singleton]
    omega
  have oneLoad : loads processors [cost] overhead = [0 + (cost + overhead)] := by
    rw [loads, oneProcessor]
    rfl
  rw [makespan, oneLoad, List.foldl_cons, List.foldl_nil, Nat.zero_add, Nat.zero_max]

end Schedule

end DpuCycles
