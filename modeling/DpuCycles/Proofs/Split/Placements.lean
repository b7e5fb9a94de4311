import DpuCycles.Proofs.Estimate.Scalars
import DpuCycles.Proofs.Split.Loads
import Mathlib.Algebra.BigOperators.Fin
import Mathlib.Algebra.Order.BigOperators.Group.Finset
import Mathlib.Algebra.Order.BigOperators.Group.List
import Mathlib.Data.Finset.Lattice.Fold
import Mathlib.Order.Lattice.Nat

namespace DpuCycles

/-!
# Schedules among all placements

A placement puts each task on one processor, and takes as long as the processor
with the most to do.  The loads of a schedule are those of a placement: a task goes
to the processor that had the least load.

No placement takes less time than the average load or than its longest task.  In a
schedule no load is above the average by more than the longest task, which carries
over from task to task: the load that grows was the least one, and that is not
above the average.  So a schedule takes less than twice the time of any placement.
-/

namespace Schedule

/-- A processor for each of some tasks. -/
structure Placement
    (processors : Nat)
    (tasks : List Nat) where
  processorOf : Fin tasks.length → Fin processors

namespace Placement

variable
  {processors : Nat}
  {tasks : List Nat}

/-- The lengths of the tasks on a processor. -/
def load
    (placement : Placement processors tasks)
    (processor : Fin processors) : Nat :=
  ∑ task with placement.processorOf task = processor, tasks[task]

/-- The greatest load of a processor. -/
def time (placement : Placement processors tasks) : Nat :=
  Finset.univ.sup placement.load

theorem load_le_time
    (placement : Placement processors tasks)
    (processor : Fin processors) :
    placement.load processor ≤ placement.time :=
  Finset.le_sup (Finset.mem_univ processor)

theorem sum_load (placement : Placement processors tasks) :
    ∑ processor, placement.load processor = tasks.sum := by
  rw [← Fin.sum_univ_getElem tasks]
  exact Finset.sum_fiberwise Finset.univ placement.processorOf fun task => tasks[task]

/-- No placement takes less time than the average load. -/
theorem sum_le_time (placement : Placement processors tasks) :
    tasks.sum ≤ processors * placement.time := by
  have bound := Finset.sum_le_card_nsmul Finset.univ placement.load placement.time
    fun processor _ => placement.load_le_time processor
  rwa [sum_load, Finset.card_fin, smul_eq_mul] at bound

/-- No placement takes less time than any of its tasks. -/
theorem le_time_of_mem
    {task : Nat}
    (placement : Placement processors tasks)
    (member : task ∈ tasks) :
    task ≤ placement.time := by
  obtain ⟨position, rfl⟩ := List.mem_iff_get.mp member
  have placed : position ∈ Finset.univ.filter fun task =>
      placement.processorOf task = placement.processorOf position :=
    Finset.mem_filter.mpr ⟨Finset.mem_univ position, rfl⟩
  have inLoad : tasks.get position ≤ placement.load (placement.processorOf position) :=
    Finset.single_le_sum (f := tasks.get) (fun _ _ => Nat.zero_le _) placed
  exact Nat.le_trans inLoad (placement.load_le_time _)

/-- The placement with one more task, on a given processor. -/
def cons
    (task : Nat)
    (processor : Fin processors)
    (placement : Placement processors tasks) : Placement processors (task :: tasks) :=
  ⟨Fin.cons processor placement.processorOf⟩

theorem load_cons
    (task : Nat)
    (processor other : Fin processors)
    (placement : Placement processors tasks) :
    (placement.cons task processor).load other =
      (if processor = other then task else 0) + placement.load other := by
  simp only [load, Finset.sum_filter, List.length_cons, Fin.sum_univ_succ]
  rfl

end Placement

section Realized

variable {processors : Nat}

/-- Loads that are those of the processors in some order. -/
def AreLoads
    (loads : List Nat)
    (loadOf : Fin processors → Nat) : Prop :=
  (loads : Multiset Nat) = Finset.univ.val.map loadOf

/-- A load that is changed on one processor replaces the one it had. -/
theorem map_update
    (loadOf : Fin processors → Nat)
    (processor : Fin processors)
    (load : Nat) :
    Finset.univ.val.map (Function.update loadOf processor load) =
      load ::ₘ (Finset.univ.erase processor).val.map loadOf := by
  have others : processor ∉ Finset.univ.erase processor := Finset.notMem_erase processor _
  conv_lhs => rw [← Finset.insert_erase (Finset.mem_univ processor)]
  rw [Finset.insert_val_of_notMem others, Multiset.map_cons, Function.update_self]
  refine congrArg (load ::ₘ ·) (Multiset.map_congr rfl fun other member => ?_)
  exact Function.update_of_ne (Finset.ne_of_mem_erase (Finset.mem_val.mp member)) _ _

/-- A task is handed to one of the processors. -/
theorem AreLoads.assign
    {loads : List Nat}
    {loadOf : Fin processors → Nat}
    (areLoads : AreLoads loads loadOf)
    (task : Nat)
    (some : loads ≠ []) :
    ∃ processor,
      AreLoads (assign task loads)
        (Function.update loadOf processor (loadOf processor + task)) := by
  cases loads with
  | nil =>
      exact absurd rfl some
  | cons least rest =>
      have isLoad : least ∈ Finset.univ.val.map loadOf :=
        areLoads ▸ Multiset.mem_cons_self least rest
      obtain ⟨processor, _, rfl⟩ := Multiset.mem_map.mp isLoad
      have others : (rest : Multiset Nat) = (Finset.univ.erase processor).val.map loadOf := by
        have same := map_update loadOf processor (loadOf processor)
        rw [Function.update_eq_self, ← areLoads] at same
        exact (Multiset.cons_inj_right _).mp same
      refine ⟨processor, ?_⟩
      rw [AreLoads, map_update, ← others, Schedule.assign]
      exact Multiset.coe_eq_coe.mpr (insert_perm _ _)

/-- The loads after tasks are handed out are those of a placement of the tasks. -/
theorem exists_placement
    {loads tasks : List Nat}
    {loadOf : Fin processors → Nat}
    (areLoads : AreLoads loads loadOf)
    (some : loads ≠ []) :
    ∃ placement : Placement processors tasks,
      AreLoads (handOut loads tasks) fun processor =>
        loadOf processor + placement.load processor := by
  -- Over the tasks, from any loads; the task in front joins the placement of the others.
  induction tasks generalizing loads loadOf with
  | nil =>
      exact ⟨⟨Fin.elim0⟩, areLoads⟩
  | cons task rest inductionHypothesis =>
      obtain ⟨processor, assigned⟩ := areLoads.assign task some
      obtain ⟨placement, placed⟩ := inductionHypothesis assigned (sum_assign task some).2
      have joined : ∀ other,
          Function.update loadOf processor (loadOf processor + task) other +
              placement.load other =
            loadOf other + (placement.cons task processor).load other := by
        intro other
        rw [Placement.load_cons]
        by_cases same : processor = other
        · subst same
          rw [Function.update_self, if_pos rfl, Nat.add_assoc]
        · rw [Function.update_of_ne (Ne.symm same), if_neg same, Nat.zero_add]
      exact ⟨placement.cons task processor, funext joined ▸ placed⟩

variable
  {loads tasks : List Nat}
  {placement : Placement processors tasks}

/-- The greatest of the loads of a placement is its time. -/
theorem AreLoads.foldl_max
    (areLoads : AreLoads loads placement.load) :
    loads.foldl max 0 = placement.time := by
  have members : ∀ load, load ∈ loads ↔ ∃ processor, placement.load processor = load := by
    intro load
    rw [← Multiset.mem_coe, areLoads]
    simp
  refine eq_of_forall_ge_iff fun bound => ?_
  rw [foldl_max_le_iff, Placement.time, Finset.sup_le_iff]
  simp [members]

theorem AreLoads.sum
    (areLoads : AreLoads loads placement.load) :
    loads.sum = tasks.sum := by
  rw [← placement.sum_load, ← Multiset.sum_coe, areLoads]
  rfl

end Realized

section Balanced

/-- Rising loads, none of which is above the average by more than the longest task. -/
structure Balanced
    (processors longest : Nat)
    (loads : List Nat) : Prop where
  rising : loads.Pairwise (· ≤ ·)
  ofProcessors : loads.length = processors
  near : ∀ load ∈ loads, processors * load ≤ loads.sum + (processors - 1) * longest

variable
  {processors longest : Nat}
  {loads : List Nat}

theorem balanced_replicate (processors longest : Nat) :
    Balanced processors longest (List.replicate processors 0) where
  rising := List.pairwise_replicate.mpr (.inr (Nat.le_refl 0))
  ofProcessors := List.length_replicate
  near := by
    intro load member
    rw [List.eq_of_mem_replicate member]
    exact Nat.zero_le _

/-- The least load is not above the average. -/
theorem Balanced.least_le
    {least : Nat}
    {rest : List Nat}
    (balanced : Balanced processors longest (least :: rest)) :
    processors * least ≤ (least :: rest).sum := by
  have isLeast : ∀ load ∈ least :: rest, least ≤ load :=
    List.forall_mem_cons.mpr ⟨Nat.le_refl least, (List.pairwise_cons.mp balanced.rising).1⟩
  have bound := List.card_nsmul_le_sum (least :: rest) least isLeast
  rwa [balanced.ofProcessors, smul_eq_mul] at bound

theorem Balanced.assign
    {task : Nat}
    (balanced : Balanced processors longest loads)
    (some : 0 < processors)
    (within : task ≤ longest) :
    Balanced processors longest (assign task loads) := by
  cases loads with
  | nil =>
      exact absurd balanced.ofProcessors (Nat.ne_of_lt some)
  | cons least rest =>
      have perm := insert_perm (least + task) rest
      have grown : (Schedule.assign task (least :: rest)).sum = task + (least :: rest).sum :=
        (sum_assign task (List.cons_ne_nil least rest)).1
      refine ⟨pairwise_assign task balanced.rising, ?_, ?_⟩
      · exact perm.length_eq.trans balanced.ofProcessors
      · intro load member
        rw [grown]
        rcases List.mem_cons.mp (perm.mem_iff.mp member) with rfl | inRest
        · calc processors * (least + task)
              = processors * least + (1 * task + (processors - 1) * task) := by
                rw [Nat.mul_add, ← Nat.add_mul, Nat.add_sub_cancel' some]
            _ ≤ (least :: rest).sum + (1 * task + (processors - 1) * longest) :=
                Nat.add_le_add balanced.least_le
                  (Nat.add_le_add_left (Nat.mul_le_mul_left _ within) _)
            _ = task + (least :: rest).sum + (processors - 1) * longest := by
                rw [Nat.one_mul, ← Nat.add_assoc, Nat.add_comm task]
        · calc processors * load
              ≤ (least :: rest).sum + (processors - 1) * longest :=
                balanced.near load (List.mem_cons_of_mem least inRest)
            _ ≤ task + (least :: rest).sum + (processors - 1) * longest :=
                Nat.add_le_add_right (Nat.le_add_left _ task) _

/-- Loads stay balanced while tasks are handed out. -/
theorem Balanced.handOut
    {tasks : List Nat}
    (balanced : Balanced processors longest loads)
    (some : 0 < processors)
    (within : ∀ task ∈ tasks, task ≤ longest) :
    Balanced processors longest (handOut loads tasks) := by
  induction tasks generalizing loads with
  | nil =>
      exact balanced
  | cons task rest inductionHypothesis =>
      obtain ⟨first, others⟩ := List.forall_mem_cons.mp within
      exact inductionHypothesis (balanced.assign some first) others

/-- Balanced loads of a placement take less than twice the time of any placement of the tasks. -/
theorem Balanced.time_le
    {tasks : List Nat}
    {placement other : Placement processors tasks}
    (balanced : Balanced processors other.time loads)
    (some : 0 < processors)
    (areLoads : AreLoads loads placement.load) :
    processors * placement.time ≤ (2 * processors - 1) * other.time := by
  have share : loads.foldl max 0 ≤ ((2 * processors - 1) * other.time) / processors := by
    refine foldl_max_le_iff.mpr ⟨Nat.zero_le _, fun load member => ?_⟩
    rw [Nat.le_div_iff_mul_le some, Nat.mul_comm]
    calc processors * load
        ≤ loads.sum + (processors - 1) * other.time := balanced.near load member
      _ ≤ processors * other.time + (processors - 1) * other.time :=
          Nat.add_le_add_right (areLoads.sum ▸ other.sum_le_time) _
      _ = (2 * processors - 1) * other.time := by
          rw [← Nat.add_mul, ← Nat.add_sub_assoc some, Nat.two_mul]
  rw [areLoads.foldl_max, Nat.le_div_iff_mul_le some, Nat.mul_comm] at share
  exact share

end Balanced

/--
The time of a schedule is that of a placement of its tasks, clamped below the error
codes.  With `n` processors no placement takes less than `n / (2 * n - 1)` of it.
-/
theorem makespan_nearLeast
    (processors overhead : Nat)
    (costs : List Nat) :
    let count := max processors 1
    let tasks := costs.map (· + overhead)
    Cycles.isError (makespan processors costs overhead) = false ∧
      ∃ placement : Placement count tasks,
        makespan processors costs overhead = min placement.time Cycles.limit ∧
          ∀ other : Placement count tasks,
            count * placement.time ≤ (2 * count - 1) * other.time := by
  intro count tasks
  have some : 0 < count := Nat.le_max_right processors 1
  have idle : AreLoads (List.replicate count 0) (fun _ : Fin count => 0) := by
    rw [AreLoads, Multiset.coe_replicate, Multiset.map_const', Finset.card_val, Finset.card_fin]
  have someLoads : List.replicate count 0 ≠ [] :=
    fun none => Nat.ne_of_gt some ((List.replicate_eq_nil_iff 0).mp none)
  obtain ⟨placement, placed⟩ := exists_placement idle someLoads
  simp only [Nat.zero_add] at placed
  refine ⟨Cycles.isError_clamp _, placement, ?_, ?_⟩
  · rw [makespan_eq, placed.foldl_max, Cycles.clamp]
  · intro other
    have within : ∀ task ∈ tasks, task ≤ other.time := fun task => other.le_time_of_mem
    exact ((balanced_replicate count other.time).handOut some within).time_le some placed

/-- Two processors take three where two are enough: no smaller factor would do. -/
example :
    makespan 2 [1, 1, 2] 0 = 3 ∧ (⟨![0, 0, 1]⟩ : Placement 2 [1, 1, 2]).time = 2 := by
  decide

end Schedule

end DpuCycles
