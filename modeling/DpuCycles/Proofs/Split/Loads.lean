import DpuCycles.Number.Rising
import DpuCycles.Proofs.Split.Makespan
import Mathlib.Data.List.Sort

namespace DpuCycles

/-!
# Loads while tasks are handed out

The loads of the processors are kept in rising order, so the first one is the
least.  Handing out a task changes that one only.

No more processors are kept than there are tasks.  The others would stay idle: a
task that finds two idle processors leaves one of them as it is, so the idle ones
beyond the number of tasks stand in front of the loads from first to last, and the
time of a schedule is that of all its processors.
-/

namespace Schedule

/-- Loads after tasks, of given lengths, are handed out one after another. -/
def handOut
    (loads tasks : List Nat) : List Nat :=
  tasks.foldl (fun loads task => assign task loads) loads

theorem insert_eq_orderedInsert
    (load : Nat)
    (loads : List Nat) :
    insert load loads = loads.orderedInsert (· ≤ ·) load := by
  induction loads with
  | nil =>
      rfl
  | cons first rest inductionHypothesis =>
      rw [insert, List.orderedInsert_cons, inductionHypothesis]

theorem insert_perm
    (load : Nat)
    (loads : List Nat) :
    (insert load loads).Perm (load :: loads) := by
  rw [insert_eq_orderedInsert]
  exact List.perm_orderedInsert _ load loads

/-- Loads in rising order stay so when a task is handed out. -/
theorem pairwise_assign
    {loads : List Nat}
    (task : Nat)
    (rising : loads.Pairwise (· ≤ ·)) :
    (assign task loads).Pairwise (· ≤ ·) := by
  cases loads with
  | nil =>
      exact .nil
  | cons least rest =>
      rw [assign, insert_eq_orderedInsert]
      exact List.Pairwise.orderedInsert _ _ (List.pairwise_cons.mp rising).2

section Idle

theorem insert_zero (loads : List Nat) : insert 0 loads = 0 :: loads := by
  cases loads with
  | nil =>
      rfl
  | cons first rest =>
      exact if_pos (Nat.zero_le first)

/-- A load goes behind the idle processors. -/
theorem insert_replicate_append
    (load idle : Nat)
    (loads : List Nat) :
    insert load (List.replicate idle 0 ++ loads) = List.replicate idle 0 ++ insert load loads := by
  induction idle with
  | zero =>
      rfl
  | succ idle inductionHypothesis =>
      rw [List.replicate_succ, List.cons_append, List.cons_append, ← inductionHypothesis, insert]
      split
      · rename_i isZero
        obtain rfl := Nat.le_zero.mp isZero
        rw [insert_zero]
      · rfl

/-- Idle processors beyond the number of tasks stay idle. -/
theorem handOut_replicate_append
    (idle : Nat)
    (tasks loads : List Nat) :
    handOut (List.replicate (idle + tasks.length) 0 ++ loads) tasks =
      List.replicate idle 0 ++ handOut (List.replicate tasks.length 0 ++ loads) tasks := by
  -- Over the tasks, each of which takes one of the idle processors.
  induction tasks generalizing loads with
  | nil =>
      rfl
  | cons task rest inductionHypothesis =>
      have first : ∀ others,
          assign task (List.replicate (others + 1) 0 ++ loads) =
            List.replicate others 0 ++ insert task loads := by
        intro others
        rw [List.replicate_succ, List.cons_append, assign, Nat.zero_add, insert_replicate_append]
      rw [List.length_cons, ← Nat.add_assoc, handOut, handOut, List.foldl_cons, List.foldl_cons,
        first, first]
      exact inductionHypothesis (insert task loads)

/-- The processors that are left out of a schedule are idle. -/
theorem handOut_idle
    (processors : Nat)
    (tasks : List Nat) :
    ∃ idle,
      handOut (List.replicate (max processors 1) 0) tasks =
        List.replicate idle 0 ++
          handOut (List.replicate (max (min processors tasks.length) 1) 0) tasks := by
  rcases Nat.le_or_ge processors tasks.length with few | many
  · exact ⟨0, by rw [Nat.min_eq_left few]; rfl⟩
  · rw [Nat.min_eq_right many]
    cases tasks with
    | nil =>
        refine ⟨max processors 1 - 1, ?_⟩
        rw [handOut, handOut, List.foldl_nil, List.foldl_nil, List.length_nil,
          List.replicate_append_replicate]
        exact congrArg (List.replicate · 0)
          (Nat.sub_add_cancel (Nat.le_max_right processors 1)).symm
    | cons task rest =>
        have some : 1 ≤ (task :: rest).length := Nat.succ_pos rest.length
        have split := handOut_replicate_append (processors - (task :: rest).length)
          (task :: rest) []
        rw [Nat.sub_add_cancel many, List.append_nil, List.append_nil] at split
        rw [Nat.max_eq_left some, Nat.max_eq_left (Nat.le_trans some many)]
        exact ⟨_, split⟩

end Idle

theorem loads_eq_handOut
    (processors overhead : Nat)
    (costs : List Nat) :
    loads processors costs overhead =
      handOut (List.replicate (max (min processors costs.length) 1) 0)
        (costs.map (· + overhead)) := by
  rw [loads, handOut, List.foldl_map]

/-- The time of a schedule is the greatest load of any processor, idle ones included. -/
theorem makespan_eq
    (processors overhead : Nat)
    (costs : List Nat) :
    makespan processors costs overhead =
      Cycles.clamp ((handOut (List.replicate (max processors 1) 0)
        (costs.map (· + overhead))).foldl max 0) := by
  obtain ⟨idle, padded⟩ := handOut_idle processors (costs.map (· + overhead))
  rw [List.length_map] at padded
  rw [makespan, loads_eq_handOut, padded]
  refine congrArg Cycles.clamp (eq_of_forall_ge_iff fun bound => ?_)
  simp only [foldl_max_le_iff, List.mem_append, List.mem_replicate]
  constructor
  · rintro ⟨zero, each⟩
    refine ⟨zero, ?_⟩
    rintro number (⟨_, rfl⟩ | member)
    · exact zero
    · exact each number member
  · rintro ⟨zero, each⟩
    exact ⟨zero, fun number member => each number (.inr member)⟩

end Schedule

end DpuCycles
