import DpuCycles.Cycles

namespace DpuCycles

/-!
# Schedules

Tasks are handed out in order, each to the processor with the least load.  Only
the loads matter, so a schedule is kept as their rising list.

A load is a count that stands for a word of 64 bits.  A task adds less than 2 ^ 33 to
it, its cycles and its overhead being words of 32 bits, so that fewer than 2 ^ 31 tasks
lose nothing.
-/

namespace Schedule

/-- Loads with one more, in rising order. -/
def insert
    (load : Nat) :
    List Nat → List Nat
  | [] => [load]
  | first :: rest => if load ≤ first then load :: first :: rest else first :: insert load rest

/-- Hand a task to the least loaded processor. -/
def assign
    (length : Nat) :
    List Nat → List Nat
  | [] => []
  | least :: rest => insert (least + length) rest

/--
Loads of processors after tasks with a fixed overhead each.  There is at least one
processor, and those beyond the number of tasks get none and are left out.
-/
def loads
    (processors : Nat)
    (costs : List Nat)
    (overhead : Nat) : List Nat :=
  costs.foldl (fun loads cost => assign (cost + overhead) loads)
    (List.replicate (max (min processors costs.length) 1) 0)

/-- The time after which every processor is done, clamped below the error codes. -/
def makespan
    (processors : Nat)
    (costs : List Nat)
    (overhead : Nat) : Nat :=
  Cycles.clamp ((loads processors costs overhead).foldl max 0)

end Schedule

end DpuCycles
