import DpuCycles.Proofs.Estimate.Variants
import DpuCycles.Proofs.Split.Makespan
import DpuCycles.Proofs.Split.Selection

namespace DpuCycles

open Network

/-!
# Candidates that are excluded

Whatever a search minimises, it keeps a candidate that is feasible, and it keeps
one as soon as there is any.  A candidate is excluded when one of its workloads
has no cost, and when its schedule takes no time.  The latter is said of the
schedule and not of the workloads: a workload of no cycles is passed over when
another one takes some, and no workload is left out for its cycles when there is
an overhead.
-/

namespace Candidate

/-- The candidate kept so far is a feasible one of those seen, if there was any. -/
def Kept (seen : List Candidate) : Option (Rounded × Candidate) → Prop
  | none => ∀ candidate ∈ seen, ¬candidate.price.IsFeasible
  | some (_, candidate) => candidate ∈ seen ∧ candidate.price.IsFeasible

variable
  {seen : List Candidate}
  {best : Option (Rounded × Candidate)}

/-- One more candidate leaves a feasible one kept, whatever the scores say. -/
theorem kept_better
    (candidate : Candidate)
    (kept : Kept seen best) :
    Kept (seen ++ [candidate]) (better best candidate) := by
  have isLast : candidate ∈ seen ++ [candidate] :=
    List.mem_append_right seen (List.mem_singleton_self candidate)
  cases priced : candidate.price with
  | feasible cycles score =>
      have feasible : candidate.price.IsFeasible := by
        rw [priced]
        trivial
      cases best with
      | none =>
          simp only [better, priced]
          exact ⟨isLast, feasible⟩
      | some known =>
          obtain ⟨member, knownFeasible⟩ := kept
          -- Whichever has the better score, both are feasible.
          simp only [better, priced]
          split
          · exact ⟨isLast, feasible⟩
          · exact ⟨List.mem_append_left [candidate] member, knownFeasible⟩
  | zero | rejected code =>
      have notFeasible : ¬candidate.price.IsFeasible := by
        rw [priced]
        exact id
      simp only [better, priced]
      cases best with
      | none =>
          intro other member
          rcases List.mem_append.mp member with old | new
          · exact kept other old
          · rwa [List.mem_singleton.mp new]
      | some known =>
          exact ⟨List.mem_append_left [candidate] kept.1, kept.2⟩

theorem kept_foldl
    {candidates : List Candidate}
    (kept : Kept seen best) :
    Kept (seen ++ candidates) (candidates.foldl better best) := by
  induction candidates generalizing seen best with
  | nil =>
      rwa [List.append_nil]
  | cons candidate rest inductionHypothesis =>
      have next := inductionHypothesis (kept_better candidate kept)
      rwa [List.append_assoc] at next

/-- The best of candidates is feasible, and there is one as soon as any of them is. -/
theorem kept_best?
    (candidates : List Candidate) :
    Kept candidates (best? candidates) := by
  have nothingSeen : Kept [] none := fun _ member => (List.not_mem_nil member).elim
  exact kept_foldl nothingSeen

end Candidate

namespace CostModel

variable
  {model : CostModel}
  {options : SearchOptions}
  {processors : Nat}
  {workloads : List Workload}

/-- A price is feasible when the workloads have costs and take time, and it is their time then. -/
theorem isFeasible_price_iff
    (model : CostModel)
    (options : SearchOptions)
    (processors : Nat)
    (workloads : List Workload) :
    ((model.price options processors workloads).IsFeasible ↔
        model.Feasible options processors workloads) ∧
      (model.Feasible options processors workloads →
        (model.price options processors workloads).scalar =
          model.splitTime options processors workloads) := by
  cases failed : (model.costs workloads).find? Cycles.isError with
  | some code =>
      have noCosts : ¬model.HasCosts workloads := by
        rw [hasCosts_iff, failed]
        exact Option.some_ne_none code
      simp [price, priceOf, Feasible, failed, noCosts, Price.IsFeasible]
  | none =>
      have hasCosts : model.HasCosts workloads := hasCosts_iff.mpr failed
      by_cases idle : model.splitTime options processors workloads = 0
      · have priced : model.price options processors workloads = .zero := by
          unfold splitTime at idle
          simp [price, priceOf, failed, idle]
        simp [priced, idle, Feasible, Price.IsFeasible]
      · obtain ⟨score, priced⟩ : ∃ score,
            model.price options processors workloads =
              .feasible (model.splitTime options processors workloads) score := by
          unfold splitTime at idle ⊢
          simp [price, priceOf, failed, idle]
        simp [priced, Feasible, hasCosts, Price.IsFeasible, Price.scalar,
          Nat.pos_of_ne_zero idle]

/-- A search answers with a feasible candidate and its time, or no candidate is feasible. -/
theorem search_feasible
    (model : CostModel)
    (layer : Layer)
    (notPower : options.objective ≠ .power) :
    (∃ workloads ∈ candidatesOf layer options,
        model.Feasible options (options.processorsFor layer) workloads ∧
          (model.search layer options).best =
            .ok ⟨model.splitTime options (options.processorsFor layer) workloads, workloads⟩) ∨
      (∀ workloads ∈ candidatesOf layer options,
          ¬model.Feasible options (options.processorsFor layer) workloads) ∧
        ∃ allZero, (model.search layer options).best = .error (.noSplit allZero) := by
  have spec := model.isFeasible_price_iff options (options.processorsFor layer)
  have kept := Candidate.kept_best? (model.pricedCandidates layer options)
  simp only [search, SearchOutcome.ofCandidates, if_neg notPower]
  cases best : Candidate.best? (model.pricedCandidates layer options) with
  | some winner =>
      obtain ⟨score, candidate⟩ := winner
      rw [best] at kept
      obtain ⟨member, isFeasible⟩ := kept
      obtain ⟨workloads, isCandidate, rfl⟩ := List.mem_map.mp member
      have feasible := (spec workloads).1.mp isFeasible
      have split := congrArg (Split.mk · workloads) ((spec workloads).2 feasible)
      exact .inl ⟨workloads, isCandidate, feasible, congrArg Except.ok split⟩
  | none =>
      rw [best] at kept
      refine .inr ⟨fun workloads member feasible => ?_, _, rfl⟩
      exact kept _ (List.mem_map_of_mem member) ((spec workloads).1.mpr feasible)

end CostModel

end DpuCycles
