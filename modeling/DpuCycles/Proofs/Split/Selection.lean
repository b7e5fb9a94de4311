import DpuCycles.Proofs.Split.Pricing

namespace DpuCycles

/-!
# The split that is selected

A search for least latency keeps the best candidate so far and replaces it only
by one that takes strictly less time.  The invariant over the candidates seen so
far is that the one kept is the first of those that take the least time; scores
are compared as rounded quantities, which is exact for times of this size.
-/

namespace Rounded

/-- Counts within the precision are compared as they are. -/
theorem lt_ofNat
    {left right : Nat}
    (leftFits : left < 2 ^ precision)
    (rightFits : right < 2 ^ precision) :
    (ofNat left).lt (ofNat right) = decide (left < right) := by
  have shiftedNot : (!decide (right ≤ left)) = decide (left < right) := by
    rw [← decide_not, decide_eq_decide]
    exact Nat.not_le
  rw [ofNat, ofNat, normalize, normalize, if_pos leftFits, if_pos rightFits]
  exact shiftedNot

end Rounded

/-- The first of the items that count and take the least time. -/
structure FirstLeast
    (counts : α → Prop)
    (time : α → Nat)
    (items : List α)
    (position : Nat)
    (item : α) : Prop where
  found : items[position]? = some item
  itCounts : counts item
  least : ∀ other ∈ items, counts other → time item ≤ time other
  first :
    ∀ earlier other, earlier < position → items[earlier]? = some other → counts other →
      time item < time other

namespace FirstLeast

variable
  {counts : α → Prop}
  {time : α → Nat}
  {items : List α}
  {position : Nat}
  {item last : α}

/-- The first one stays the first when no less time is taken by a last item. -/
theorem keep
    (before : FirstLeast counts time items position item)
    (notLess : counts last → time item ≤ time last) :
    FirstLeast counts time (items ++ [last]) position item := by
  obtain ⟨inside, _⟩ := List.getElem?_eq_some_iff.mp before.found
  refine ⟨?_, before.itCounts, ?_, ?_⟩
  · rw [List.getElem?_append_left inside]
    exact before.found
  · intro other member otherCounts
    rcases List.mem_append.mp member with old | new
    · exact before.least other old otherCounts
    · obtain rfl := List.mem_singleton.mp new
      exact notLess otherCounts
  · intro earlier other isEarlier atEarlier otherCounts
    rw [List.getElem?_append_left (Nat.lt_trans isEarlier inside)] at atEarlier
    exact before.first earlier other isEarlier atEarlier otherCounts

/-- A last item is the first one when it takes less time than all before it. -/
theorem replace
    (lastCounts : counts last)
    (less : ∀ other ∈ items, counts other → time last < time other) :
    FirstLeast counts time (items ++ [last]) items.length last := by
  refine ⟨List.getElem?_concat_length, lastCounts, ?_, ?_⟩
  · intro other member otherCounts
    rcases List.mem_append.mp member with old | new
    · exact Nat.le_of_lt (less other old otherCounts)
    · obtain rfl := List.mem_singleton.mp new
      exact Nat.le_refl _
  · intro earlier other isEarlier atEarlier otherCounts
    rw [List.getElem?_append_left isEarlier] at atEarlier
    exact less other (List.mem_of_getElem? atEarlier) otherCounts

/-- There is only one first item. -/
theorem unique
    {otherPosition : Nat}
    {other : α}
    (one : FirstLeast counts time items position item)
    (another : FirstLeast counts time items otherPosition other) :
    item = other := by
  have itemMember := List.mem_of_getElem? one.found
  have otherMember := List.mem_of_getElem? another.found
  rcases Nat.lt_trichotomy position otherPosition with before | same | behind
  · have less := another.first position item before one.found one.itCounts
    exact absurd (one.least other otherMember another.itCounts) (Nat.not_le.mpr less)
  · exact Option.some.inj (one.found.symm.trans (same ▸ another.found))
  · have less := one.first otherPosition other behind another.found another.itCounts
    exact absurd (another.least item itemMember one.itCounts) (Nat.not_le.mpr less)

/-- The first of mapped items is the image of the first item. -/
theorem of_map
    {image : β → α}
    {originals : List β}
    (mapped : FirstLeast counts time (originals.map image) position item) :
    ∃ original,
      image original = item ∧
        FirstLeast (counts ∘ image) (time ∘ image) originals position original := by
  obtain ⟨found, itCounts, least, first⟩ := mapped
  rw [List.getElem?_map, Option.map_eq_some_iff] at found
  obtain ⟨original, atPosition, rfl⟩ := found
  refine ⟨original, rfl, atPosition, itCounts, ?_, ?_⟩
  · intro other member otherCounts
    exact least _ (List.mem_map_of_mem member) otherCounts
  · intro earlier other isEarlier atEarlier otherCounts
    have atImage : (originals.map image)[earlier]? = some (image other) := by
      rw [List.getElem?_map, atEarlier]
      rfl
    exact first earlier _ isEarlier atImage otherCounts

/-- Only the times of the items that count matter. -/
theorem of_same
    {otherCounts : α → Prop}
    {otherTime : α → Nat}
    (sameCounts : ∀ item, counts item ↔ otherCounts item)
    (sameTime : ∀ item, counts item → time item = otherTime item)
    (one : FirstLeast counts time items position item) :
    FirstLeast otherCounts otherTime items position item := by
  obtain ⟨found, itCounts, least, first⟩ := one
  refine ⟨found, (sameCounts item).mp itCounts, ?_, ?_⟩
  · intro other member otherIs
    have counted := (sameCounts other).mpr otherIs
    rw [← sameTime item itCounts, ← sameTime other counted]
    exact least other member counted
  · intro earlier other isEarlier atEarlier otherIs
    have counted := (sameCounts other).mpr otherIs
    rw [← sameTime item itCounts, ← sameTime other counted]
    exact first earlier other isEarlier atEarlier counted

end FirstLeast

namespace Price

/-- Whether a price is that of a schedule that takes time. -/
def IsFeasible : Price → Prop
  | .feasible _ _ => True
  | _ => False

/-- Prices whose score is their time, small enough to be exact. -/
def ScoresTime : Price → Prop
  | .feasible cycles score => score = .ofNat cycles ∧ cycles < 2 ^ Rounded.precision
  | _ => True

end Price

namespace Candidate

/-- The best candidate so far after one more. -/
def better
    (best : Option (Rounded × Candidate))
    (candidate : Candidate) : Option (Rounded × Candidate) :=
  match candidate.price with
  | .feasible _ score =>
      match best with
      | none => some (score, candidate)
      | some (least, _) => if score.lt least then some (score, candidate) else best
  | _ => best

/-- The first feasible candidate of the least time. -/
abbrev Quickest : List Candidate → Nat → Candidate → Prop :=
  FirstLeast (fun candidate => candidate.price.IsFeasible) fun candidate => candidate.price.scalar

/-- What the best candidate so far is among those that were seen. -/
def Selected (seen : List Candidate) : Option (Rounded × Candidate) → Prop
  | none => ∀ candidate ∈ seen, ¬candidate.price.IsFeasible
  | some (score, candidate) =>
      score = .ofNat candidate.price.scalar ∧
        candidate.price.scalar < 2 ^ Rounded.precision ∧
        ∃ position, Quickest seen position candidate

variable
  {seen : List Candidate}
  {best : Option (Rounded × Candidate)}

/-- One more candidate is kept exactly when it is the new first one of the least time. -/
theorem selected_better
    {candidate : Candidate}
    (selected : Selected seen best)
    (scores : candidate.price.ScoresTime) :
    Selected (seen ++ [candidate]) (better best candidate) := by
  by_cases feasible : candidate.price.IsFeasible
  · obtain ⟨workloads, price⟩ := candidate
    cases price with
    | zero =>
        exact feasible.elim
    | rejected code =>
        exact feasible.elim
    | feasible cycles score =>
        obtain ⟨rfl, fits⟩ := scores
        cases best with
        | none =>
            exact ⟨rfl, fits, seen.length,
              .replace trivial fun other member counts => (selected other member counts).elim⟩
        | some known =>
            obtain ⟨least, kept⟩ := known
            obtain ⟨rfl, keptFits, position, quickest⟩ := selected
            have compared :
                (Rounded.ofNat cycles).lt (.ofNat kept.price.scalar) =
                  decide (cycles < kept.price.scalar) :=
              Rounded.lt_ofNat fits keptFits
            -- Only a strictly smaller time replaces, so the earliest of equals stays.
            by_cases less : cycles < kept.price.scalar
            · simp only [better, compared, less, decide_true, if_true]
              exact ⟨rfl, fits, seen.length, .replace trivial fun other member counts =>
                Nat.lt_of_lt_of_le less (quickest.least other member counts)⟩
            · simp only [better, compared, less, decide_false, Bool.false_eq_true, if_false]
              exact ⟨rfl, keptFits, position, quickest.keep fun _ => Nat.not_lt.mp less⟩
  · have unchanged : better best candidate = best := by
      obtain ⟨workloads, price⟩ := candidate
      cases price with
      | feasible cycles score =>
          exact (feasible trivial).elim
      | zero =>
          rfl
      | rejected code =>
          rfl
    rw [unchanged]
    cases best with
    | none =>
        intro other member
        rcases List.mem_append.mp member with old | new
        · exact selected other old
        · obtain rfl := List.mem_singleton.mp new
          exact feasible
    | some known =>
        obtain ⟨score, fits, position, quickest⟩ := selected
        exact ⟨score, fits, position, quickest.keep fun counts => (feasible counts).elim⟩

/-- Going through candidates selects among all that were seen. -/
theorem selected_foldl
    {candidates : List Candidate}
    (selected : Selected seen best)
    (score : ∀ candidate ∈ candidates, candidate.price.ScoresTime) :
    Selected (seen ++ candidates) (candidates.foldl better best) := by
  induction candidates generalizing seen best with
  | nil =>
      rwa [List.append_nil]
  | cons candidate rest inductionHypothesis =>
      obtain ⟨first, others⟩ := List.forall_mem_cons.mp score
      have next := inductionHypothesis (selected_better selected first) others
      rwa [List.append_assoc] at next

/-- The best of candidates is the first one of the least time, if there is any. -/
theorem selected_best?
    {candidates : List Candidate}
    (score : ∀ candidate ∈ candidates, candidate.price.ScoresTime) :
    Selected candidates (best? candidates) := by
  have nothingSeen : Selected [] none := fun _ member => (List.not_mem_nil member).elim
  exact selected_foldl nothingSeen score

end Candidate

namespace CostModel

/-- The time of the schedule of workloads. -/
def splitTime
    (model : CostModel)
    (options : SearchOptions)
    (processors : Nat)
    (workloads : List Workload) : Nat :=
  Schedule.makespan processors (model.costs workloads) options.overhead

/-- All of some workloads have costs. -/
def HasCosts
    (model : CostModel)
    (workloads : List Workload) : Prop :=
  ∀ cost ∈ model.costs workloads, Cycles.isError cost = false

/-- All workloads have costs and their schedule takes time. -/
def Feasible
    (model : CostModel)
    (options : SearchOptions)
    (processors : Nat)
    (workloads : List Workload) : Prop :=
  model.HasCosts workloads ∧ 0 < model.splitTime options processors workloads

/-- What is reported for workloads: their first error, or the time of their schedule. -/
def reported
    (model : CostModel)
    (options : SearchOptions)
    (processors : Nat)
    (workloads : List Workload) : Nat :=
  ((model.costs workloads).find? Cycles.isError).getD
    (model.splitTime options processors workloads)

variable
  {model : CostModel}
  {options : SearchOptions}
  {processors : Nat}
  {workloads : List Workload}

theorem hasCosts_iff :
    model.HasCosts workloads ↔ (model.costs workloads).find? Cycles.isError = none := by
  simp [HasCosts]

theorem splitTime_lt :
    model.splitTime options processors workloads < 2 ^ Rounded.precision :=
  Nat.lt_of_le_of_lt (Nat.min_le_right _ _) (by decide)

theorem reported_of_hasCosts
    (hasCosts : model.HasCosts workloads) :
    model.reported options processors workloads =
      model.splitTime options processors workloads := by
  rw [reported, hasCosts_iff.mp hasCosts]
  rfl

/--
The price of a candidate says whether it is feasible, whether it is zero, and what is
reported.
-/
theorem price_spec
    (model : CostModel)
    (processors : Nat)
    (workloads : List Workload)
    (latency : options.objective = .latency) :
    ((model.price options processors workloads).IsFeasible ↔
        model.Feasible options processors workloads) ∧
      ((model.price options processors workloads).isZero = true ↔
        model.HasCosts workloads ∧ model.splitTime options processors workloads = 0) ∧
      (model.price options processors workloads).scalar =
        model.reported options processors workloads ∧
      (model.price options processors workloads).ScoresTime := by
  cases failed : (model.costs workloads).find? Cycles.isError with
  | some code =>
      have noCosts : ¬model.HasCosts workloads := by
        rw [hasCosts_iff, failed]
        exact Option.some_ne_none code
      simp [price, priceOf, reported, Feasible, failed, noCosts, Price.IsFeasible, Price.isZero,
        Price.scalar, Price.ScoresTime]
  | none =>
      have hasCosts : model.HasCosts workloads := hasCosts_iff.mpr failed
      rw [reported_of_hasCosts hasCosts]
      by_cases idle : model.splitTime options processors workloads = 0
      · have priced : model.price options processors workloads = .zero := by
          unfold splitTime at idle
          simp [price, priceOf, failed, idle]
        simp [priced, idle, Feasible, hasCosts, Price.IsFeasible, Price.isZero, Price.scalar,
          Price.ScoresTime]
      · have priced : model.price options processors workloads =
            .feasible (model.splitTime options processors workloads)
              (.ofNat (model.splitTime options processors workloads)) := by
          unfold splitTime at idle ⊢
          simp [price, priceOf, failed, idle, score, latency]
        simp [priced, idle, Feasible, hasCosts, Price.IsFeasible, Price.isZero, Price.scalar,
          Price.ScoresTime, Nat.pos_of_ne_zero, splitTime_lt]

/-- The first feasible candidate of the least time. -/
abbrev Wins
    (model : CostModel)
    (layer : Layer)
    (options : SearchOptions) : Nat → List Workload → Prop :=
  FirstLeast (model.Feasible options (options.processorsFor layer))
    (model.splitTime options (options.processorsFor layer)) (candidatesOf layer options)

/-- No candidate has a cost that is not zero, and there are some. -/
def AllZero
    (model : CostModel)
    (layer : Layer)
    (options : SearchOptions) : Prop :=
  candidatesOf layer options ≠ [] ∧
    ∀ workloads ∈ candidatesOf layer options,
      model.HasCosts workloads ∧
        model.splitTime options (options.processorsFor layer) workloads = 0

/-- The first of the priced candidates of the least time comes from the winner. -/
theorem wins_of_quickest
    {layer : Layer}
    {position : Nat}
    {candidate : Candidate}
    (latency : options.objective = .latency)
    (quickest : Candidate.Quickest (model.pricedCandidates layer options) position candidate) :
    ∃ workloads,
      model.Wins layer options position workloads ∧
        candidate.split =
          ⟨model.splitTime options (options.processorsFor layer) workloads, workloads⟩ := by
  have spec := fun workloads => model.price_spec (options.processorsFor layer) workloads latency
  have time : ∀ workloads,
      (model.price options (options.processorsFor layer) workloads).IsFeasible →
      (model.price options (options.processorsFor layer) workloads).scalar =
        model.splitTime options (options.processorsFor layer) workloads := by
    intro workloads priced
    have hasCosts := ((spec workloads).1.mp priced).1
    exact (spec workloads).2.2.1.trans (reported_of_hasCosts hasCosts)
  obtain ⟨workloads, rfl, first⟩ := FirstLeast.of_map quickest
  refine ⟨workloads, first.of_same (fun workloads => (spec workloads).1) time, ?_⟩
  exact congrArg (Split.mk · workloads) (time workloads first.itCounts)

/-- A search for least latency has a winner, or no candidate is feasible. -/
theorem search_latency
    (model : CostModel)
    (layer : Layer)
    (latency : options.objective = .latency) :
    (∃ position workloads,
        model.Wins layer options position workloads ∧
          (model.search layer options).best =
            .ok ⟨model.splitTime options (options.processorsFor layer) workloads, workloads⟩) ∨
      (∀ workloads ∈ candidatesOf layer options,
          ¬model.Feasible options (options.processorsFor layer) workloads) ∧
        ∃ allZero,
          (model.search layer options).best = .error (.noSplit allZero) ∧
            (allZero = true ↔ model.AllZero layer options) := by
  have spec := fun workloads => model.price_spec (options.processorsFor layer) workloads latency
  have selected : Candidate.Selected (model.pricedCandidates layer options)
      (Candidate.best? (model.pricedCandidates layer options)) := by
    refine Candidate.selected_best? fun candidate member => ?_
    obtain ⟨workloads, _, rfl⟩ := List.mem_map.mp member
    exact (spec workloads).2.2.2
  have notPower : options.objective ≠ .power := by
    simp [latency]
  simp only [search, SearchOutcome.ofCandidates, if_neg notPower]
  cases best : Candidate.best? (model.pricedCandidates layer options) with
  | some winner =>
      obtain ⟨score, candidate⟩ := winner
      rw [best] at selected
      obtain ⟨_, _, position, quickest⟩ := selected
      obtain ⟨workloads, wins, split⟩ := wins_of_quickest latency quickest
      exact .inl ⟨position, workloads, wins, congrArg Except.ok split⟩
  | none =>
      rw [best] at selected
      refine .inr ⟨?_, _, rfl, ?_⟩
      · intro workloads member feasible
        exact selected _ (List.mem_map_of_mem member) ((spec workloads).1.mpr feasible)
      · simp [pricedCandidates, AllZero, candidatesOf, (spec _).2.1]

/-- The answer of a search is the winner with its time. -/
theorem best_eq_ok_iff
    {layer : Layer}
    {split : Split}
    (latency : options.objective = .latency) :
    (model.search layer options).best = .ok split ↔
      split.cost = model.splitTime options (options.processorsFor layer) split.workloads ∧
        ∃ position, model.Wins layer options position split.workloads := by
  rcases model.search_latency layer latency with
    ⟨position, workloads, wins, isBest⟩ | ⟨none, allZero, isBest, _⟩
  · rw [isBest, Except.ok.injEq]
    constructor
    · rintro rfl
      exact ⟨rfl, position, wins⟩
    · rintro ⟨cost, otherPosition, otherWins⟩
      obtain ⟨splitCost, splitWorkloads⟩ := split
      obtain rfl : workloads = splitWorkloads := wins.unique otherWins
      exact congrArg (Split.mk · workloads) cost.symm
  · rw [isBest]
    refine iff_of_false (by simp) ?_
    rintro ⟨_, position, wins⟩
    exact none _ (List.mem_of_getElem? wins.found) wins.itCounts

theorem exists_best_iff
    {layer : Layer}
    (latency : options.objective = .latency) :
    (∃ split, (model.search layer options).best = .ok split) ↔
      ∃ workloads ∈ candidatesOf layer options,
        model.Feasible options (options.processorsFor layer) workloads := by
  rcases model.search_latency layer latency with
    ⟨position, workloads, wins, isBest⟩ | ⟨none, allZero, isBest, _⟩
  · exact iff_of_true ⟨_, isBest⟩ ⟨workloads, List.mem_of_getElem? wins.found, wins.itCounts⟩
  · refine iff_of_false (by simp [isBest]) ?_
    rintro ⟨workloads, member, feasible⟩
    exact none workloads member feasible

/-- Where a candidate is feasible there is an answer, and it takes no more time. -/
theorem exists_best_le
    {layer : Layer}
    (latency : options.objective = .latency)
    (member : workloads ∈ candidatesOf layer options)
    (feasible : model.Feasible options (options.processorsFor layer) workloads) :
    ∃ split,
      (model.search layer options).best = .ok split ∧
        split.cost ≤ model.splitTime options (options.processorsFor layer) workloads := by
  obtain ⟨split, isBest⟩ := (exists_best_iff latency).mpr ⟨workloads, member, feasible⟩
  obtain ⟨cost, position, wins⟩ := (best_eq_ok_iff latency).mp isBest
  exact ⟨split, isBest, cost ▸ wins.least workloads member feasible⟩

/-- A search fails when no candidate is feasible, and says whether all of them are zero. -/
theorem best_eq_error_iff
    {layer : Layer}
    {failure : SearchFailure}
    (latency : options.objective = .latency) :
    (model.search layer options).best = .error failure ↔
      (∀ workloads ∈ candidatesOf layer options,
          ¬model.Feasible options (options.processorsFor layer) workloads) ∧
        ∃ allZero,
          failure = .noSplit allZero ∧ (allZero = true ↔ model.AllZero layer options) := by
  rcases model.search_latency layer latency with
    ⟨position, workloads, wins, isBest⟩ | ⟨none, allZero, isBest, isAllZero⟩
  · rw [isBest]
    refine iff_of_false (by simp) fun failed => ?_
    exact failed.1 workloads (List.mem_of_getElem? wins.found) wins.itCounts
  · rw [isBest, Except.error.injEq]
    constructor
    · rintro rfl
      exact ⟨none, allZero, rfl, isAllZero⟩
    · rintro ⟨_, otherZero, rfl, otherIsAllZero⟩
      have same : allZero = otherZero :=
        Bool.eq_iff_iff.mpr (isAllZero.trans otherIsAllZero.symm)
      exact congrArg SearchFailure.noSplit same

/-- A search reports all candidates in the order they are tried. -/
theorem tried_eq_map
    {layer : Layer}
    (latency : options.objective = .latency) :
    (model.search layer options).tried =
      (candidatesOf layer options).map fun workloads =>
        ⟨model.reported options (options.processorsFor layer) workloads, workloads⟩ := by
  have notPower : options.objective ≠ .power := by
    simp [latency]
  simp only [search, SearchOutcome.ofCandidates, if_neg notPower, pricedCandidates, List.map_map]
  refine List.map_congr_left fun workloads _ => ?_
  have scalar := (model.price_spec (options.processorsFor layer) workloads latency).2.2.1
  exact congrArg (Split.mk · workloads) scalar

/--
A search for least latency answers with the first feasible candidate of the least time
and fails when none is feasible, as long as every cut can be made and priced; it has no
answer where a cut cannot be made.  All candidates are appended to a store, if there is one,
in the order they are tried.  Neither the store nor pricing candidates at the same time
changes the answer, nor do the contexts that are kept.
-/
theorem searchStoring_latency
    {settings : Settings}
    {network : Network.Trained}
    {model : CostModel}
    (loaded : network = .absent ∨ ∃ bytes, Network.Trained.load? bytes = some network)
    (made : ofNetwork settings network = .ok model)
    (layer : Layer)
    (latency : options.objective = .latency) :
    let time := model.splitTime options (options.processorsFor layer)
    let feasible := model.Feasible options (options.processorsFor layer)
    ∃ answer,
      (∀ split,
        answer = .ok split ↔
          split.cost = time split.workloads ∧
            ∃ position,
              FirstLeast feasible time (candidatesOf layer options) position split.workloads) ∧
      ((∃ split, answer = .ok split) ↔
        ∃ workloads ∈ candidatesOf layer options, feasible workloads) ∧
      (∀ failure,
        answer = .error failure ↔
          (∀ workloads ∈ candidatesOf layer options, ¬feasible workloads) ∧
            ∃ allZero,
              failure = .noSplit allZero ∧ (allZero = true ↔ model.AllZero layer options)) ∧
      (model.canSearch options layer →
        ∀ parallel kept store?,
          model.Offers kept →
          model.searchStoring layer { options with parallel := parallel } kept store? =
            some (answer, store?.map (· ++ (candidatesOf layer options).map fun workloads =>
              ⟨model.reported options (options.processorsFor layer) workloads, workloads⟩))) ∧
      (layer.canCut options = false →
        ∀ parallel kept store?,
          model.searchStoring layer { options with parallel := parallel } kept store? = none) := by
  intro time feasible
  have fits : model.Fits :=
    fits_of_ofNetwork
      (loaded.imp_right fun ⟨bytes, loads⟩ =>
        ⟨bytes, (Network.Trained.ofBytes_of_load? loads).symm⟩) made
  refine ⟨(model.search layer options).best, fun split => best_eq_ok_iff latency,
    exists_best_iff latency, fun failure => best_eq_error_iff latency, ?_, ?_⟩
  · intro searchable parallel kept store? offers
    have outcome : model.searchKept layer { options with parallel := parallel } kept =
        some (model.search layer options) :=
      searchKept_eq_search fits offers searchable
    rw [searchStoring, outcome, Option.map_some, tried_eq_map latency]
  · intro uncut parallel kept store?
    have notPower : ({ options with parallel := parallel } : SearchOptions).objective ≠ .power := by
      simp [latency]
    rw [searchStoring, searchKept_of_uncut notPower uncut, Option.map_none]

/-- A layer of 32 by 32 points. -/
def squareLayer : Layer :=
  let tensor := Tensor.dense ⟨32, 32, 64, 1⟩ .uint8
  .ofWorkload (.plain .vpu27 .convolution tensor tensor .cuboid16x16)

/-- A search for two processors and few workloads. -/
def twoProcessors : SearchOptions :=
  { SearchOptions.initial with maxWorkloads := 4, processors := 2 }

/-- Without a network its answer is the first of many candidates that take the same time. -/
theorem searchStoring_of_squareLayer :
    ofNetwork .initial .absent = .ok initial ∧
      twoProcessors.objective = .latency ∧
      initial.canSearch twoProcessors squareLayer ∧
      ∃ split position,
        (∀ parallel,
          (initial.searchStoring squareLayer { twoProcessors with parallel := parallel } .none
            none).map Prod.fst = some (.ok split)) ∧
          split.cost = initial.splitTime twoProcessors 2 split.workloads ∧
          FirstLeast (initial.Feasible twoProcessors 2) (initial.splitTime twoProcessors 2)
            (candidatesOf squareLayer twoProcessors) position split.workloads := by
  have searchable : initial.canSearch twoProcessors squareLayer := by
    decide +kernel
  have answers : (initial.search squareLayer twoProcessors).best.toOption.isSome := by
    decide +kernel
  have feasible : ∃ workloads ∈ candidatesOf squareLayer twoProcessors,
      initial.Feasible twoProcessors 2 workloads := by
    cases best : (initial.search squareLayer twoProcessors).best with
    | error failure =>
        rw [best] at answers
        contradiction
    | ok split =>
        exact (exists_best_iff rfl).mp ⟨split, best⟩
  have made : ofNetwork .initial .absent = .ok initial := rfl
  obtain ⟨answer, isOk, someOk, _, found, _⟩ :=
    searchStoring_latency (.inl rfl) made squareLayer (rfl : twoProcessors.objective = .latency)
  obtain ⟨split, isAnswer⟩ := someOk.mpr feasible
  obtain ⟨cost, position, first⟩ := (isOk split).mp isAnswer
  refine ⟨made, rfl, searchable, split, position, fun parallel => ?_, cost, first⟩
  have outcome := found searchable parallel .none none initial.offers_none
  rw [outcome, isAnswer]
  rfl

/-- A layer as wide as 32 bits allow. -/
def widestLayer : Layer :=
  let tensor := Tensor.dense ⟨4294967295, 8, 16, 1⟩ .uint8
  .ofWorkload (.plain .vpu20 .convolution tensor tensor .matrix)

/-- Blocks of whole columns would be wider, so its rows cannot be cut and a search has no answer. -/
theorem searchStoring_of_widestLayer :
    SearchOptions.initial.objective = .latency ∧
      initial.searchStoring widestLayer .initial .none none = none := by
  have notPower : SearchOptions.initial.objective ≠ .power := by decide
  have uncut : widestLayer.canCut .initial = false := by
    decide +kernel
  refine ⟨rfl, ?_⟩
  rw [searchStoring, searchKept_of_uncut notPower uncut, Option.map_none]

end CostModel

end DpuCycles
