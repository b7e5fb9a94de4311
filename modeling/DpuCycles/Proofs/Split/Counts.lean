import DpuCycles.Split.Search

namespace DpuCycles

/-!
# Numbers of workloads that are tried

A pool holds one and numbers up to a limit.  Candidates are the boxes of all
cuts, modes and numbers.
-/

/-- A halving divides its range and is neither zero nor above the limit. -/
theorem bounds_of_mem_halvings
    {range limit number : Nat}
    (member : number ∈ halvings range limit) :
    0 < number ∧ number ≤ limit := by
  obtain ⟨exponent, _, below, _, rfl, within⟩ := mem_halvings.mp member
  exact ⟨Nat.div_pos (Nat.le_of_lt below) (Nat.two_pow_pos exponent), within⟩

namespace Cut

/-- Numbers between one and a limit, or one itself. -/
theorem bounds_of_mem_counts
    {processors limit number : Nat}
    {others : List Nat}
    (othersBounded : ∀ other ∈ others, 0 < other ∧ other ≤ limit)
    (member : number ∈ counts processors limit others) :
    0 < number ∧ number ≤ max 1 limit := by
  rcases mem_counts.mp member with isOne | inOthers | isMultiple
  · subst isOne
    exact ⟨Nat.one_pos, Nat.le_max_left 1 limit⟩
  · have bounds := othersBounded number inOthers
    exact ⟨bounds.1, Nat.le_trans bounds.2 (Nat.le_max_right 1 limit)⟩
  · have bounds := (mem_multiples (Nat.le_max_right processors 1)).mp isMultiple
    exact ⟨bounds.1, Nat.le_trans bounds.2.1 (Nat.le_max_right 1 limit)⟩

/-- Every number of a pool is positive and, unless it is one, within the limit. -/
theorem bounds_of_mem_pool
    {cut : Cut}
    {layer : Layer}
    {processors limit number : Nat}
    {mode : ExecutionMode}
    (member : number ∈ cut.pool layer processors mode limit) :
    0 < number ∧ number ≤ max 1 limit := by
  have ofOne : ∀ {number : Nat}, number ∈ [1] → 0 < number ∧ number ≤ max 1 limit := by
    intro number isOne
    rw [List.mem_singleton] at isOne
    omega
  have ofCounts : ∀ {number most : Nat} {others : List Nat},
      (∀ other ∈ others, 0 < other ∧ other ≤ min limit most) →
      number ∈ counts processors (min limit most) others →
      0 < number ∧ number ≤ max 1 limit := by
    intro number most others othersBounded inCounts
    have bounds := bounds_of_mem_counts othersBounded inCounts
    omega
  have ofPlane :
      number ∈ planeCounts layer processors mode limit → 0 < number ∧ number ≤ max 1 limit := by
    intro inPlane
    unfold planeCounts at inPlane
    split at inPlane
    · exact ofOne inPlane
    · exact ofCounts (fun other inHalvings => bounds_of_mem_halvings inHalvings) inPlane
  cases cut with
  | channels =>
      simp only [pool, channelCounts] at member
      split at member
      · exact ofOne member
      · split at member
        · exact ofOne member
        · refine ofCounts (fun other inHalvings => ?_) member
          obtain ⟨range, _, inRange⟩ := List.mem_flatMap.mp inHalvings
          exact bounds_of_mem_halvings inRange
  | plane =>
      exact ofPlane member
  | rows =>
      exact ofPlane member
  | columns =>
      exact ofPlane member

/-- Not to cut is always tried. -/
theorem one_mem_pool
    (cut : Cut)
    (layer : Layer)
    (processors : Nat)
    (mode : ExecutionMode)
    (limit : Nat) :
    1 ∈ cut.pool layer processors mode limit := by
  have inPlane : 1 ∈ planeCounts layer processors mode limit := by
    unfold planeCounts
    split
    · exact List.mem_singleton.mpr rfl
    · exact mem_counts.mpr (.inl rfl)
  cases cut with
  | channels =>
      simp only [pool, channelCounts]
      split
      · exact List.mem_singleton.mpr rfl
      · split
        · exact List.mem_singleton.mpr rfl
        · exact mem_counts.mpr (.inl rfl)
  | plane | rows | columns =>
      exact inPlane

end Cut

namespace Layer

/-- A candidate is made by one cut, in one mode, for one number of its pool. -/
theorem mem_candidates
    {layer : Layer}
    {options : SearchOptions}
    {processors limit : Nat}
    {boxes : List Workload} :
    boxes ∈ layer.candidates options processors limit ↔
      ∃ cut ∈ layer.cutsFor options processors, ∃ mode ∈ layer.modes,
        ∃ count ∈ cut.pool layer processors mode limit,
          boxes ∈ (cut.boxes? layer mode count).getD [] := by
  simp only [candidates, List.mem_flatMap]

/-- Where any cut is tried, the whole output is a candidate in every mode. -/
theorem wholeBox_mem_candidates_of_cut
    {layer : Layer}
    {options : SearchOptions}
    {processors : Nat}
    {cut : Cut}
    {mode : ExecutionMode}
    (limit : Nat)
    (isCut : cut ∈ layer.cutsFor options processors)
    (isMode : mode ∈ layer.modes) :
    [layer.wholeBox mode] ∈ layer.candidates options processors limit :=
  mem_candidates.mpr
    ⟨cut, isCut, mode, isMode, 1, Cut.one_mem_pool _ _ _ _ _, List.mem_singleton.mpr rfl⟩

/-- Cuts along the channels are tried wherever they are asked for. -/
theorem wholeBox_mem_candidates
    {layer : Layer}
    {options : SearchOptions}
    {mode : ExecutionMode}
    (processors limit : Nat)
    (member : Cut.channels ∈ options.cuts)
    (isMode : mode ∈ layer.modes) :
    [layer.wholeBox mode] ∈ layer.candidates options processors limit := by
  have isCut : Cut.channels ∈ layer.cutsFor options processors := by
    simp [cutsFor, member]
  exact wholeBox_mem_candidates_of_cut limit isCut isMode

section LimitedChannels

variable {layer : Layer}

theorem modes_of_limitsChannels
    (limits : layer.limitsChannels = true) :
    layer.modes = [.cuboid16x16] := by
  simp only [limitsChannels, Bool.and_eq_true] at limits
  obtain ⟨cuboid, limited⟩ := limits
  rw [modes, if_pos cuboid]
  cases isOperation : layer.operation with
  | channelMajor | depthwise | avePool | maxPool =>
      rfl
  | convolution | eltwise | eltwiseMul | layerNorm =>
      rw [isOperation] at limited
      contradiction

theorem operation_of_limitsChannels
    (limits : layer.limitsChannels = true) :
    layer.operation ≠ .convolution := by
  intro isConvolution
  simp [limitsChannels, isConvolution] at limits

/-- Where channels are limited, the whole output is the only candidate. -/
theorem mem_candidates_of_limitsChannels
    {options : SearchOptions}
    {processors limit : Nat}
    {boxes : List Workload}
    (limits : layer.limitsChannels = true) :
    boxes ∈ layer.candidates options processors limit ↔
      Cut.channels ∈ options.cuts ∧ boxes = [layer.wholeBox .cuboid16x16] := by
  have notConvolution := operation_of_limitsChannels limits
  have single : Cut.channelCounts layer processors .cuboid16x16 limit = [1] := by
    unfold Cut.channelCounts
    dsimp only
    split
    · rfl
    · rw [if_pos ⟨by decide, notConvolution⟩]
  constructor
  · intro candidate
    obtain ⟨cut, isCut, mode, isMode, count, inPool, made⟩ := mem_candidates.mp candidate
    simp only [cutsFor, limits, List.mem_filter, Bool.not_true, Bool.false_and, Bool.or_false,
      beq_iff_eq] at isCut
    obtain ⟨member, rfl⟩ := isCut
    rw [modes_of_limitsChannels limits, List.mem_singleton] at isMode
    subst isMode
    rw [Cut.pool, single, List.mem_singleton] at inPool
    subst inPool
    exact ⟨member, List.mem_singleton.mp made⟩
  · rintro ⟨member, rfl⟩
    refine wholeBox_mem_candidates processors limit member ?_
    rw [modes_of_limitsChannels limits]
    exact List.mem_singleton.mpr rfl

end LimitedChannels

end Layer

end DpuCycles
