import DpuCycles.Proofs.Network.Inference

namespace DpuCycles.Network

/-!
# Contexts that callers hold

A context is made for some rows of some width and then goes from run to run, of
one network or of several, whether they succeed or not.  As long as its buffers fit
and can grow, it has at least one row and buffers of exactly its size.
-/

/--
Contexts that come from one whose buffers fit, by any runs of any networks that there
is room for.
-/
inductive Context.Reachable : Context → Prop where
  | made
      {batch width : Nat}
      (fits : Context.fits batch width) :
      Reachable (.make batch width)
  | used
      {context : Context}
      {network : Trained}
      (input : Array Single)
      (room : context.hasRoom network.neededWidth) :
      Reachable context →
      Reachable (network.predictWithin context input).1

namespace Kernel

theorem size_overwrite
    {values buffer : Array Single}
    (room : values.size ≤ buffer.size) :
    (overwrite values buffer).size = buffer.size := by
  rw [overwrite, Array.size_append, Array.size_extract]
  omega

theorem size_forwardEach
    (image : Single → Single)
    (input output : Array Single) :
    (forwardEach image input output).size = output.size := by
  refine size_overwrite ?_
  rw [Array.size_map, Array.size_extract]
  omega

/-- Functions of rows that fit the output keep its size. -/
theorem size_forwardRows
    {image : Array Single → Array Single}
    {rows width next : Nat}
    {input output written : Array Single}
    (sized : ∀ row, row.size = width → (image row).size = next)
    (ran : forwardRows image rows width next input output = .ok written) :
    written.size = output.size := by
  unfold forwardRows at ran
  split at ran
  · rename_i inRange
    rw [Except.ok.injEq] at ran
    subst written
    refine size_overwrite ?_
    have images :
        HaveWidth next ((List.range rows).map fun row =>
          image (input.extract (row * width) (row * width + width))) := by
      intro written member
      obtain ⟨row, below, rfl⟩ := List.mem_map.mp member
      refine sized _ ?_
      have inside : (row + 1) * width ≤ rows * width :=
        Nat.mul_le_mul_right width (List.mem_range.mp below)
      rw [Nat.succ_mul] at inside
      rw [Array.size_extract]
      omega
    have size := images.size_joined
    rw [List.length_map, List.length_range] at size
    exact Nat.le_trans (Nat.le_of_eq size) inRange.2
  · contradiction

theorem size_forward
    {kernel : Kernel}
    {rows width : Nat}
    {input output written : Array Single}
    (ran : kernel.forward rows width input output = .ok written) :
    written.size = output.size := by
  cases kernel with
  | dense matrix =>
      exact size_forwardRows (fun row _ => matrix.size_apply row) ran
  | nearest points =>
      exact size_forwardRows (fun row _ => points.size_apply row) ran
  | l2Norm =>
      exact size_forwardRows (fun row => (size_normalized row).trans) ran
  | relu =>
      rw [← Except.ok.inj ran]
      exact size_forwardEach rectify input output
  | sigmoid =>
      rw [← Except.ok.inj ran]
      exact size_forwardEach logistic input output

/-- A batch that is written over the front of a buffer keeps its size. -/
theorem size_step
    {kernel : Kernel}
    {rows width : Nat}
    {front back written : Array Single}
    (ran : kernel.step rows width front back = .ok written) :
    written.size = back.size := by
  unfold step at ran
  dsimp only at ran
  split at ran
  · rename_i room
    cases forwarded :
        kernel.forward rows width (front.extract 0 (rows * width))
          (back.extract 0 (rows * kernel.outputWidth width)) with
    | error fault =>
        rw [forwarded] at ran
        contradiction
    | ok batch =>
        rw [forwarded] at ran
        have size := size_forward forwarded
        rw [← Except.ok.inj ran, Array.size_append, size, Array.size_extract, Array.size_extract]
        omega
  · contradiction

/-- Any run through kernels keeps the size of both buffers. -/
theorem size_steps
    {kernels : List Kernel}
    {rows width reached capacity : Nat}
    {front back last other : Array Single}
    (frontSize : front.size = capacity)
    (backSize : back.size = capacity)
    (ran : steps rows width front back kernels = .ok (reached, last, other)) :
    last.size = capacity ∧ other.size = capacity := by
  induction kernels generalizing width front back with
  | nil =>
      simp only [steps, Except.ok.injEq, Prod.mk.injEq] at ran
      obtain ⟨_, rfl, rfl⟩ := ran
      exact ⟨frontSize, backSize⟩
  | cons kernel rest inductionHypothesis =>
      rw [steps] at ran
      cases stepped : kernel.step rows width front back with
      | error fault =>
          rw [stepped] at ran
          contradiction
      | ok written =>
          rw [stepped] at ran
          exact inductionHypothesis ((size_step stepped).trans backSize) frontSize ran

end Kernel

namespace Context

/-- A context with the rows of another one, and at least its width. -/
structure Extends (next context : Context) : Prop where
  batch : next.batch = context.batch
  width : context.width ≤ next.width

theorem Extends.refl (context : Context) : context.Extends context :=
  ⟨rfl, Nat.le_refl _⟩

theorem Extends.trans
    {context between next : Context}
    (first : between.Extends context)
    (second : next.Extends between) :
    next.Extends context :=
  ⟨second.batch.trans first.batch, Nat.le_trans first.width second.width⟩

theorem ensureWidth_extends
    (context : Context)
    (width : Nat) :
    (context.ensureWidth width).Extends context := by
  unfold ensureWidth
  split
  · rename_i narrow
    exact ⟨rfl, Nat.le_of_lt narrow⟩
  · exact .refl context

/-- Room in a context stays room. -/
theorem Extends.hasRoom
    {context next : Context}
    {width : Nat}
    (grown : next.Extends context)
    (room : context.hasRoom width) :
    next.hasRoom width := by
  refine decide_eq_true ?_
  rw [grown.batch]
  exact (of_decide_eq_true room).imp_left fun wide => Nat.le_trans wide grown.width

theorem hasRoom_zero (context : Context) :
    context.hasRoom 0 :=
  decide_eq_true (.inl (Nat.zero_le _))

theorem hasRoom_of_le
    {context : Context}
    {width : Nat}
    (within : context.batch * width ≤ capacity) :
    context.hasRoom width :=
  decide_eq_true (.inr within)

theorem batch_widenedFor
    (context : Context)
    (width : Nat) :
    (context.widenedFor width).batch = context.batch := by
  unfold widenedFor
  dsimp only
  split
  · exact (ensureWidth_extends _ width).batch
  · rfl

end Context

namespace Trained

variable {network : Trained} {context next : Context}

theorem runSlice_extends
    {slice : Array Single}
    (ran : network.runSlice context slice = .ok next) :
    next.Extends context := by
  unfold runSlice at ran
  dsimp only at ran
  split at ran
  · contradiction
  · split at ran
    · contradiction
    · split at ran
      · contradiction
      · rw [← Except.ok.inj ran]
        exact ⟨rfl, Nat.le_refl _⟩

theorem runSlices_extends
    {slices : List (Array Single)}
    (ran : network.runSlices context slices = .ok next) :
    next.Extends context := by
  induction slices generalizing context with
  | nil =>
      rw [← Except.ok.inj ran]
      exact .refl context
  | cons slice rest inductionHypothesis =>
      rw [runSlices] at ran
      cases first : network.runSlice context slice with
      | error fault =>
          rw [first] at ran
          contradiction
      | ok between =>
          rw [first] at ran
          exact (runSlice_extends first).trans (inductionHypothesis ran)

/-- No run changes the rows of a context or makes it narrower, whether it succeeds or not. -/
theorem predict_extends
    (network : Trained)
    (context : Context)
    (input : Array Single) :
    (network.predict context input).1.Extends context := by
  have cleared : { context with output := #[] }.Extends context := ⟨rfl, Nat.le_refl _⟩
  have wide := cleared.trans (Context.ensureWidth_extends _ network.maxWidth)
  unfold predict
  dsimp only
  split
  · exact cleared
  · split
    · exact wide
    · split
      · rename_i ran
        exact wide.trans (runSlices_extends ran)
      · exact wide

theorem batch_predictWithin
    (network : Trained)
    (context : Context)
    (input : Array Single) :
    (network.predictWithin context input).1.batch = context.batch := by
  unfold predictWithin
  split
  · exact (network.predict_extends context input).batch
  · exact context.batch_widenedFor network.neededWidth

theorem predictWithin_extends
    (network : Trained)
    (room : context.hasRoom network.neededWidth)
    (input : Array Single) :
    (network.predictWithin context input).1.Extends context := by
  unfold predictWithin
  split
  · exact network.predict_extends context input
  · have cleared : { context with output := #[] }.Extends context := ⟨rfl, Nat.le_refl _⟩
    unfold Context.widenedFor
    dsimp only
    rw [if_pos room]
    exact cleared.trans (Context.ensureWidth_extends _ network.neededWidth)

/-- One slice through any network leaves a valid context. -/
theorem runSlice_valid
    {slice : Array Single}
    (valid : context.Valid)
    (ran : network.runSlice context slice = .ok next) :
    next.Valid := by
  unfold runSlice at ran
  dsimp only at ran
  split at ran
  · contradiction
  · rename_i enters
    have overwritten :
        (Kernel.overwrite slice context.front).size = context.batch * context.width := by
      rw [Kernel.size_overwrite (Nat.not_lt.mp enters), valid.frontSize]
    split at ran
    · contradiction
    · rename_i stepped
      have sizes := Kernel.size_steps overwritten valid.backSize stepped
      split at ran
      · contradiction
      · rw [← Except.ok.inj ran]
        exact ⟨valid.batchPositive, sizes.1, sizes.2⟩

/-- Any slices through any network leave a valid context. -/
theorem runSlices_valid
    {slices : List (Array Single)}
    (valid : context.Valid)
    (ran : network.runSlices context slices = .ok next) :
    next.Valid := by
  induction slices generalizing context with
  | nil =>
      rw [← Except.ok.inj ran]
      exact valid
  | cons slice rest inductionHypothesis =>
      rw [runSlices] at ran
      cases first : network.runSlice context slice with
      | error fault =>
          rw [first] at ran
          contradiction
      | ok between =>
          rw [first] at ran
          exact inductionHypothesis (runSlice_valid valid first) ran

/-- Any run of any network leaves a valid context, whether it succeeds or not. -/
theorem predict_valid
    (network : Trained)
    (input : Array Single)
    (valid : context.Valid) :
    (network.predict context input).1.Valid := by
  have cleared : { context with output := #[] }.Valid :=
    ⟨valid.batchPositive, valid.frontSize, valid.backSize⟩
  have wide := (Context.ensureWidth_valid cleared network.maxWidth).1
  unfold predict
  dsimp only
  split
  · exact cleared
  · split
    · exact wide
    · split
      · rename_i ran
        exact runSlices_valid wide ran
      · exact wide

/-- A run that there is room for leaves a valid context, whether its outputs can be collected. -/
theorem predictWithin_valid
    (input : Array Single)
    (room : context.hasRoom network.neededWidth)
    (valid : context.Valid) :
    (network.predictWithin context input).1.Valid := by
  unfold predictWithin
  split
  · exact network.predict_valid input valid
  · have cleared : { context with output := #[] }.Valid :=
      ⟨valid.batchPositive, valid.frontSize, valid.backSize⟩
    unfold Context.widenedFor
    dsimp only
    rw [if_pos room]
    exact (Context.ensureWidth_valid cleared network.neededWidth).1

end Trained

namespace Context.Reachable

/-- Contexts that callers hold are valid. -/
theorem valid
    {context : Context}
    (reachable : context.Reachable) :
    context.Valid := by
  induction reachable with
  | made =>
      exact valid_make _ _
  | used input room _ inductionHypothesis =>
      exact Trained.predictWithin_valid input room inductionHypothesis

end Context.Reachable

end DpuCycles.Network
