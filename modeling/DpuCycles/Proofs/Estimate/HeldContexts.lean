import DpuCycles.Proofs.Estimate.Batch
import DpuCycles.Proofs.Network.Scratch

namespace DpuCycles

open Network

/-!
# Contexts from everywhere, through every use

A caller gets a context of a size, of a runner or of a model, or a blank one, and has
networks run and models price in it.  A copy of a context is that context, with the
uses it had.  No use changes its rows, so that a context that was made never comes to
be without any, and a blank one never gets one.  Its buffers have exactly its size as
long as they fit at first and can grow to the width that is noted before.
-/

namespace Network

/-- Buffers that have exactly the size of a context. -/
structure Context.Filled (context : Context) : Prop where
  frontSize : context.front.size = context.batch * context.width
  backSize : context.back.size = context.batch * context.width

namespace Context

/-- A context is valid when it is filled and has a row. -/
theorem valid_iff
    {context : Context} :
    context.Valid ↔ 0 < context.batch ∧ context.Filled :=
  ⟨fun valid => ⟨valid.batchPositive, valid.frontSize, valid.backSize⟩,
    fun ⟨rows, filled⟩ => ⟨rows, filled.frontSize, filled.backSize⟩⟩

theorem filled_ensureWidth
    {context : Context}
    (filled : context.Filled)
    (width : Nat) :
    (context.ensureWidth width).Filled := by
  unfold ensureWidth
  split
  · exact ⟨size_resize _ _, size_resize _ _⟩
  · exact filled

end Context

namespace Trained

variable {network : Trained} {context : Context}

/-- Without rows a context is only widened, and a network that is there runs nothing in it. -/
theorem predict_without_rows
    (input : Array Single)
    (empty : context.batch = 0)
    (present : network.isPresent)
    (inputPositive : 0 < network.inputSize) :
    network.predict context input =
      ({ context with output := #[] }.ensureWidth network.maxWidth, .error .emptyBatch) := by
  have runs : (!network.isPresent || network.inputSize == 0) = false := by
    simp [present, Nat.pos_iff_ne_zero.mp inputPositive]
  have rows : ({ context with output := #[] }.ensureWidth network.maxWidth).batch = 0 :=
    (Context.ensureWidth_extends _ network.maxWidth).batch.trans empty
  unfold predict
  simp only [runs, Bool.false_eq_true, if_false, rows, Nat.zero_mul, if_true]

/-- Any run leaves buffers of exactly the size of the context. -/
theorem filled_predict
    (network : Trained)
    (input : Array Single)
    (filled : context.Filled) :
    (network.predict context input).1.Filled := by
  by_cases rows : 0 < context.batch
  · have valid := predict_valid network input (Context.valid_iff.mpr ⟨rows, filled⟩)
    exact (Context.valid_iff.mp valid).2
  · have empty : context.batch = 0 := Nat.eq_zero_of_not_pos rows
    have cleared : { context with output := #[] }.Filled := ⟨filled.frontSize, filled.backSize⟩
    cases absent : (!network.isPresent || network.inputSize == 0) with
    | true =>
        unfold predict
        rw [absent]
        exact cleared
    | false =>
        simp only [Bool.or_eq_false_iff, Bool.not_eq_false', beq_eq_false_iff_ne] at absent
        rw [predict_without_rows input empty absent.1 (Nat.pos_of_ne_zero absent.2)]
        exact Context.filled_ensureWidth cleared network.maxWidth

/-- A run whose buffers can grow leaves them with exactly the size of the context. -/
theorem filled_predictWithin
    (input : Array Single)
    (room : context.hasRoom network.neededWidth)
    (filled : context.Filled) :
    (network.predictWithin context input).1.Filled := by
  unfold predictWithin
  split
  · exact network.filled_predict input filled
  · have cleared : { context with output := #[] }.Filled := ⟨filled.frontSize, filled.backSize⟩
    unfold Context.widenedFor
    dsimp only
    rw [if_pos room]
    exact Context.filled_ensureWidth cleared network.neededWidth

end Trained

end Network

/-- Where callers get a context. -/
inductive ContextOrigin where
  | made (batch width : Nat)
  | blank
  | created (runner : Runner) (batch : Nat)
  | ofRunner (runner : Runner)
  | ofModel (model : CostModel)

namespace ContextOrigin

/-- The context as callers get it. -/
def context : ContextOrigin → Context
  | made batch width => .make batch width
  | blank => .blank
  | created runner batch => runner.createContext batch
  | ofRunner runner => runner.defaultContext
  | ofModel model => model.newContext

/-- Whether buffers of the size of the context can be had. -/
def fits : ContextOrigin → Bool
  | made batch width => Context.fits batch width
  | blank => true
  | created runner batch => runner.hasContext batch
  | ofRunner runner => runner.hasContext runner.batch
  | ofModel model => model.hasContext

/-- The context that callers get, if they get one. -/
def context? (origin : ContextOrigin) : Option Context :=
  if origin.fits then some origin.context else none

/-- Contexts but the blank one are made for at least one row. -/
theorem context_eq_make
    {origin : ContextOrigin}
    (notBlank : origin ≠ .blank) :
    ∃ batch width, origin.context = .make batch width := by
  cases origin with
  | blank => exact absurd rfl notBlank
  | made batch width => exact ⟨batch, width, rfl⟩
  | created runner batch => exact ⟨batch, runner.network.maxWidth, rfl⟩
  | ofRunner runner => exact ⟨runner.batch, runner.network.maxWidth, rfl⟩
  | ofModel model => exact ⟨model.runner.batch, model.runner.network.maxWidth, rfl⟩

theorem batch_pos_iff
    (origin : ContextOrigin) :
    0 < origin.context.batch ↔ origin ≠ .blank := by
  constructor
  · rintro rows rfl
    exact absurd rows (Nat.lt_irrefl 0)
  · intro notBlank
    obtain ⟨batch, width, made⟩ := context_eq_make notBlank
    exact made ▸ (Context.valid_make batch width).batchPositive

theorem context_filled
    (origin : ContextOrigin) :
    origin.context.Filled := by
  by_cases isBlank : origin = .blank
  · subst isBlank
    exact ⟨rfl, rfl⟩
  · obtain ⟨batch, width, made⟩ := context_eq_make isBlank
    exact made ▸ (Context.valid_iff.mp (Context.valid_make batch width)).2

end ContextOrigin

/-- What callers do with a context. -/
inductive ContextUse where
  | predict (network : Trained) (input : Array Single)
  | price (model : CostModel) (workloads : List Workload)

namespace ContextUse

/-- The width that a use takes of a context. -/
def neededWidth : ContextUse → Nat
  | predict network _ => network.neededWidth
  | price model _ => (model.predictor?.map fun predictor => predictor.network.neededWidth).getD 0

/-- The context after a use, whether there was room for it. -/
def leave
    (context : Context) :
    ContextUse → Context
  | predict network input => (network.predictWithin context input).1
  | price model workloads => (model.costsWithin context workloads).1

/-- The context after several uses. -/
def leaveAll
    (context : Context)
    (uses : List ContextUse) : Context :=
  uses.foldl leave context

/-- Whether the buffers of a context can grow for uses one after another. -/
def haveRoom : Context → List ContextUse → Bool
  | _, [] => true
  | context, use :: rest =>
      context.hasRoom use.neededWidth && haveRoom (leave context use) rest

/-- A use of a context leaves it as it is, or as a run of a network leaves it. -/
theorem leave_cases
    (context : Context)
    (use : ContextUse) :
    leave context use = context ∨
      ∃ network input,
        leave context use = (Trained.predictWithin network context input).1 ∧
          network.neededWidth = use.neededWidth := by
  cases use with
  | predict network input =>
      exact .inr ⟨network, input, rfl, rfl⟩
  | price model workloads =>
      obtain ⟨_, same⟩ | ⟨predictor, isPredictor, ran⟩ :=
        model.costsWithin_context context workloads
      · exact .inl same
      · refine .inr ⟨predictor.network, _, ran, ?_⟩
        rw [neededWidth, isPredictor]
        rfl

/-- No use changes the rows of a context. -/
theorem batch_leave
    (context : Context)
    (use : ContextUse) :
    (leave context use).batch = context.batch := by
  obtain same | ⟨network, input, ran, _⟩ := leave_cases context use
  · rw [same]
  · rw [ran, network.batch_predictWithin]

theorem batch_leaveAll
    (context : Context)
    (uses : List ContextUse) :
    (leaveAll context uses).batch = context.batch := by
  induction uses generalizing context with
  | nil =>
      rfl
  | cons use rest inductionHypothesis =>
      exact (inductionHypothesis (leave context use)).trans (batch_leave context use)

/-- A use that has room leaves buffers of exactly the size of the context. -/
theorem filled_leave
    {context : Context}
    {use : ContextUse}
    (filled : context.Filled)
    (room : context.hasRoom use.neededWidth) :
    (leave context use).Filled := by
  obtain same | ⟨network, input, ran, width⟩ := leave_cases context use
  · rw [same]
    exact filled
  · rw [ran]
    exact Trained.filled_predictWithin input (width ▸ room) filled

theorem filled_leaveAll
    {context : Context}
    {uses : List ContextUse}
    (filled : context.Filled)
    (room : haveRoom context uses) :
    (leaveAll context uses).Filled := by
  induction uses generalizing context with
  | nil =>
      exact filled
  | cons use rest inductionHypothesis =>
      rw [haveRoom, Bool.and_eq_true] at room
      exact inductionHypothesis (filled_leave filled room.1) room.2

/--
A context that a caller gets keeps its rows through any uses, and only a blank one has
none.  As long as its buffers can grow for the uses, they have exactly its size.  Then a
loaded network for which there is room, too, runs any number of whole rows in it, unless
it is a blank one, in which no network that is there runs anything.
-/
theorem leaveAll_runs
    {origin : ContextOrigin}
    {start : Context}
    (got : origin.context? = some start)
    (uses : List ContextUse) :
    let context := leaveAll start uses
    (0 < context.batch ↔ origin ≠ .blank) ∧
      (haveRoom start uses →
        context.front.size = context.batch * context.width ∧
          context.back.size = context.batch * context.width ∧
          ∀ bytes network input count,
            Trained.load? bytes = some network →
              input.size = count * network.inputSize →
                network.canPredict context input →
                  (origin ≠ .blank →
                    ∃ output,
                      (network.predictWithin context input).2 = .ok output ∧
                        output.size = count * network.outputSize) ∧
                  (origin = .blank →
                    network ≠ .absent →
                      (network.predictWithin context input).2 = .error .emptyBatch)) := by
  obtain rfl : origin.context = start := by
    unfold ContextOrigin.context? at got
    split at got
    · exact Option.some.inj got
    · contradiction
  intro context
  have rows : 0 < context.batch ↔ origin ≠ .blank := by
    rw [batch_leaveAll]
    exact origin.batch_pos_iff
  refine ⟨rows, fun roomForUses => ?_⟩
  have filled : context.Filled := filled_leaveAll origin.context_filled roomForUses
  refine ⟨filled.frontSize, filled.backSize, ?_⟩
  intro bytes network input count loads sized room
  have loaded : network = .absent ∨ network.Sound := by
    rw [← Trained.ofBytes_of_load? loads]
    exact Trained.ofBytes_absent_or_sound bytes
  constructor
  · intro notBlank
    obtain ⟨output, ran, _, size⟩ := Trained.predictWithin_rows loaded
      (Context.valid_iff.mpr ⟨rows.mpr notBlank, filled⟩) sized room
    exact ⟨output, ran, size⟩
  · intro isBlank present
    have empty : context.batch = 0 :=
      Nat.eq_zero_of_not_pos fun positive => rows.mp positive isBlank
    have sound := loaded.resolve_left present
    have isPresent : network.isPresent := by
      simp [Trained.isPresent, sound.present]
    rw [Trained.predictWithin, if_pos room,
      Trained.predict_without_rows input empty isPresent sound.inputPositive]

/-- A network for rows of one value runs in a narrower context that it ran in before. -/
theorem runs_of_usedContext :
    let network : Trained := ⟨.unnamed, 1, [.relu], 76⟩
    let uses := [.predict network #[.one, .zero], .price .initial []]
    (ContextOrigin.made 1 0).context? = some (.make 1 0) ∧
      haveRoom (.make 1 0) uses ∧
      Trained.load? (Trained.reluBytes "1") = some network ∧
      ∃ output,
        (network.predictWithin (leaveAll (.make 1 0) uses) #[.one, .zero, .one]).2 = .ok output ∧
          output.size = 3 := by
  intro network uses
  have got : (ContextOrigin.made 1 0).context? = some (.make 1 0) := by
    decide
  have loads : Trained.load? (Trained.reluBytes "1") = some network := by
    decide +kernel
  have roomForUses : haveRoom (.make 1 0) uses := by
    have first : (Context.make 1 0).hasRoom network.neededWidth :=
      Context.hasRoom_of_le (by decide)
    have second : (leave (.make 1 0) (.predict network #[.one, .zero])).hasRoom 0 :=
      Context.hasRoom_zero _
    exact Bool.and_eq_true_iff.mpr ⟨first, Bool.and_eq_true_iff.mpr ⟨second, rfl⟩⟩
  have room : network.canPredict (leaveAll (.make 1 0) uses) #[.one, .zero, .one] := by
    have grows : (leaveAll (.make 1 0) uses).hasRoom network.neededWidth := by
      refine Context.hasRoom_of_le ?_
      rw [batch_leaveAll]
      decide
    rw [Trained.canPredict, grows]
    decide
  have notBlank : ContextOrigin.made 1 0 ≠ .blank := by
    simp
  obtain ⟨_, _, runs⟩ := (leaveAll_runs got uses).2 roomForUses
  exact ⟨got, roomForUses, loads, (runs _ network _ 3 loads rfl room).1 notBlank⟩

/-- A context for four rows, after a network ran in it whose rows four times no buffer holds. -/
def overgrown : Context :=
  leaveAll (.make 4 0) [.predict (.ofBytes (Trained.reluBytes "576460752303423488")) #[]]

theorem overgrown_eq : overgrown = ⟨4, 2 ^ 59, #[], #[], #[]⟩ := by
  rw [overgrown, Trained.ofBytes_reluBytes_great]
  decide +kernel

/--
A blank context has no rows, and a network that is there runs nothing in it.  A context
that could not grow has a width but no buffers for it, and then a network for rows of
one value finds no place for its row.
-/
theorem fails_in_blank_and_overgrown :
    (ContextOrigin.blank.context? = some .blank ∧
      Context.blank.batch = 0 ∧
      (Trained.predictWithin (.ofBytes (Trained.reluBytes "1")) .blank #[.one]).2 =
        .error .emptyBatch) ∧
      (ContextOrigin.created (.make .absent 1) 4).context? = some (.make 4 0) ∧
        overgrown.front.size ≠ overgrown.batch * overgrown.width ∧
        (Trained.predictWithin (.ofBytes (Trained.reluBytes "1")) overgrown #[.one]).2 =
          .error .outOfRange := by
  rw [Trained.ofBytes_reluBytes_one, overgrown_eq]
  exact ⟨⟨rfl, rfl, rfl⟩, by decide, by decide, rfl⟩

end ContextUse

end DpuCycles
