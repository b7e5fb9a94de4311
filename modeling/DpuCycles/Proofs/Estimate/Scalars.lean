import DpuCycles.Cycles

namespace DpuCycles

/-!
# Costs as scalars

Counts are clamped below the error range and errors with a name have their codes
inside it, so a scalar tells the two apart.  An error without a name carries its
code with it.  It is told from a count when that code lies in the error range, and
from the other errors when none of them has the code.  Reading a scalar makes no
other errors than these, and whatever it makes has the scalar it was read from.
-/

namespace CostError

variable
  {error : CostError}
  {scalar : Nat}

/-- The codes of errors with a name are greater than all counts. -/
theorem limit_lt_code_of_mem_named :
    ∀ error ∈ named, Cycles.limit < error.code := by
  decide

/-- An error that carries its code carries one that is greater than all counts. -/
def InRange (error : CostError) : Prop :=
  ∀ code, error = .other code → Cycles.limit < code

/-- An error that carries its code carries one of the error range that no name stands for. -/
def Canonical (error : CostError) : Prop :=
  ∀ code, error = .other code → Cycles.limit < code ∧ ∀ known ∈ named, known.code ≠ code

theorem Canonical.inRange
    (canonical : error.Canonical) :
    error.InRange :=
  fun code isOther => (canonical code isOther).1

/-- Errors that carry their code are those without a name. -/
theorem eq_other_or_mem_named (error : CostError) :
    (∃ code, error = .other code) ∨ error ∈ named := by
  cases error with
  | other code =>
      exact .inl ⟨code, rfl⟩
  | inputTooBig | invalidInputConfiguration | invalidInputDevice | invalidInputOperation
  | invalidOutputRange | tileOutput | tileSplitZeroCycles | tileSplitException
  | invalidLayerConfiguration =>
      exact .inr (by decide)

theorem canonical_of_mem_named
    (member : error ∈ named) :
    error.Canonical := by
  rintro code rfl
  simp [named] at member

/-- The code of an error is an error code exactly when the error is in range. -/
theorem isError_code_iff :
    Cycles.isError error.code = true ↔ error.InRange := by
  rw [Cycles.isError, decide_eq_true_iff]
  constructor
  · rintro isError code rfl
    exact isError
  · intro inRange
    rcases error.eq_other_or_mem_named with ⟨code, rfl⟩ | member
    · exact inRange code rfl
    · exact limit_lt_code_of_mem_named error member

/-- Errors with a name are read back from their codes, which differ. -/
theorem find?_code_of_mem_named :
    ∀ error ∈ named, (named.find? fun other => other.code == error.code) = some error := by
  decide

/-- A scalar is read as the canonical error that has it for its code. -/
theorem ofCode?_eq_some_iff :
    ofCode? scalar = some error ↔ error.code = scalar ∧ error.Canonical := by
  constructor
  · intro read
    unfold ofCode? at read
    split at read
    · rename_i isError
      obtain rfl := Option.some.inj read
      cases found : named.find? fun error => error.code == scalar with
      | some known =>
          have isCode : known.code = scalar := by
            simpa using List.find?_some found
          exact ⟨isCode, canonical_of_mem_named (List.mem_of_find?_eq_some found)⟩
      | none =>
          refine ⟨rfl, ?_⟩
          rintro code isOther
          obtain rfl := CostError.other.inj isOther
          exact ⟨of_decide_eq_true isError, by simpa using found⟩
    · contradiction
  · rintro ⟨rfl, canonical⟩
    rw [ofCode?, if_pos (isError_code_iff.mpr canonical.inRange)]
    rcases error.eq_other_or_mem_named with ⟨code, rfl⟩ | member
    · have unnamed : (named.find? fun error => error.code == code) = none := by
        simpa using (canonical code rfl).2
      exact congrArg (fun found => some (found.getD (.other code))) unnamed
    · rw [find?_code_of_mem_named error member]
      rfl

end CostError

namespace Cycles

variable {scalar count : Nat}

theorem ofScalar_of_not_isError
    (counts : isError scalar = false) :
    ofScalar scalar = .ok scalar := by
  simp [ofScalar, CostError.ofCode?, counts]

theorem ofScalar_eq_error_iff
    {error : CostError} :
    ofScalar scalar = .error error ↔ error.code = scalar ∧ error.Canonical := by
  rw [← CostError.ofCode?_eq_some_iff, ofScalar]
  cases CostError.ofCode? scalar with
  | none =>
      simp
  | some read =>
      simp

/-- The scalar of what a scalar is read as is the scalar itself. -/
theorem toScalar_ofScalar (scalar : Nat) :
    toScalar (ofScalar scalar) = scalar := by
  cases isCode : isError scalar with
  | false =>
      rw [ofScalar_of_not_isError isCode]
      exact Nat.min_eq_left (Nat.not_lt.mp (of_decide_eq_false isCode))
  | true =>
      cases read : ofScalar scalar with
      | ok count =>
          simp [ofScalar, CostError.ofCode?, isCode] at read
      | error error =>
          exact (ofScalar_eq_error_iff.mp read).1

/-- Counts have no error codes. -/
theorem isError_clamp (count : Nat) :
    isError (clamp count) = false :=
  decide_eq_false (Nat.not_lt.mpr (Nat.min_le_right count limit))

/--
A scalar is an error code exactly when it comes from an error in range, and it is
read back as that error exactly when the error is canonical.  Every scalar is the
one of what it is read as, and counts up to the limit are read back unchanged.
-/
theorem scalars_faithful :
    (∀ cost, isError (toScalar cost) = true ↔ ∃ error, cost = .error error ∧ error.InRange) ∧
      (∀ error, ofScalar (toScalar (.error error)) = .error error ↔ error.Canonical) ∧
      (∀ scalar error,
        CostError.ofCode? scalar = some error ↔ error.code = scalar ∧ error.Canonical) ∧
      (∀ scalar, toScalar (ofScalar scalar) = scalar) ∧
      ∀ count, toScalar (.ok count) = min count limit ∧
        ofScalar (toScalar (.ok count)) = .ok (min count limit) := by
  refine ⟨?_, ?_, fun scalar error => CostError.ofCode?_eq_some_iff, toScalar_ofScalar, ?_⟩
  · intro cost
    cases cost with
    | ok count =>
        simp [toScalar, isError_clamp]
    | error error =>
        simp [toScalar, CostError.isError_code_iff]
  · intro error
    rw [ofScalar_eq_error_iff]
    exact and_iff_right rfl
  · intro count
    exact ⟨rfl, ofScalar_of_not_isError (isError_clamp count)⟩

/--
The scalar of an error whose code is below the error range is read as a count, and
one whose code belongs to a name is read as the error of that name.
-/
theorem scalars_of_otherCodes :
    isError (toScalar (.error (.other 5))) = false ∧
      ofScalar (toScalar (.error (.other 5))) = .ok 5 ∧
      ofScalar (toScalar (.error (.other greatest))) = .error .inputTooBig :=
  ⟨rfl, rfl, rfl⟩

end Cycles

end DpuCycles
