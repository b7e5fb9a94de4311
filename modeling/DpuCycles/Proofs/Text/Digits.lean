import DpuCycles.Text

namespace DpuCycles.Text

/-!
# Numbers as they are written

A number is written with its decimal digits, without a sign and without leading
zeros.  Its written form reads back as the number, and two numbers are never
written alike.
-/

theorem toList_toString (number : Nat) :
    (toString number).toList = Nat.toDigits 10 number := by
  rw [Nat.toString_eq_ofList_toDigits, String.toList_ofList]

theorem isDigit_of_mem_toDigits
    {number : Nat}
    {character : Char}
    (member : character ∈ Nat.toDigits 10 number) :
    isDigit character = true := by
  have digit : character.isDigit = true :=
    Nat.isDigit_of_mem_toDigits (by decide) (by decide) member
  simpa [isDigit, Char.isDigit, Char.le_def] using digit

/-- A written number holds digits only. -/
theorem notMem_toString
    {character : Char}
    (other : isDigit character = false)
    (number : Nat) :
    character ∉ (toString number).toList := by
  rw [toList_toString]
  intro member
  have digit := isDigit_of_mem_toDigits member
  rw [other] at digit
  contradiction

/-- The digits of a number have the value of the number. -/
theorem digitsValue_toDigits (number : Nat) :
    digitsValue (Nat.toDigits 10 number) = number := by
  have value : Nat.ofDigitChars 10 (Nat.toDigits 10 number) 0 = number :=
    Nat.ofDigitChars_ten_toDigits
  rw [Nat.ofDigitChars_eq_foldl] at value
  simpa only [digitsValue, digitValue, Nat.mul_comm 10] using value

/-- Only zero is written with a leading zero. -/
theorem head?_toDigits
    {number : Nat}
    (positive : 0 < number) :
    (Nat.toDigits 10 number).head? ≠ some '0' := by
  induction number using Nat.strongRecOn with
  | ind number inductionHypothesis =>
      by_cases oneDigit : number < 10
      · rw [Nat.toDigits_of_lt_base oneDigit]
        have noZero : ∀ digit < 10, 0 < digit → [digit.digitChar].head? ≠ some '0' := by decide
        exact noZero number oneDigit positive
      · have more : 10 ≤ number := Nat.not_lt.mp oneDigit
        have front := inductionHypothesis (number / 10) (by omega) (by omega)
        rw [Nat.toDigits_of_base_le (by decide) more]
        cases digits : Nat.toDigits 10 (number / 10) with
        | nil =>
            exact absurd digits Nat.toDigits_ne_nil
        | cons digit rest =>
            rwa [digits] at front

/-- A number that is written with a zero in front is written with nothing else. -/
theorem eq_nil_of_toDigits
    {number : Nat}
    {rest : List Char}
    (digits : Nat.toDigits 10 number = '0' :: rest) :
    rest = [] := by
  rcases Nat.eq_zero_or_pos number with rfl | positive
  · exact (List.cons.inj (digits.symm.trans (Nat.toDigits_zero 10))).2
  · refine absurd ?_ (head?_toDigits positive)
    rw [digits, List.head?_cons]

/-- Digits are neither blank nor signs. -/
theorem code_of_isDigit
    {character : Char}
    (digit : isDigit character = true) :
    48 ≤ character.toNat ∧ character.toNat ≤ 57 := by
  simpa [isDigit, Char.le_def, UInt32.le_iff_toNat_le] using digit

theorem isBlank_of_isDigit
    {character : Char}
    (digit : isDigit character = true) :
    isBlank character = false := by
  have code := code_of_isDigit digit
  simp only [isBlank, Bool.or_eq_false_iff, Bool.and_eq_false_iff, decide_eq_false_iff_not,
    beq_eq_false_iff_ne]
  omega

/-- A written number has no blank characters to lose. -/
theorem trim_toString (number : Nat) :
    trim (toString number).toList = (toString number).toList := by
  have keeps : ∀ digits : List Char, (∀ digit ∈ digits, isDigit digit = true) →
      digits.dropWhile isBlank = digits := by
    intro digits areDigits
    cases digits with
    | nil =>
        rfl
    | cons digit rest =>
        rw [List.dropWhile_cons_of_neg]
        simp [isBlank_of_isDigit (areDigits digit List.mem_cons_self)]
  rw [toList_toString, trim, keeps _ fun _ => isDigit_of_mem_toDigits, keeps, List.reverse_reverse]
  intro digit member
  exact isDigit_of_mem_toDigits (List.mem_reverse.mp member)

/-- A written number reads back. -/
theorem unsigned?_toString
    {limit number : Nat}
    (within : number ≤ limit) :
    unsigned? limit (toString number).toList = some number := by
  rw [toList_toString]
  have areDigits : (Nat.toDigits 10 number).all isDigit = true :=
    List.all_eq_true.mpr fun _ => isDigit_of_mem_toDigits
  have unsigned : withoutPlus (Nat.toDigits 10 number) = Nat.toDigits 10 number := by
    cases digits : Nat.toDigits 10 number with
    | nil =>
        rfl
    | cons digit rest =>
        unfold withoutPlus
        split
        · rename_i plus
          obtain ⟨rfl, rfl⟩ := List.cons.inj plus
          have isDigit := isDigit_of_mem_toDigits (digits ▸ List.mem_cons_self)
          contradiction
        · rfl
  simp [unsigned?, unsigned, areDigits, digitsValue_toDigits, Nat.toDigits_ne_nil, within]

theorem toString_inj
    {left right : Nat}
    (same : toString left = toString right) :
    left = right := by
  have digits : Nat.toDigits 10 left = Nat.toDigits 10 right := by
    rw [← toList_toString, ← toList_toString, same]
  rw [← digitsValue_toDigits left, digits, digitsValue_toDigits]

end DpuCycles.Text
