import DpuCycles.Json.Reader
import DpuCycles.Json.Writer
import DpuCycles.Proofs.Text.Digits

namespace DpuCycles.Json

/-!
# Texts and numbers read back

A text is written character by character, and every character is read back as
one element: a control character without a short escape as a code unit, every
other one as itself.  A whole number is read back in front of anything that does
not go on with it.
-/

open Text

/-- The element that a character of a text is read as. -/
def pieceOf (character : Char) : Piece :=
  if character < ' ' ∧ character ∉ ['\x08', '\x0c', '\n', '\r', '\t'] then
    .unit character.toNat
  else
    .plain character

/-- An element in front of those that are read from the rest. -/
def inFront
    (piece : Piece)
    (read : Option (List Piece × List Char)) : Option (List Piece × List Char) :=
  read.map fun (pieces, left) => (piece :: pieces, left)

theorem pieces?_short
    {letter character : Char}
    {rest : List Char}
    (short : escaped? letter = some character) :
    pieces? ('\\' :: letter :: rest) = inFront (.plain character) (pieces? rest) := by
  have otherLetter : letter ≠ 'u' := by
    rintro rfl
    simp [escaped?] at short
  rw [pieces?.eq_4 _ _ fun _ _ _ _ _ isUnit => absurd isUnit otherLetter, short]
  cases pieces? rest <;> rfl

/-- A control character is below 32, so that two of its four digits are zeros. -/
theorem hexUnit?_of_lt :
    ∀ code < 32, hexUnit? '0' '0' (hexDigit (code / 16)) (hexDigit (code % 16)) = some code := by
  decide

theorem pieces?_control
    {character : Char}
    {rest : List Char}
    (control : character < ' ') :
    pieces? (['\\', 'u', '0', '0', hexDigit (character.toNat / 16),
        hexDigit (character.toNat % 16)] ++ rest) =
      inFront (.unit character.toNat) (pieces? rest) := by
  have below : character.toNat < 32 := by
    simpa [Char.lt_def, UInt32.lt_iff_toNat_lt] using control
  simp only [List.cons_append, List.nil_append, pieces?, hexUnit?_of_lt _ below]
  cases pieces? rest <;> rfl

theorem pieces?_plain
    {character : Char}
    {rest : List Char}
    (noQuote : character ≠ '"')
    (noBackslash : character ≠ '\\')
    (printable : ¬character < ' ') :
    pieces? (character :: rest) = inFront (.plain character) (pieces? rest) := by
  rw [pieces?.eq_5 _ _ noQuote (fun _ _ _ _ _ backslash => absurd backslash noBackslash)
    fun _ _ backslash => absurd backslash noBackslash]
  rw [if_neg (by simpa [noBackslash] using printable)]
  cases pieces? rest <;> rfl

/-- A written character is one element. -/
theorem pieces?_escape
    (character : Char)
    (rest : List Char) :
    pieces? (escape character ++ rest) = inFront (pieceOf character) (pieces? rest) := by
  fun_cases escape character
  case case8 =>
    rename_i control
    rw [pieces?_control control, pieceOf, if_pos (by simp_all)]
  case case9 =>
    rename_i printable
    rw [pieceOf, if_neg fun control => printable control.1]
    exact pieces?_plain (by simp_all) (by simp_all) printable
  -- the characters with a short escape
  all_goals
    rename_i short
    rw [eq_of_beq short]
    exact pieces?_short rfl

theorem pieces?_flatMap_escape
    (text rest : List Char) :
    pieces? (text.flatMap escape ++ '"' :: rest) = some (text.map pieceOf, rest) := by
  induction text with
  | nil =>
      rfl
  | cons character text inductionHypothesis =>
      rw [List.flatMap_cons, List.append_assoc, pieces?_escape, inductionHypothesis]
      rfl

theorem assemble?_unit
    {code : Nat}
    {rest : List Piece}
    (below : code < 0xd800) :
    assemble? (.unit code :: rest) = (assemble? rest).map (Char.ofNat code :: ·) := by
  have noHigh : isHighSurrogate code = false := by
    simp [isHighSurrogate]
    omega
  have noLow : isLowSurrogate code = false := by
    simp [isLowSurrogate]
    omega
  cases rest with
  | nil =>
      simp [assemble?, noHigh, noLow]
  | cons next rest =>
      cases next <;> simp [assemble?, noHigh, noLow]

theorem assemble?_map_pieceOf (text : List Char) :
    assemble? (text.map pieceOf) = some text := by
  induction text with
  | nil =>
      rfl
  | cons character text inductionHypothesis =>
      rw [List.map_cons, pieceOf]
      split
      · rename_i control
        have below : character.toNat < 32 := by
          simpa [Char.lt_def, UInt32.lt_iff_toNat_lt] using control.1
        rw [assemble?_unit (by omega), inductionHypothesis, Option.map_some, Char.ofNat_toNat]
      · rw [assemble?, inductionHypothesis, Option.map_some]

/-- A written text reads back up to its closing quote. -/
theorem readText_flatMap_escape
    (text : String)
    (rest : List Char) :
    readText (text.toList.flatMap escape ++ '"' :: rest) = some (some text, rest) := by
  simp only [readText, pieces?_flatMap_escape, Option.map_some, assemble?_map_pieceOf,
    String.ofList_toList]

/-- Characters that do not go on with a whole number. -/
def EndsNumber (rest : List Char) : Prop :=
  ∀ character ∈ rest.head?, isDigit character = false ∧ character ≠ '.' ∧
    character ≠ 'e' ∧ character ≠ 'E'

theorem readDigits_append
    {digits rest : List Char}
    (some : digits ≠ [])
    (areDigits : ∀ digit ∈ digits, isDigit digit = true)
    (ends : EndsNumber rest) :
    readDigits (digits ++ rest) = .some (digits, rest) := by
  have noMore : rest.takeWhile isDigit = [] ∧ rest.dropWhile isDigit = rest := by
    cases rest with
    | nil =>
        exact ⟨rfl, rfl⟩
    | cons character rest =>
        have noDigit := (ends character rfl).1
        simp [noDigit]
  rw [readDigits, List.takeWhile_append_of_pos areDigits, List.dropWhile_append_of_pos areDigits,
    noMore.1, noMore.2, List.append_nil]
  cases digits with
  | nil =>
      exact absurd rfl some
  | cons digit digits =>
      rfl

theorem readMagnitude_toString
    {negative : Bool}
    {magnitude : Nat}
    {rest : List Char}
    (ends : EndsNumber rest) :
    readMagnitude negative ((toString magnitude).toList ++ rest) =
      some (.whole negative magnitude, rest) := by
  have areDigits : ∀ digit ∈ Nat.toDigits 10 magnitude, isDigit digit = true :=
    fun _ => isDigit_of_mem_toDigits
  have digits := readDigits_append Nat.toDigits_ne_nil areDigits ends
  have whole : readWhole (Nat.toDigits 10 magnitude ++ rest) =
      some (Nat.toDigits 10 magnitude, rest) := by
    rw [readWhole, digits]
    split
    · rename_i leadingZero
      have written := (Prod.mk.inj (Option.some.inj leadingZero)).1
      exact absurd (eq_nil_of_toDigits written) (List.cons_ne_nil _ _)
    · rfl
  have noFraction : readFraction rest = some (none, rest) := by
    unfold readFraction
    split
    · exact absurd rfl (ends '.' rfl).2.1
    · rfl
  have noExponent : readExponent rest = some (none, rest) := by
    unfold readExponent
    split
    · exact absurd rfl (ends 'e' rfl).2.2.1
    · exact absurd rfl (ends 'E' rfl).2.2.2
    · rfl
  simp only [readMagnitude, toList_toString, whole, Option.bind_some, noFraction, noExponent,
    Option.map_some, digitsValue_toDigits]

/-- A written whole number reads back in front of what does not go on with it. -/
theorem readNumeral_whole
    {negative : Bool}
    {magnitude : Nat}
    {rest : List Char}
    (ends : EndsNumber rest) :
    readNumeral (numeral (.whole negative magnitude) ++ rest) =
      some (.whole negative magnitude, rest) := by
  cases negative with
  | true =>
      exact readMagnitude_toString ends
  | false =>
      have noSign : ∀ left, (toString magnitude).toList ++ rest ≠ '-' :: left := by
        intro left sign
        cases digits : Nat.toDigits 10 magnitude with
        | nil =>
            exact Nat.toDigits_ne_nil digits
        | cons digit others =>
            rw [toList_toString, digits] at sign
            have digitIsSign := (List.cons.inj sign).1
            have isDigit := isDigit_of_mem_toDigits (digits ▸ List.mem_cons_self)
            rw [digitIsSign] at isDigit
            contradiction
      simp only [numeral, Bool.false_eq_true, if_false, List.nil_append]
      rw [readNumeral.eq_2 _ noSign]
      exact readMagnitude_toString ends

end DpuCycles.Json
