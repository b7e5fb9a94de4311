import DpuCycles.Proofs.Json.Tokens

namespace DpuCycles.Json

/-!
# Values read back

The compact form of a value reads back as the value, in front of anything that
does not go on with a number.  Items and members take less room than the value
around them, so a reader that is given as many steps as there are characters
never runs out of them.
-/

open Text

/-- Values whose numbers are whole and whose texts denote characters. -/
inductive Faithful : Json → Prop where
  | null : Faithful .null
  | bool (value : Bool) : Faithful (.bool value)
  | whole (negative : Bool) (magnitude : Nat) : Faithful (.number (.whole negative magnitude))
  | text (text : String) : Faithful (.ofString text)
  | array (items : List Json) (faithful : ∀ item ∈ items, Faithful item) :
      Faithful (.array items)
  | object (members : List (String × Json)) (faithful : ∀ member ∈ members, Faithful member.2) :
      Faithful (.ofMembers members)

/-- A value reads back from its compact form. -/
def ReadsBack (value : Json) : Prop :=
  ∀ (fuel : Nat) (rest : List Char),
    (compact value).length < fuel →
      EndsNumber rest →
        readValue fuel (compact value ++ rest) = some (value, rest)

theorem endsNumber_cons
    {character : Char}
    (rest : List Char)
    (other : isDigit character = false ∧ character ≠ '.' ∧ character ≠ 'e' ∧ character ≠ 'E') :
    EndsNumber (character :: rest) := by
  intro first isFirst
  cases isFirst
  exact other

/-- Texts that start with neither space nor a closing bracket. -/
def StartsValue (text : List Char) : Prop :=
  ∃ first rest, text = first :: rest ∧ isSpace first = false ∧ first ≠ ']'

theorem StartsValue.append
    {text : List Char}
    (starts : StartsValue text)
    (rest : List Char) :
    StartsValue (text ++ rest) := by
  obtain ⟨first, others, rfl, noSpace, noBracket⟩ := starts
  exact ⟨first, others ++ rest, rfl, noSpace, noBracket⟩

theorem StartsValue.skipSpace
    {text : List Char}
    (starts : StartsValue text) :
    skipSpace text = text := by
  obtain ⟨first, others, rfl, noSpace, -⟩ := starts
  rw [Json.skipSpace, List.dropWhile_cons_of_neg]
  simp [noSpace]

/-- A number starts with its sign or with a digit. -/
theorem numeral_front (value : Numeral) :
    ∃ first rest, numeral value = first :: rest ∧ (first = '-' ∨ isDigit first = true) := by
  have unsigned : ∀ (number : Nat) (rest : List Char), ∃ first others,
      (toString number).toList ++ rest = first :: others ∧ isDigit first = true := by
    intro number rest
    rw [toList_toString]
    cases digits : Nat.toDigits 10 number with
    | nil =>
        exact absurd digits Nat.toDigits_ne_nil
    | cons digit others =>
        exact ⟨digit, others ++ rest, rfl, isDigit_of_mem_toDigits (digits ▸ List.mem_cons_self)⟩
  cases value with
  | whole negative magnitude =>
      cases negative with
      | true =>
          exact ⟨'-', _, rfl, .inl rfl⟩
      | false =>
          obtain ⟨first, others, digits, isDigit⟩ := unsigned magnitude []
          exact ⟨first, others, by simpa [numeral] using digits, .inr isDigit⟩
  | real negative digits places exponent =>
      cases negative with
      | true =>
          exact ⟨'-', _, rfl, .inl rfl⟩
      | false =>
          obtain ⟨first, others, digits, isDigit⟩ :=
            unsigned digits ('e' :: (toString (exponent - places)).toList)
          exact ⟨first, others, by simpa [numeral] using digits, .inr isDigit⟩

theorem startsValue_compact (value : Json) :
    StartsValue (compact value) := by
  cases value with
  | null =>
      exact ⟨'n', _, rfl, by decide, by decide⟩
  | bool value =>
      cases value
      · exact ⟨'f', _, rfl, by decide, by decide⟩
      · exact ⟨'t', _, rfl, by decide, by decide⟩
  | number value =>
      obtain ⟨first, rest, written, front⟩ := numeral_front value
      refine ⟨first, rest, by rw [compact, written], ?_⟩
      rcases front with rfl | digit
      · decide
      · have code := code_of_isDigit digit
        simp only [isSpace, Bool.or_eq_false_iff, beq_eq_false_iff_ne]
        refine ⟨⟨⟨⟨?_, ?_⟩, ?_⟩, ?_⟩, ?_⟩ <;> rintro rfl <;> simp at code
  | string text =>
      exact ⟨'"', _, by rw [compact, quotedOption, quoted]; rfl, by decide, by decide⟩
  | array items =>
      exact ⟨'[', _, by rw [compact]; rfl, by decide, by decide⟩
  | object members =>
      exact ⟨'\x7b', _, by rw [compact]; rfl, by decide, by decide⟩

theorem startsValue_compactItems
    {items : List Json}
    (some : items ≠ []) :
    StartsValue (compactItems items) := by
  match items with
  | [] =>
      exact absurd rfl some
  | [item] =>
      rw [compactItems]
      exact startsValue_compact item
  | item :: next :: rest =>
      rw [compactItems]
      exact (startsValue_compact item).append _

theorem readValue_numeral
    {fuel : Nat}
    {text : List Char}
    (front : ∃ first rest, text = first :: rest ∧ (first = '-' ∨ isDigit first = true)) :
    readValue (fuel + 1) text =
      (readNumeral text).map fun (value, left) => (.number value, left) := by
  obtain ⟨first, rest, rfl, front⟩ := front
  unfold readValue
  split
  any_goals
    rename_i letter
    rw [(List.cons.inj letter).1] at front
    exact absurd front (by decide)
  rfl

/-- A quoted text without its opening quote. -/
theorem quoted_append
    (text rest : List Char) :
    quoted text ++ rest = '"' :: (text.flatMap escape ++ '"' :: rest) := by
  simp [quoted]

/-- Items read back up to the closing bracket when each of them reads back. -/
theorem readItems_compactItems
    {items : List Json}
    {fuel : Nat}
    {rest : List Char}
    (some : items ≠ [])
    (readBack : ∀ item ∈ items, ReadsBack item)
    (enough : (compactItems items).length + 1 < fuel) :
    readItems fuel (compactItems items ++ ']' :: rest) = .some (items, rest) := by
  induction items generalizing fuel with
  | nil =>
      exact absurd rfl some
  | cons item items inductionHypothesis =>
      obtain ⟨fuel, rfl⟩ : ∃ less, fuel = less + 1 := ⟨fuel - 1, by omega⟩
      have first := readBack item List.mem_cons_self
      -- one step goes into the item, and the separator pays for the step to the next one
      cases items with
      | nil =>
          rw [compactItems] at enough ⊢
          have value := first fuel (']' :: rest) (by omega) (endsNumber_cons rest (by decide))
          simp only [readItems, value]
          rfl
      | cons next items =>
          rw [compactItems, List.length_append, List.length_cons] at enough
          rw [compactItems, List.append_assoc, List.cons_append]
          have value := first fuel (',' :: (compactItems (next :: items) ++ ']' :: rest))
            (by omega) (endsNumber_cons _ (by decide))
          have starts : StartsValue (compactItems (next :: items)) :=
            startsValue_compactItems (List.cons_ne_nil _ _)
          have others : readItems fuel (compactItems (next :: items) ++ ']' :: rest) =
              .some (next :: items, rest) :=
            inductionHypothesis (List.cons_ne_nil _ _)
              (fun other member => readBack other (List.mem_cons_of_mem _ member)) (by omega)
          have separator : ∀ left, skipSpace (',' :: left) = ',' :: left := fun _ => rfl
          simp only [readItems, value, separator, (starts.append _).skipSpace, others,
            Option.map_some]

/-- Members whose keys denote text. -/
def known (members : List (String × Json)) : List (Option String × Json) :=
  members.map fun member => (some member.1, member.2)

/-- Members start with the quote of a key. -/
theorem skipSpace_compactMembers
    {members : List (String × Json)}
    (some : members ≠ [])
    (rest : List Char) :
    skipSpace (compactMembers (known members) ++ rest) =
      compactMembers (known members) ++ rest := by
  match members with
  | [] =>
      exact absurd rfl some
  | [member] =>
      rfl
  | member :: next :: others =>
      rfl

/-- Members read back up to the closing brace when each of their values reads back. -/
theorem readMembers_compactMembers
    {members : List (String × Json)}
    {fuel : Nat}
    {rest : List Char}
    (some : members ≠ [])
    (readBack : ∀ member ∈ members, ReadsBack member.2)
    (enough : (compactMembers (known members)).length + 1 < fuel) :
    readMembers fuel (compactMembers (known members) ++ '\x7d' :: rest) =
      .some (known members, rest) := by
  induction members generalizing fuel with
  | nil =>
      exact absurd rfl some
  | cons member members inductionHypothesis =>
      obtain ⟨key, value⟩ := member
      obtain ⟨fuel, rfl⟩ : ∃ less, fuel = less + 1 := ⟨fuel - 1, by omega⟩
      have first : ReadsBack value := readBack (key, value) List.mem_cons_self
      have starts := startsValue_compact value
      have colon : ∀ left, skipSpace (':' :: left) = ':' :: left := fun _ => rfl
      cases members with
      | nil =>
          simp only [known, List.map_cons, List.map_nil, compactMembers, List.length_append,
            List.length_cons] at enough
          have read := first fuel ('\x7d' :: rest) (by omega) (endsNumber_cons rest (by decide))
          simp only [known, List.map_cons, List.map_nil, compactMembers, List.append_assoc,
            List.cons_append]
          rw [quotedOption, Option.getD_some, quoted_append, readMembers]
          simp only [readText_flatMap_escape, colon, (starts.append _).skipSpace, read]
          rfl
      | cons next members =>
          have shape : compactMembers (known ((key, value) :: next :: members)) =
              quotedOption (.some key) ++ ':' :: compact value ++
                ',' :: compactMembers (known (next :: members)) := rfl
          simp only [shape, List.length_append, List.length_cons] at enough
          have read := first fuel (',' :: (compactMembers (known (next :: members)) ++
            '\x7d' :: rest)) (by omega) (endsNumber_cons _ (by decide))
          have others :
              readMembers fuel (compactMembers (known (next :: members)) ++ '\x7d' :: rest) =
                .some (known (next :: members), rest) :=
            inductionHypothesis (List.cons_ne_nil _ _)
              (fun other member => readBack other (List.mem_cons_of_mem _ member)) (by omega)
          have comma : ∀ left, skipSpace (',' :: left) = ',' :: left := fun _ => rfl
          simp only [shape, List.append_assoc, List.cons_append]
          rw [quotedOption, Option.getD_some, quoted_append, readMembers]
          simp only [readText_flatMap_escape, colon, (starts.append _).skipSpace, read, comma,
            skipSpace_compactMembers (List.cons_ne_nil next members), others, Option.map_some]
          rfl

/-- An array reads back when its items do. -/
theorem ReadsBack.array
    {items : List Json}
    (readBack : ∀ item ∈ items, ReadsBack item) :
    ReadsBack (.array items) := by
  intro fuel rest enough _
  obtain ⟨fuel, rfl⟩ : ∃ less, fuel = less + 1 := ⟨fuel - 1, by omega⟩
  cases items with
  | nil =>
      rfl
  | cons item items =>
      simp only [compact, List.length_append, List.length_cons] at enough
      have starts := startsValue_compactItems (List.cons_ne_nil item items)
      have inner : readItems fuel (compactItems (item :: items) ++ ']' :: rest) =
          some (item :: items, rest) :=
        readItems_compactItems (List.cons_ne_nil item items) readBack (by simp at enough; omega)
      simp only [compact, List.append_assoc, List.cons_append, List.nil_append, readValue,
        (starts.append _).skipSpace]
      obtain ⟨first, others, written, -, noBracket⟩ := starts
      rw [written, List.cons_append] at inner ⊢
      split
      · rename_i bracket
        exact absurd (List.cons.inj bracket).1 noBracket
      · rw [inner]
        rfl

/-- An object reads back when its values do. -/
theorem ReadsBack.object
    {members : List (String × Json)}
    (readBack : ∀ member ∈ members, ReadsBack member.2) :
    ReadsBack (.ofMembers members) := by
  intro fuel rest enough _
  obtain ⟨fuel, rfl⟩ : ∃ less, fuel = less + 1 := ⟨fuel - 1, by omega⟩
  have shape : Json.ofMembers members = .object (known members) := rfl
  rw [shape] at enough ⊢
  cases members with
  | nil =>
      rfl
  | cons member members =>
      simp only [compact, List.length_append, List.length_cons] at enough
      have inner :
          readMembers fuel (compactMembers (known (member :: members)) ++ '\x7d' :: rest) =
            some (known (member :: members), rest) :=
        readMembers_compactMembers (List.cons_ne_nil member members) readBack
          (by simp at enough; omega)
      simp only [compact, List.append_assoc, List.cons_append, List.nil_append, readValue,
        skipSpace_compactMembers (List.cons_ne_nil member members)]
      split
      · rename_i brace
        cases members <;> exact absurd (List.cons.inj brace).1 (by decide)
      · rw [inner]
        rfl

/-- Every faithful value reads back. -/
theorem Faithful.readsBack
    {value : Json}
    (faithful : Faithful value) :
    ReadsBack value := by
  induction faithful with
  | array items _ readBack =>
      exact .array readBack
  | object members _ readBack =>
      exact .object readBack
  | whole negative magnitude =>
      intro fuel rest enough ends
      obtain ⟨fuel, rfl⟩ : ∃ less, fuel = less + 1 := ⟨fuel - 1, by omega⟩
      obtain ⟨first, others, written, front⟩ := numeral_front (.whole negative magnitude)
      rw [compact, readValue_numeral ⟨first, others ++ rest, by rw [written]; rfl, front⟩,
        readNumeral_whole ends]
      rfl
  | text text =>
      intro fuel rest enough _
      obtain ⟨fuel, rfl⟩ : ∃ less, fuel = less + 1 := ⟨fuel - 1, by omega⟩
      rw [ofString, compact, quotedOption, Option.getD_some, quoted_append]
      simp only [readValue, readText_flatMap_escape, Option.map_some]
  | null =>
      intro fuel rest enough _
      obtain ⟨fuel, rfl⟩ : ∃ less, fuel = less + 1 := ⟨fuel - 1, by omega⟩
      rfl
  | bool value =>
      intro fuel rest enough _
      obtain ⟨fuel, rfl⟩ : ∃ less, fuel = less + 1 := ⟨fuel - 1, by omega⟩
      cases value <;> rfl

/-- The compact form of a faithful value reads back, with any space behind it. -/
theorem Faithful.read?_compact
    {value : Json}
    {space : List Char}
    (faithful : Faithful value)
    (isSpaces : ∀ character ∈ space, isSpace character = true) :
    read? (compact value ++ space) = some value := by
  have ends : EndsNumber space := by
    intro first isFirst
    have noLetter := isSpaces first (List.mem_of_mem_head? isFirst)
    simp only [isSpace, Bool.or_eq_true, beq_iff_eq] at noLetter
    rcases noLetter with ((rfl | rfl) | rfl) | rfl <;> decide
  have nothing : skipSpace space = [] := by
    rw [skipSpace, ← List.append_nil space, List.dropWhile_append_of_pos isSpaces,
      List.dropWhile_nil]
  have read := faithful.readsBack ((compact value ++ space).length + 1) space
    (by simp only [List.length_append]; omega) ends
  rw [read?, ((startsValue_compact value).append space).skipSpace, read]
  simp only [nothing, List.isEmpty_nil, if_true]

end DpuCycles.Json
