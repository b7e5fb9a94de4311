import DpuCycles.Json.Value

namespace DpuCycles.Json

/-!
# Writing JSON

Text is written with the shortest escapes: quote, backslash and the control
characters only.  The compact form has no space at all; the open form puts every
item and member on a line of its own, two spaces deeper than its container.
-/

/-- The digit of a value below sixteen. -/
def hexDigit (value : Nat) : Char :=
  if value < 10 then Char.ofNat ('0'.toNat + value) else Char.ofNat ('a'.toNat + value - 10)

/-- One character as it stands in a text. -/
def escape (character : Char) : List Char :=
  if character == '"' then ['\\', '"']
  else if character == '\\' then ['\\', '\\']
  else if character == '\x08' then ['\\', 'b']
  else if character == '\x0c' then ['\\', 'f']
  else if character == '\n' then ['\\', 'n']
  else if character == '\r' then ['\\', 'r']
  else if character == '\t' then ['\\', 't']
  else if character < ' ' then
    ['\\', 'u', '0', '0', hexDigit (character.toNat / 16), hexDigit (character.toNat % 16)]
  else
    [character]

/-- A text with its quotes. -/
def quoted (text : List Char) : List Char :=
  '"' :: text.flatMap escape ++ ['"']

/-- Digits of a number. -/
def numeral : Numeral → List Char
  | .whole negative magnitude =>
      (if negative then ['-'] else []) ++ (toString magnitude).toList
  | .real negative digits places exponent =>
      (if negative then ['-'] else []) ++ (toString digits).toList ++ 'e' ::
        (toString (exponent - places)).toList

/-- A text value or a key.  Text that denotes nothing is written empty. -/
def quotedOption (text : Option String) : List Char :=
  quoted (text.getD "").toList

mutual

/-- The compact form. -/
def compact : Json → List Char
  | .null => "null".toList
  | .bool true => "true".toList
  | .bool false => "false".toList
  | .number value => numeral value
  | .string text => quotedOption text
  | .array items => '[' :: compactItems items ++ [']']
  | .object members => '\x7b' :: compactMembers members ++ ['\x7d']

/-- The items of an array, separated by commas. -/
def compactItems : List Json → List Char
  | [] => []
  | [item] => compact item
  | item :: next :: rest => compact item ++ ',' :: compactItems (next :: rest)

/-- The members of an object, separated by commas. -/
def compactMembers : List (Option String × Json) → List Char
  | [] => []
  | [(key, value)] => quotedOption key ++ ':' :: compact value
  | (key, value) :: next :: rest =>
      quotedOption key ++ ':' :: compact value ++ ',' :: compactMembers (next :: rest)

end

/-- A line break followed by two spaces for each level. -/
def lineBreak (level : Nat) : List Char :=
  '\n' :: List.replicate (2 * level) ' '

mutual

/-- The open form at a level of nesting. -/
def openForm (level : Nat) : Json → List Char
  | .array [] => "[]".toList
  | .array (item :: items) =>
      '[' :: openItems (level + 1) (item :: items) ++ lineBreak level ++ [']']
  | .object [] => ['\x7b', '\x7d']
  | .object (member :: members) =>
      '\x7b' :: openMembers (level + 1) (member :: members) ++ lineBreak level ++ ['\x7d']
  | scalar => compact scalar

/-- The items of an array, each on its own line. -/
def openItems (level : Nat) : List Json → List Char
  | [] => []
  | [item] => lineBreak level ++ openForm level item
  | item :: next :: rest =>
      lineBreak level ++ openForm level item ++ ',' :: openItems level (next :: rest)

/-- The members of an object, each on its own line. -/
def openMembers (level : Nat) : List (Option String × Json) → List Char
  | [] => []
  | [(key, value)] =>
      lineBreak level ++ quotedOption key ++ ':' :: ' ' :: openForm level value
  | (key, value) :: next :: rest =>
      lineBreak level ++ quotedOption key ++ ':' :: ' ' :: openForm level value ++
        ',' :: openMembers level (next :: rest)

end

/-- The text of a value in the open form. -/
def openText (value : Json) : List Char :=
  openForm 0 value

end DpuCycles.Json
