import DpuCycles.Json.Value
import DpuCycles.Text

namespace DpuCycles.Json

/-!
# Reading JSON

Every reader takes the characters that are left and returns what it read with
the characters after it.  The readers of values are bounded by the number of
characters, since each step inside a value uses one up.
-/

open Text

/-- The four characters that may stand between tokens. -/
def isSpace (character : Char) : Bool :=
  character == ' ' || character == '\t' || character == '\n' || character == '\r'

/-- What is left after the space at the front. -/
def skipSpace (text : List Char) : List Char :=
  text.dropWhile isSpace

/-- Value of a hexadecimal digit. -/
def hexDigit? (character : Char) : Option Nat :=
  if isDigit character then
    some (digitValue character)
  else if 'a' ≤ character && character ≤ 'f' then
    some (character.toNat - 'a'.toNat + 10)
  else if 'A' ≤ character && character ≤ 'F' then
    some (character.toNat - 'A'.toNat + 10)
  else
    none

/-- Value of four hexadecimal digits. -/
def hexUnit?
    (a b c d : Char) : Option Nat :=
  match hexDigit? a, hexDigit? b, hexDigit? c, hexDigit? d with
  | some a, some b, some c, some d => some (((a * 16 + b) * 16 + c) * 16 + d)
  | _, _, _, _ => none

/-- One written element of a text. -/
inductive Piece where
  | plain (character : Char)
  /-- A code unit of sixteen bits, written by its number. -/
  | unit (code : Nat)
  deriving Repr, DecidableEq

/-- The character a short escape names. -/
def escaped? : Char → Option Char
  | '"' => some '"'
  | '\\' => some '\\'
  | '/' => some '/'
  | 'b' => some '\x08'
  | 'f' => some '\x0c'
  | 'n' => some '\n'
  | 'r' => some '\r'
  | 't' => some '\t'
  | _ => none

/-- The elements of a text up to its closing quote. -/
def pieces? : List Char → Option (List Piece × List Char)
  | [] => none
  | '"' :: rest => some ([], rest)
  | '\\' :: 'u' :: a :: b :: c :: d :: rest =>
      match hexUnit? a b c d, pieces? rest with
      | some code, some (pieces, left) => some (.unit code :: pieces, left)
      | _, _ => none
  | '\\' :: letter :: rest =>
      match escaped? letter, pieces? rest with
      | some character, some (pieces, left) => some (.plain character :: pieces, left)
      | _, _ => none
  | character :: rest =>
      if character == '\\' || character < ' ' then
        none
      else
        match pieces? rest with
        | some (pieces, left) => some (.plain character :: pieces, left)
        | none => none

/-- Whether a code unit opens a surrogate pair. -/
def isHighSurrogate (code : Nat) : Bool :=
  0xd800 ≤ code && code < 0xdc00

/-- Whether a code unit closes a surrogate pair. -/
def isLowSurrogate (code : Nat) : Bool :=
  0xdc00 ≤ code && code < 0xe000

/-- The characters the elements denote, `none` when half of a surrogate pair stands alone. -/
def assemble? : List Piece → Option (List Char)
  | [] => some []
  | .plain character :: rest => (assemble? rest).map (character :: ·)
  | .unit high :: .unit low :: rest =>
      if isHighSurrogate high then
        if isLowSurrogate low then
          let code := 0x10000 + (high - 0xd800) * 0x400 + (low - 0xdc00)
          (assemble? rest).map (Char.ofNat code :: ·)
        else
          none
      else if isLowSurrogate high then
        none
      else
        (assemble? (.unit low :: rest)).map (Char.ofNat high :: ·)
  | .unit code :: rest =>
      if isHighSurrogate code || isLowSurrogate code then
        none
      else
        (assemble? rest).map (Char.ofNat code :: ·)

/-- A text after its opening quote. -/
def readText (text : List Char) : Option (Option String × List Char) :=
  (pieces? text).map fun (pieces, left) => ((assemble? pieces).map String.ofList, left)

/-- The digits at the front, at least one. -/
def readDigits (text : List Char) : Option (List Char × List Char) :=
  match text.takeWhile isDigit with
  | [] => none
  | digits => some (digits, text.dropWhile isDigit)

/-- The digits before the point: a single zero, or digits that do not start with one. -/
def readWhole (text : List Char) : Option (List Char × List Char) :=
  match readDigits text with
  | some ('0' :: _ :: _, _) => none
  | read => read

/-- The digits of a fraction, none when there is no point. -/
def readFraction : List Char → Option (Option (List Char) × List Char)
  | '.' :: rest => (readDigits rest).map fun (digits, left) => (some digits, left)
  | text => some (none, text)

/-- The digits of an exponent with its sign. -/
def readSigned : List Char → Option (Int × List Char)
  | '-' :: rest =>
      (readDigits rest).map fun (digits, left) => (-(digitsValue digits : Int), left)
  | '+' :: rest =>
      (readDigits rest).map fun (digits, left) => ((digitsValue digits : Int), left)
  | text =>
      (readDigits text).map fun (digits, left) => ((digitsValue digits : Int), left)

/-- An exponent, none when there is no mark of one. -/
def readExponent : List Char → Option (Option Int × List Char)
  | 'e' :: rest => (readSigned rest).map fun (exponent, left) => (some exponent, left)
  | 'E' :: rest => (readSigned rest).map fun (exponent, left) => (some exponent, left)
  | text => some (none, text)

/-- A number after its sign. -/
def readMagnitude
    (negative : Bool)
    (text : List Char) : Option (Numeral × List Char) :=
  (readWhole text).bind fun (digits, afterWhole) =>
    (readFraction afterWhole).bind fun (fraction?, afterFraction) =>
      (readExponent afterFraction).map fun (exponent?, left) =>
        match fraction?, exponent? with
        | none, none => (.whole negative (digitsValue digits), left)
        | _, _ =>
            let fraction := fraction?.getD []
            let digits := digitsValue (digits ++ fraction)
            (.real negative digits fraction.length (exponent?.getD 0), left)

/-- A number. -/
def readNumeral : List Char → Option (Numeral × List Char)
  | '-' :: rest => readMagnitude true rest
  | text => readMagnitude false text

mutual

/-- A value at the front of a text without leading space. -/
def readValue : Nat → List Char → Option (Json × List Char)
  | 0, _ => none
  | fuel + 1, text =>
      match text with
      | 'n' :: 'u' :: 'l' :: 'l' :: rest => some (.null, rest)
      | 't' :: 'r' :: 'u' :: 'e' :: rest => some (.bool true, rest)
      | 'f' :: 'a' :: 'l' :: 's' :: 'e' :: rest => some (.bool false, rest)
      | '"' :: rest => (readText rest).map fun (value, left) => (.string value, left)
      | '[' :: rest =>
          match skipSpace rest with
          | ']' :: left => some (.array [], left)
          | inner => (readItems fuel inner).map fun (items, left) => (.array items, left)
      | '\x7b' :: rest =>
          match skipSpace rest with
          | '\x7d' :: left => some (.object [], left)
          | inner => (readMembers fuel inner).map fun (members, left) => (.object members, left)
      | other => (readNumeral other).map fun (value, left) => (.number value, left)

/-- The items of an array up to its closing bracket. -/
def readItems : Nat → List Char → Option (List Json × List Char)
  | 0, _ => none
  | fuel + 1, text =>
      match readValue fuel text with
      | none => none
      | some (value, left) =>
          match skipSpace left with
          | ']' :: rest => some ([value], rest)
          | ',' :: rest =>
              (readItems fuel (skipSpace rest)).map fun (items, last) => (value :: items, last)
          | _ => none

/-- The members of an object up to its closing brace. -/
def readMembers : Nat → List Char → Option (List (Option String × Json) × List Char)
  | 0, _ => none
  | fuel + 1, text =>
      match text with
      | '"' :: opened =>
          match readText opened with
          | none => none
          | some (key, afterKey) =>
              match skipSpace afterKey with
              | ':' :: afterColon =>
                  match readValue fuel (skipSpace afterColon) with
                  | none => none
                  | some (value, left) =>
                      match skipSpace left with
                      | '\x7d' :: rest => some ([(key, value)], rest)
                      | ',' :: rest =>
                          (readMembers fuel (skipSpace rest)).map fun (members, last) =>
                            ((key, value) :: members, last)
                      | _ => none
              | _ => none
      | _ => none

end

/-- The value a whole text writes. -/
def read? (text : List Char) : Option Json :=
  match readValue (text.length + 1) (skipSpace text) with
  | some (value, left) => if (skipSpace left).isEmpty then some value else none
  | none => none

end DpuCycles.Json
