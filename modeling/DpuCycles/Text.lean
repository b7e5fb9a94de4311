import DpuCycles.Number.Multiple

namespace DpuCycles.Text

/-!
# Texts

An unsigned number is written with the ten ASCII digits, leading zeros allowed, and
may carry one plus sign.  White space is that of any script.
-/

/-- Whether a character is an ASCII digit. -/
def isDigit (character : Char) : Bool :=
  '0' ≤ character && character ≤ '9'

/-- Value of an ASCII digit. -/
def digitValue (character : Char) : Nat :=
  character.toNat - '0'.toNat

/-- Value of a run of digits, the most significant one first. -/
def digitsValue (digits : List Char) : Nat :=
  digits.foldl (fun value digit => value * 10 + digitValue digit) 0

/-- A text without one leading plus sign. -/
def withoutPlus : List Char → List Char
  | '+' :: rest => rest
  | text => text

/-- The number a text writes, if it is at most `limit`. -/
def unsigned?
    (limit : Nat)
    (text : List Char) : Option Nat :=
  let digits := withoutPlus text
  if digits.isEmpty || !digits.all isDigit || decide (limit < digitsValue digits) then
    none
  else
    some (digitsValue digits)

/-- The greatest number of 32 bits. -/
def greatest32 : Nat := 2 ^ 32 - 1

/-- The greatest number of 64 bits. -/
def greatest64 : Nat := 2 ^ 64 - 1

/-- Characters that stand for white space in any script. -/
def isBlank (character : Char) : Bool :=
  let code := character.toNat
  (9 ≤ code && code ≤ 13) || code == 0x20 || code == 0x85 || code == 0xa0 || code == 0x1680 ||
    (0x2000 ≤ code && code ≤ 0x200a) || code == 0x2028 || code == 0x2029 || code == 0x202f ||
    code == 0x205f || code == 0x3000

/-- A text without the blank characters at its ends. -/
def trim (text : List Char) : List Char :=
  ((text.dropWhile isBlank).reverse.dropWhile isBlank).reverse

/-- Items between brackets, separated by a comma and a space. -/
def listing (items : List String) : String :=
  "[" ++ ", ".intercalate items ++ "]"

/-- A value that may be missing. -/
def optional : Option String → String
  | some text => "Some(" ++ text ++ ")"
  | none => "None"

end DpuCycles.Text
