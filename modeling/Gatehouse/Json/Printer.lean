/-
The text of a JSON document.

`render` writes a document on one line without spaces, `renderPretty` with one entry a line and two
spaces of indentation. In strings only the quotation mark, the backslash and the characters below
U+0020 are escaped. A double is written with the fewest digits that read back: in positional form
with at least one decimal while its leading digit stands between the fifth decimal and the sixteenth
digit, else with an exponent that carries its sign.
-/
import Gatehouse.Json.Basic
import Gatehouse.Text.Scanning

set_option autoImplicit false

namespace Gatehouse.Json

open Gatehouse.Number

/-! ## Numbers -/

/-- Where positional notation ends. -/
structure RealLayout where
  /-- The least power of ten of a leading digit in positional notation. -/
  leastPower : Int
  /-- The greatest one. -/
  greatestPower : Int

/-- The layout of JSON numbers. -/
def realLayout : RealLayout := { leastPower := -5, greatestPower := 15 }

def digitChars (n : Nat) : List Char := Nat.toDigits 10 n

def integerChars (i : Int) : List Char :=
  if i < 0 then '-' :: digitChars i.natAbs else digitChars i.natAbs

/-- A positive decimal in the layout of JSON numbers. -/
def decimalChars (d : Decimal) : List Char :=
  let digits := digitChars d.digits
  let power := d.exponent + digits.length - 1
  if 0 ≤ d.exponent ∧ power ≤ realLayout.greatestPower then
    digits ++ List.replicate d.exponent.toNat '0' ++ ['.', '0']
  else if 0 ≤ power ∧ power ≤ realLayout.greatestPower then
    digits.take (power.toNat + 1) ++ '.' :: digits.drop (power.toNat + 1)
  else if realLayout.leastPower ≤ power ∧ power < 0 then
    '0' :: '.' :: List.replicate (-power - 1).toNat '0' ++ digits
  else
    let mantissa := match digits with
      | first :: second :: more => first :: '.' :: second :: more
      | short => short
    mantissa ++ 'e' :: (if power < 0 then '-' else '+') :: digitChars power.natAbs

/-- A number as it is written. -/
def Numeral.chars : Numeral → List Char
  | .integer i => integerChars i
  | .real negative mantissa exponent =>
    (if negative then ['-'] else []) ++
      if mantissa = 0 then ['0', '.', '0']
      else decimalChars (BinaryFormat.double.shortest mantissa exponent)

/-! ## Strings -/

/-- One character inside a string. -/
def escapeChar (c : Char) : List Char :=
  if c = '"' then ['\\', '"']
  else if c = '\\' then ['\\', '\\']
  else if c = '\x08' then ['\\', 'b']
  else if c = '\x0c' then ['\\', 'f']
  else if c = '\n' then ['\\', 'n']
  else if c = '\r' then ['\\', 'r']
  else if c = '\t' then ['\\', 't']
  else if c.toNat < 0x20 then
    ['\\', 'u', '0', '0', hexDigit (c.toNat / 16), hexDigit (c.toNat % 16)]
  else [c]

/-- A string with its quotation marks. -/
def stringChars (s : String) : List Char := '"' :: s.toList.flatMap escapeChar ++ ['"']

/-! ## One line -/

mutual

/-- The characters of a document on one line. -/
def chars : Json → List Char
  | .null => "null".toList
  | .bool true => "true".toList
  | .bool false => "false".toList
  | .number n => n.chars
  | .string s => stringChars s
  | .array [] => ['[', ']']
  | .array (item :: rest) => '[' :: chars item ++ itemsTail rest
  | .object [] => ['\x7b', '\x7d']
  | .object ((name, value) :: rest) =>
    '\x7b' :: stringChars name ++ ':' :: chars value ++ fieldsTail rest

/-- The items after the first one, and the closing bracket. -/
def itemsTail : List Json → List Char
  | [] => [']']
  | item :: rest => ',' :: chars item ++ itemsTail rest

/-- The fields after the first one, and the closing brace. -/
def fieldsTail : List (String × Json) → List Char
  | [] => ['\x7d']
  | (name, value) :: rest => ',' :: stringChars name ++ ':' :: chars value ++ fieldsTail rest

end

/-- **The document on one line.** -/
def render (j : Json) : String := String.ofList j.chars

/-! ## One entry a line -/

/-- A line break and the indentation of a level. -/
def newline (level : Nat) : List Char := '\n' :: List.replicate (2 * level) ' '

mutual

/-- The characters of a document whose brackets stand at an indentation level. -/
def prettyChars (level : Nat) : Json → List Char
  | .null => "null".toList
  | .bool true => "true".toList
  | .bool false => "false".toList
  | .number n => n.chars
  | .string s => stringChars s
  | .array [] => ['[', ']']
  | .array (item :: rest) =>
    '[' :: newline (level + 1) ++ prettyChars (level + 1) item ++ prettyItems level rest
  | .object [] => ['\x7b', '\x7d']
  | .object ((name, value) :: rest) =>
    '\x7b' :: newline (level + 1) ++ stringChars name ++ ':' :: ' ' :: prettyChars (level + 1) value
      ++ prettyFields level rest

/-- The items after the first one, each on its line, and the closing bracket. -/
def prettyItems (level : Nat) : List Json → List Char
  | [] => newline level ++ [']']
  | item :: rest =>
    ',' :: newline (level + 1) ++ prettyChars (level + 1) item ++ prettyItems level rest

/-- The fields after the first one, each on its line, and the closing brace. -/
def prettyFields (level : Nat) : List (String × Json) → List Char
  | [] => newline level ++ ['\x7d']
  | (name, value) :: rest =>
    ',' :: newline (level + 1) ++ stringChars name ++ ':' :: ' ' :: prettyChars (level + 1) value
      ++ prettyFields level rest

end

/-- **The document with one entry a line.** -/
def renderPretty (j : Json) : String := String.ofList (prettyChars 0 j)

end Gatehouse.Json
