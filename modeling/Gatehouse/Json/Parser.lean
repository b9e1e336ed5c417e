/-
Reading JSON documents.

A body is a JSON document when its bytes are UTF-8 text and that text is one JSON value with nothing
but blanks around it, nested at most 127 deep. Of several fields with one name the last value
counts, at the place of the first.
-/
import Gatehouse.Json.Numeral
import Gatehouse.Table
import Gatehouse.Text.Bytes

set_option autoImplicit false

namespace Gatehouse.Json

/-- How deep arrays and objects may be nested. -/
def maxDepth : Nat := 127

/-! ## Pieces of the grammar -/

/-- A blank between tokens. -/
def isBlank (c : Char) : Bool := c == ' ' || c == '\n' || c == '\t' || c == '\r'

/-- The text after its leading blanks. -/
def skipBlanks (text : List Char) : List Char := text.dropWhile isBlank

/-- The code unit of four hexadecimal digits. -/
def codeUnit? (a b c d : Char) : Option Nat := do
  let a ← digitValue? 16 a
  let b ← digitValue? 16 b
  let c ← digitValue? 16 c
  let d ← digitValue? 16 d
  return ((a * 16 + b) * 16 + c) * 16 + d

/-- Whether a code unit is the first of a pair. -/
def isHighSurrogate (unit : Nat) : Bool := 0xD800 ≤ unit && unit ≤ 0xDBFF

/-- Whether a code unit is the second of a pair. -/
def isLowSurrogate (unit : Nat) : Bool := 0xDC00 ≤ unit && unit ≤ 0xDFFF

/-- The character of a pair of code units. -/
def pairChar (high low : Nat) : Char :=
  Char.ofNat (0x10000 + (high - 0xD800) * 0x400 + (low - 0xDC00))

/-- The character of a one-letter escape. -/
def shortEscape? : Char → Option Char
  | '"' => some '"'
  | '\\' => some '\\'
  | '/' => some '/'
  | 'b' => some '\x08'
  | 'f' => some '\x0c'
  | 'n' => some '\n'
  | 'r' => some '\r'
  | 't' => some '\t'
  | _ => none

/-- A character in front of the characters of a string. -/
def consChar (c : Char) (read : Option (List Char × List Char)) : Option (List Char × List Char) :=
  read.map fun r => (c :: r.1, r.2)

/-- The characters of a string whose opening mark is already read, and what follows its
closing mark. Characters above U+FFFF are escaped as a pair of code units; a code unit of a
pair alone is refused. -/
def stringBody? : List Char → Option (List Char × List Char)
  | [] => none
  | '"' :: rest => some ([], rest)
  | '\\' :: 'u' :: a :: b :: c :: d :: rest =>
    match codeUnit? a b c d with
    | none => none
    | some unit =>
      if isLowSurrogate unit then none
      else if isHighSurrogate unit then
        match rest with
        | '\\' :: 'u' :: a :: b :: c :: d :: more =>
          match codeUnit? a b c d with
          | none => none
          | some low =>
            if isLowSurrogate low then consChar (pairChar unit low) (stringBody? more) else none
        | _ => none
      else consChar (Char.ofNat unit) (stringBody? rest)
  | '\\' :: e :: rest =>
    match shortEscape? e with
    | none => none
    | some c => consChar c (stringBody? rest)
  | c :: rest => if c = '\\' ∨ c.toNat < 0x20 then none else consChar c (stringBody? rest)

/-- A string whose opening mark is already read. -/
def string? (text : List Char) : Option (String × List Char) :=
  (stringBody? text).map fun r => (String.ofList r.1, r.2)

/-! ## Documents -/

mutual

/-- The value at the front of a text without leading blanks. -/
def value? : Nat → Nat → List Char → Option (Json × List Char)
  | 0, _, _ => none
  | _, _, [] => none
  | _ + 1, _, '"' :: rest => (string? rest).map fun r => (.string r.1, r.2)
  | fuel + 1, depth + 1, '[' :: rest =>
    match skipBlanks rest with
    | ']' :: after => some (.array [], after)
    | text => (items? fuel depth text).map fun r => (.array r.1, r.2)
  | fuel + 1, depth + 1, '\x7b' :: rest =>
    match skipBlanks rest with
    | '\x7d' :: after => some (.object [], after)
    | text => (fields? fuel depth [] text).map fun r => (.object r.1, r.2)
  | _ + 1, _, 'n' :: rest => (expectWord? "ull" rest).map (.null, ·)
  | _ + 1, _, 't' :: rest => (expectWord? "rue" rest).map (.bool true, ·)
  | _ + 1, _, 'f' :: rest => (expectWord? "alse" rest).map (.bool false, ·)
  | _ + 1, _, text => (numeral? text).map fun r => (.number r.1, r.2)

/-- The items of an array from one of them on, up to the closing bracket. -/
def items? : Nat → Nat → List Char → Option (List Json × List Char)
  | 0, _, _ => none
  | fuel + 1, depth, text =>
    match value? fuel depth text with
    | none => none
    | some (item, after) =>
      match skipBlanks after with
      | ']' :: rest => some ([item], rest)
      | ',' :: rest => (items? fuel depth (skipBlanks rest)).map fun r => (item :: r.1, r.2)
      | _ => none

/-- The fields of an object from one of them on, up to the closing brace, added to those before. -/
def fields? : Nat → Nat → List (String × Json) → List Char →
    Option (List (String × Json) × List Char)
  | 0, _, _, _ => none
  | fuel + 1, depth, before, '"' :: text =>
    match string? text with
    | none => none
    | some (name, after) =>
      match skipBlanks after with
      | ':' :: rest =>
        match value? fuel depth (skipBlanks rest) with
        | none => none
        | some (value, after) =>
          let fields := Table.put name value before
          match skipBlanks after with
          | '\x7d' :: rest => some (fields, rest)
          | ',' :: rest => fields? fuel depth fields (skipBlanks rest)
          | _ => none
      | _ => none
  | _ + 1, _, _, _ => none

end

/-- **The document of a text.** Twice the length of the text bounds the steps of any reading. -/
def parse? (text : List Char) : Option Json :=
  match value? (2 * text.length + 2) maxDepth (skipBlanks text) with
  | none => none
  | some (document, after) => if (skipBlanks after).isEmpty then some document else none

def ofString? (s : String) : Option Json := parse? s.toList

/-- The document of a byte string, which has to be UTF-8. -/
def ofBytes? (b : Bytes) : Option Json := (Bytes.toString? b).bind ofString?

end Gatehouse.Json
