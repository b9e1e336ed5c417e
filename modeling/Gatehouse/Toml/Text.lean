/-
Blanks, strings and keys of TOML documents.

Every reader takes the text from where it stands and returns what it read together with the rest, or
nothing if the text does not begin with such a thing. Strings come in four forms: basic or literal,
on one line or on several. Only basic strings have escapes. In strings of several lines a line break
directly after the opening marks is left out, every other line break counts as one line feed, and
one or two marks may stand directly before the closing ones.
-/
import Gatehouse.Text.Scanning

set_option autoImplicit false

namespace Gatehouse.Toml

/-! ## Blanks and comments -/

/-- A blank on a line. -/
def isBlank (c : Char) : Bool := c == ' ' || c == '\t'

def skipBlanks (text : List Char) : List Char := text.dropWhile isBlank

/-- The text after a line break. -/
def lineBreak? : List Char → Option (List Char)
  | '\n' :: rest => some rest
  | '\r' :: '\n' :: rest => some rest
  | _ => none

/-- Whether a character may stand in a comment. -/
def isCommentChar (c : Char) : Bool := c == '\t' || (0x20 ≤ c.toNat && c.toNat != 0x7F)

/-- The text after a comment, if it begins with one. -/
def skipComment (text : List Char) : List Char :=
  match text with
  | '#' :: rest => rest.dropWhile isCommentChar
  | _ => text

/-- The text after the end of a line, before which only blanks and a comment may stand. -/
def endOfLine? (text : List Char) : Option (List Char) :=
  match skipComment (skipBlanks text) with
  | [] => some []
  | rest => lineBreak? rest

/-- The text after blanks, line breaks and comments, inside a comment or not. -/
def skipLinesFrom (inComment : Bool) : List Char → List Char
  | '\n' :: rest => skipLinesFrom false rest
  | '\r' :: '\n' :: rest => skipLinesFrom false rest
  | c :: rest =>
    if inComment then if isCommentChar c then skipLinesFrom true rest else c :: rest
    else if isBlank c then skipLinesFrom false rest
    else if c = '#' then skipLinesFrom true rest
    else c :: rest
  | [] => []

/-- The text after blanks, line breaks and comments. -/
def skipLines (text : List Char) : List Char := skipLinesFrom false text

/-! ## Escapes -/

/-- A number of so many hexadecimal digits. -/
def hexNumber? : Nat → Nat → List Char → Option (Nat × List Char)
  | 0, acc, text => some (acc, text)
  | n + 1, acc, c :: rest =>
    match digitValue? 16 c with
    | some d => hexNumber? n (acc * 16 + d) rest
    | none => none
  | _ + 1, _, [] => none

/-- The character with a code point. -/
def charOf? (code : Nat) : Option Char :=
  if code < 0xD800 ∨ (0xDFFF < code ∧ code < 0x110000) then some (Char.ofNat code) else none

/-- An escape, of which the backslash is already read. -/
def escape? : List Char → Option (Char × List Char)
  | 'b' :: rest => some ('\x08', rest)
  | 'f' :: rest => some ('\x0c', rest)
  | 'n' :: rest => some ('\n', rest)
  | 'r' :: rest => some ('\r', rest)
  | 't' :: rest => some ('\t', rest)
  | '"' :: rest => some ('"', rest)
  | '\\' :: rest => some ('\\', rest)
  | 'u' :: rest => (hexNumber? 4 0 rest).bind fun r => (charOf? r.1).map (·, r.2)
  | 'U' :: rest => (hexNumber? 8 0 rest).bind fun r => (charOf? r.1).map (·, r.2)
  | _ => none

/-! ## Strings on one line -/

/-- Whether a character may stand in a string as it is. -/
def isTextChar (c : Char) : Bool := c == '\t' || (0x20 ≤ c.toNat && c.toNat != 0x7F)

/-- A basic string, of which the opening mark is already read. The fuel is the length of the
text. -/
def basic? : Nat → List Char → Option (List Char × List Char)
  | 0, _ => none
  | _ + 1, [] => none
  | _ + 1, '"' :: rest => some ([], rest)
  | fuel + 1, '\\' :: rest =>
    match escape? rest with
    | none => none
    | some (c, after) => (basic? fuel after).map fun r => (c :: r.1, r.2)
  | fuel + 1, c :: rest =>
    if isTextChar c then (basic? fuel rest).map fun r => (c :: r.1, r.2) else none

/-- A literal string, of which the opening mark is already read. -/
def literal? (text : List Char) : Option (List Char × List Char) :=
  let body := text.takeWhile fun c => isTextChar c && c != '\''
  match text.drop body.length with
  | '\'' :: rest => some (body, rest)
  | _ => none

/-! ## Strings on several lines -/

/-- The text after blanks and line breaks. -/
def skipGap : List Char → List Char
  | '\r' :: '\n' :: rest => skipGap rest
  | c :: rest => if isBlank c || c == '\n' then skipGap rest else c :: rest
  | [] => []

/-- Whether a backslash and what follows it joins two lines: the text after all
blanks and breaks. -/
def joinedLine? (text : List Char) : Option (List Char) :=
  (lineBreak? (skipBlanks text)).map skipGap

/-- What a run of marks in a string of several lines means: how many stand for themselves, and
whether the string ends. -/
def marks (count : Nat) : Nat × Bool :=
  if count < 3 then (count, false) else (min (count - 3) 2, true)

/-- A basic string of several lines, of which the opening marks are already read. -/
def basicLines? : Nat → List Char → Option (List Char × List Char)
  | 0, _ => none
  | _ + 1, [] => none
  | fuel + 1, '\\' :: rest =>
    match joinedLine? rest with
    | some after => basicLines? fuel after
    | none =>
      match escape? rest with
      | none => none
      | some (c, after) => (basicLines? fuel after).map fun r => (c :: r.1, r.2)
  | fuel + 1, c :: rest =>
    if c = '"' then
      let (kept, ends) := marks ((c :: rest).takeWhile (· == '"')).length
      if ends then some (List.replicate kept '"', (c :: rest).drop (kept + 3))
      else
        (basicLines? fuel ((c :: rest).drop kept)).map fun r =>
          (List.replicate kept '"' ++ r.1, r.2)
    else
      match lineBreak? (c :: rest) with
      | some after => (basicLines? fuel after).map fun r => ('\n' :: r.1, r.2)
      | none =>
        if isTextChar c then (basicLines? fuel rest).map fun r => (c :: r.1, r.2) else none

/-- A literal string of several lines, of which the opening marks are already read. -/
def literalLines? : Nat → List Char → Option (List Char × List Char)
  | 0, _ => none
  | _ + 1, [] => none
  | fuel + 1, c :: rest =>
    if c = '\'' then
      let (kept, ends) := marks ((c :: rest).takeWhile (· == '\'')).length
      if ends then some (List.replicate kept '\'', (c :: rest).drop (kept + 3))
      else
        (literalLines? fuel ((c :: rest).drop kept)).map fun r =>
          (List.replicate kept '\'' ++ r.1, r.2)
    else
      match lineBreak? (c :: rest) with
      | some after => (literalLines? fuel after).map fun r => ('\n' :: r.1, r.2)
      | none =>
        if isTextChar c then (literalLines? fuel rest).map fun r => (c :: r.1, r.2) else none

/-- The text without a line break in front. -/
def dropBreak (text : List Char) : List Char := (lineBreak? text).getD text

/-- **A string** in any of its forms. -/
def string? (text : List Char) : Option (String × List Char) :=
  let read : Option (List Char × List Char) := match text with
    | '"' :: '"' :: '"' :: rest => basicLines? (rest.length + 1) (dropBreak rest)
    | '"' :: rest => basic? (rest.length + 1) rest
    | '\'' :: '\'' :: '\'' :: rest => literalLines? (rest.length + 1) (dropBreak rest)
    | '\'' :: rest => literal? rest
    | _ => none
  read.map fun r => (String.ofList r.1, r.2)

/-! ## Keys -/

/-- Whether a character may stand in a key without marks. -/
def isKeyChar (c : Char) : Bool := c.isAlphanum || c == '-' || c == '_'

/-- One part of a key. Strings of several lines are no keys. -/
def keyPart? (text : List Char) : Option (String × List Char) :=
  match text with
  | '"' :: rest => (basic? (rest.length + 1) rest).map fun r => (String.ofList r.1, r.2)
  | '\'' :: rest => (literal? rest).map fun r => (String.ofList r.1, r.2)
  | _ =>
    let name := text.takeWhile isKeyChar
    if name.isEmpty then none else some (String.ofList name, text.drop name.length)

/-- The parts of a key, with blanks around each. The fuel is the length of the text. -/
def keyParts? : Nat → List Char → Option (List String × List Char)
  | 0, _ => none
  | fuel + 1, text =>
    match keyPart? (skipBlanks text) with
    | none => none
    | some (part, after) =>
      match skipBlanks after with
      | '.' :: rest => (keyParts? fuel rest).map fun r => (part :: r.1, r.2)
      | rest => some ([part], rest)

/-- How deep a document may be nested, not included. -/
def depthLimit : Nat := 80

/-- **A key:** one part, or several joined by points. -/
def key? (text : List Char) : Option (List String × List Char) :=
  match keyParts? (text.length + 1) text with
  | none => none
  | some (parts, rest) => if parts.length < depthLimit then some (parts, rest) else none

end Gatehouse.Toml
