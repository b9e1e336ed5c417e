/-
Lower case for any text.

Every character goes to its lower-case form. There are two special cases: the capital I with a dot
becomes two characters, and a capital sigma becomes a final sigma where it ends a word, that is,
where the nearest neighbour before it that counts is a cased letter and the nearest after it is not.
-/
import Gatehouse.Text.LetterTables

set_option autoImplicit false

namespace Gatehouse

/-- The lower-case form of one character, apart from its neighbours. -/
def lowerChar (c : Char) : List Char :=
  if c.toNat < 0x80 then [c.toLower]
  else if c = '\u0130' then ['i', '\u0307']
  else [Char.ofNat (LetterTables.lowered c.toNat)]

/-- Whether the first character that counts is a cased letter. -/
def startsCased : List Char → Bool
  | [] => false
  | c :: rest =>
    if LetterTables.inRanges LetterTables.caseIgnorable c.toNat then startsCased rest
    else LetterTables.inRanges LetterTables.cased c.toNat

/-- Lower case of a text, given the characters before it, the nearest first. -/
def lowerFrom (before : List Char) : List Char → List Char
  | [] => []
  | c :: rest =>
    (if c = '\u03A3' then
      if startsCased before && !startsCased rest then ['\u03C2'] else ['\u03C3']
    else lowerChar c) ++ lowerFrom (c :: before) rest

/-- **The text in lower case.** -/
def lowercase (s : String) : String := String.ofList (lowerFrom [] s.toList)

/-- A text with its ASCII letters in lower case and everything else as it is. -/
def asciiLowercase (s : String) : String := String.ofList (s.toList.map Char.toLower)

end Gatehouse
