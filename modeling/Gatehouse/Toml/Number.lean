/-
Numbers and dates of TOML documents.

An integer has to fit 64 bits with a sign. A floating-point number is the double nearest to what is
written; one that is too large upwards is refused. Digits may be separated by single underscores. A
date, a time or both is only checked and kept as it is written.
-/
import Gatehouse.Number.Binary
import Gatehouse.Toml.Text

set_option autoImplicit false

namespace Gatehouse.Toml

open Gatehouse.Number

/-! ## Digits -/

/-- Further digits, each of which may have an underscore before it. -/
def moreDigits? (base : Nat) : List Char → Option (List Nat × List Char)
  | [] => some ([], [])
  | '_' :: c :: rest =>
    match digitValue? base c with
    | some d => (moreDigits? base rest).map fun r => (d :: r.1, r.2)
    | none => none
  | c :: rest =>
    match digitValue? base c with
    | some d => (moreDigits? base rest).map fun r => (d :: r.1, r.2)
    | none => if c = '_' then none else some ([], c :: rest)

/-- Digits with single underscores between them. -/
def digits? (base : Nat) : List Char → Option (List Nat × List Char)
  | [] => none
  | c :: rest =>
    match digitValue? base c with
    | some d => (moreDigits? base rest).map fun r => (d :: r.1, r.2)
    | none => none

/-- The number that digits make. -/
def numberOf (base : Nat) (digits : List Nat) : Nat := digits.foldl (fun n d => n * base + d) 0

/-- A sign and what follows it: whether it is a minus. -/
def sign : List Char → Bool × List Char
  | '-' :: rest => (true, rest)
  | '+' :: rest => (false, rest)
  | text => (false, text)

/-- Decimal digits without a leading zero, except for zero itself. -/
def wholeDigits? (text : List Char) : Option (List Nat × List Char) :=
  match text with
  | '0' :: rest => some ([0], rest)
  | _ => digits? 10 text

/-! ## Integers -/

/-- An integer that fits. -/
def integerOf? (negative : Bool) (n : Nat) : Option Int :=
  if negative then if n ≤ 1 <<< 63 then some (-n) else none
  else if n < 1 <<< 63 then some n else none

/-- An integer in a base that is given by two characters, which are already read. -/
def inBase? (base : Nat) (text : List Char) : Option (Int × List Char) :=
  (digits? base text).bind fun r => (integerOf? false (numberOf base r.1)).map (·, r.2)

/-- **An integer.** -/
def integer? (text : List Char) : Option (Int × List Char) :=
  match text with
  | '0' :: 'x' :: rest => inBase? 16 rest
  | '0' :: 'o' :: rest => inBase? 8 rest
  | '0' :: 'b' :: rest => inBase? 2 rest
  | _ =>
    let (negative, rest) := sign text
    (wholeDigits? rest).bind fun r => (integerOf? negative (numberOf 10 r.1)).map (·, r.2)

/-! ## Floating-point numbers -/

/-- An exponent part. -/
def exponent? : List Char → Option (Int × List Char)
  | c :: rest =>
    if c = 'e' ∨ c = 'E' then
      let (negative, rest) := sign rest
      (digits? 10 rest).map fun r =>
        (if negative then -(numberOf 10 r.1 : Int) else numberOf 10 r.1, r.2)
    else none
  | [] => none

/-- A number with a fraction, an exponent or both: its digits, the power of ten of the last one, and
the rest. -/
def scientific? (text : List Char) : Option (Nat × Int × List Char) :=
  match wholeDigits? text with
  | none => none
  | some (whole, '.' :: rest) =>
    match digits? 10 rest with
    | none => none
    | some (fraction, after) =>
      let (exponent, after) := (exponent? after).getD (0, after)
      some (numberOf 10 (whole ++ fraction), exponent - fraction.length, after)
  | some (whole, after) => (exponent? after).map fun r => (numberOf 10 whole, r.1, r.2)

/-- **A floating-point number.** -/
def float? (text : List Char) : Option (Binary × List Char) :=
  let (negative, rest) := sign text
  match rest with
  | 'i' :: 'n' :: 'f' :: after => some (.infinite negative, after)
  | 'n' :: 'a' :: 'n' :: after => some (.nan, after)
  | _ =>
    match scientific? rest with
    | none => none
    | some (digits, exponent, after) =>
      match BinaryFormat.double.ofDecimal negative digits exponent with
      | .infinite false => none
      | number => some (number, after)

/-! ## Dates and times -/

/-- A number of exactly so many decimal digits. -/
def fixedDigits? : Nat → Nat → List Char → Option (Nat × List Char)
  | 0, acc, text => some (acc, text)
  | n + 1, acc, c :: rest =>
    if c.isDigit then fixedDigits? n (acc * 10 + (c.toNat - 48)) rest else none
  | _ + 1, _, [] => none

/-- A number of two digits in a range. -/
def twoDigits? (low high : Nat) (text : List Char) : Option (Nat × List Char) :=
  (fixedDigits? 2 0 text).bind fun r => if low ≤ r.1 ∧ r.1 ≤ high then some r else none

/-- How many days a month has. -/
def daysIn (year month : Nat) : Nat :=
  if month = 2 then
    if year % 4 = 0 ∧ (year % 100 ≠ 0 ∨ year % 400 = 0) then 29 else 28
  else if month = 4 ∨ month = 6 ∨ month = 9 ∨ month = 11 then 30
  else 31

/-- The text after a date. -/
def skipDate? (text : List Char) : Option (List Char) := do
  let (year, rest) ← fixedDigits? 4 0 text
  let rest ← expect? '-' rest
  let (month, rest) ← twoDigits? 1 12 rest
  let rest ← expect? '-' rest
  let (_, rest) ← twoDigits? 1 (daysIn year month) rest
  return rest

/-- The text after the fraction of a second, if there is one. -/
def skipFraction (text : List Char) : List Char :=
  match text with
  | '.' :: c :: rest => if c.isDigit then rest.dropWhile Char.isDigit else text
  | _ => text

/-- The text after a time of day. -/
def skipTime? (text : List Char) : Option (List Char) := do
  let (_, rest) ← twoDigits? 0 23 text
  let rest ← expect? ':' rest
  let (_, rest) ← twoDigits? 0 59 rest
  let rest ← expect? ':' rest
  let (_, rest) ← twoDigits? 0 60 rest
  return skipFraction rest

/-- The text after an offset from universal time, if there is one. -/
def skipOffset (text : List Char) : List Char :=
  match text with
  | 'Z' :: rest => rest
  | 'z' :: rest => rest
  | c :: rest =>
    if c = '+' ∨ c = '-' then
      (do
        let (_, rest) ← twoDigits? 0 23 rest
        let rest ← expect? ':' rest
        let (_, rest) ← twoDigits? 0 59 rest
        return rest).getD text
    else text
  | [] => text

/-- The text after a date and, if it follows, a time with its offset. -/
def skipDateTime? (text : List Char) : Option (List Char) :=
  match skipDate? text with
  | none => skipTime? text
  | some after =>
    match after with
    | c :: rest =>
      if c = 'T' ∨ c = 't' ∨ c = ' ' then
        match skipTime? rest with
        | some later => some (skipOffset later)
        | none => some after
      else some after
    | [] => some []

/-- **A date, a time or both,** as it is written. -/
def dateTime? (text : List Char) : Option (String × List Char) :=
  (skipDateTime? text).map fun rest =>
    (String.ofList (text.take (text.length - rest.length)), rest)

end Gatehouse.Toml
