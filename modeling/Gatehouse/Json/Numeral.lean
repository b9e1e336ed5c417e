/-
Reading JSON numbers.

An integer that fits 64 bits (unsigned, or signed when it has a minus sign) stays an integer. Every
other number becomes a double in a fixed way: as many leading digits as fit 64 bits make the
significand, further digits only shift the exponent (before the decimal point) or are dropped (after
it), and the significand is then multiplied or divided by a power of ten, with one rounding for each
of these steps. The result is usually, but not always, the double nearest to the number as written.
A number too large for a double is refused.
-/
import Gatehouse.Json.Basic
import Gatehouse.Text.Scanning

set_option autoImplicit false

namespace Gatehouse.Json

open Gatehouse.Number

def maxSignificand : Nat := 18446744073709551615

/-- The largest exponent that is kept as a number; anything longer is only known to be large. -/
def maxExponent : Nat := 2147483647

/-- The digits at the front of a text, and what follows them. -/
def spanDigits : List Char → List Nat × List Char
  | [] => ([], [])
  | c :: rest =>
    match digitValue? 10 c with
    | some d => let (ds, after) := spanDigits rest; (d :: ds, after)
    | none => ([], c :: rest)

/-- Adds digits to a significand while it fits 64 bits: the significand, how many digits it took,
and how many were left over. -/
def absorb (significand : Nat) : List Nat → Nat × Nat × Nat
  | [] => (significand, 0, 0)
  | d :: ds =>
    if significand * 10 + d ≤ maxSignificand then
      let (s, taken, left) := absorb (significand * 10 + d) ds
      (s, taken + 1, left)
    else (significand, 0, (d :: ds).length)

def powerOfTen (n : Nat) : Binary := BinaryFormat.double.ofDecimal false 1 n

/-- The largest power of ten that is a finite double. -/
def greatestPower : Nat := 308

/-- A nonnegative double times a power of ten; `none` when it is too large. A power far below the
format is reached by dividing by the largest power of ten first; three divisions bring every
significand to zero. -/
def scale : Nat → Binary → Int → Option Binary
  | 0, f, _ => some f
  | fuel + 1, f, exponent =>
    if exponent.natAbs ≤ greatestPower then
      if 0 ≤ exponent then
        match BinaryFormat.double.mul f (powerOfTen exponent.natAbs) with
        | .infinite _ => none
        | product => some product
      else some (BinaryFormat.double.div f (powerOfTen exponent.natAbs))
    else
      match f with
      | .finite _ 0 _ => some f
      | _ =>
        if 0 ≤ exponent then none
        else scale fuel (BinaryFormat.double.div f (powerOfTen greatestPower))
          (exponent + greatestPower)

/-- The numeral of a finite double with a sign. -/
def Numeral.ofBinary? (negative : Bool) : Binary → Option Numeral
  | .finite _ m e => some (.real negative m e)
  | _ => none

/-- The double of a significand and a power of ten. -/
def realOf? (negative : Bool) (significand : Nat) (exponent : Int) : Option Numeral :=
  (scale 4 (BinaryFormat.double.ofNat significand) exponent).bind (Numeral.ofBinary? negative)

/-- The zero that an exponent far below the format leaves. -/
def zeroOf (negative : Bool) : Numeral := .real negative 0 BinaryFormat.double.minExponent

/-- An integer part alone. -/
def wholeNumeral? (negative : Bool) (significand dropped : Nat) : Option Numeral :=
  if 0 < dropped then realOf? negative significand dropped
  else if !negative then some (.integer significand)
  else if significand = 0 ∨ 1 <<< 63 < significand then realOf? true significand 0
  else some (.integer (-significand))

/-- A number with an exponent part; the text begins after the letter. -/
def withExponent? (negative : Bool) (significand : Nat) (start : Int) (text : List Char) :
    Option (Numeral × List Char) :=
  let (down, text) := match text with
    | '+' :: rest => (false, rest)
    | '-' :: rest => (true, rest)
    | _ => (false, text)
  match spanDigits text with
  | ([], _) => none
  | (ds, after) =>
    let size := ds.foldl (fun n d => if maxExponent < n then n else n * 10 + d) 0
    if maxExponent < size then
      if significand ≠ 0 ∧ !down then none else some (zeroOf negative, after)
    else
      (realOf? negative significand (if down then start - size else start + size)).map (·, after)

/-- What may follow an integer part with its significand and the count of its dropped digits. -/
def afterInteger? (negative : Bool) (significand dropped : Nat) (text : List Char) :
    Option (Numeral × List Char) :=
  match text with
  | '.' :: rest =>
    match spanDigits rest with
    | ([], _) => none
    | (ds, after) =>
      let (significand, taken, _) := absorb significand ds
      let exponent : Int := dropped - taken
      match after with
      | 'e' :: more => withExponent? negative significand exponent more
      | 'E' :: more => withExponent? negative significand exponent more
      | _ => (realOf? negative significand exponent).map (·, after)
  | 'e' :: rest => withExponent? negative significand dropped rest
  | 'E' :: rest => withExponent? negative significand dropped rest
  | _ => (wholeNumeral? negative significand dropped).map (·, text)

/-- The number at the front of a text whose minus sign, if any, is already read. -/
def unsignedNumeral? (negative : Bool) (text : List Char) : Option (Numeral × List Char) :=
  match spanDigits text with
  | ([], _) => none
  | (0 :: _ :: _, _) => none
  | (ds, after) =>
    let (significand, _, dropped) := absorb 0 ds
    afterInteger? negative significand dropped after

/-- **The number at the front of a text,** and what follows it. -/
def numeral? (text : List Char) : Option (Numeral × List Char) :=
  match text with
  | '-' :: rest => unsignedNumeral? true rest
  | _ => unsignedNumeral? false text

end Gatehouse.Json
