/-
Binary floating-point numbers, exactly.

A datum is a mantissa times a power of two, an infinity, or "not a number"; a format says how many
bits a mantissa has and how far the exponent reaches. Every operation computes the exact rational
result and rounds once, to the nearest datum and on a tie to the even mantissa
(`BinaryFormat.round`). Nothing here uses the machine's floating-point unit, so a statement about a
rounded rate or a rounded threshold is a statement about natural numbers.

Two formats are used: `single` for failure rates and their thresholds, `double` for the numbers of
JSON and TOML documents.
-/

set_option autoImplicit false

namespace Gatehouse.Number

/-- **Binary format.** -/
structure BinaryFormat where
  /-- How many bits a mantissa has. -/
  precision : Nat
  /-- The exponent of the smallest step. -/
  minExponent : Int
  /-- The exponent of the largest finite numbers. -/
  maxExponent : Int
  deriving DecidableEq, Repr

/-- Four bytes. -/
def BinaryFormat.single : BinaryFormat :=
  { precision := 24, minExponent := -149, maxExponent := 104 }

/-- Eight bytes. -/
def BinaryFormat.double : BinaryFormat :=
  { precision := 53, minExponent := -1074, maxExponent := 971 }

/-- **Floating-point datum.** A finite one is `mantissa * 2 ^ exponent` with a sign. -/
inductive Binary where
  | nan
  | infinite (negative : Bool)
  | finite (negative : Bool) (mantissa : Nat) (exponent : Int)
  deriving DecidableEq, Repr

/-! ## Rounding -/

/-- The integer nearest to `n / d`, on a tie the even one. -/
def roundHalfEven (n d : Nat) : Nat :=
  let q := n / d
  let r := n % d
  if 2 * r < d then q
  else if d < 2 * r then q + 1
  else if q % 2 = 0 then q else q + 1

/-- The numerator of `n / d` measured in steps of `2 ^ e`. -/
def stepNumerator (n : Nat) (e : Int) : Nat := n <<< (-e).toNat

/-- The denominator of `n / d` measured in steps of `2 ^ e`. -/
def stepDenominator (d : Nat) (e : Int) : Nat := d <<< e.toNat

namespace BinaryFormat

/-- The exponent at which `n / d` fills the mantissa, or the least exponent if that is larger. -/
def exponentFor (f : BinaryFormat) (n d : Nat) : Int :=
  let e : Int := (Nat.log2 n : Int) - (Nat.log2 d : Int) - f.precision + 1
  let e := if stepDenominator d e <<< (f.precision - 1) ≤ stepNumerator n e then e else e - 1
  max e f.minExponent

/-- **Rounding:** the datum nearest to `n / d`, on a tie the one with the even mantissa. -/
def round (f : BinaryFormat) (negative : Bool) (n d : Nat) : Binary :=
  if n = 0 then .finite negative 0 f.minExponent
  else
    let e := f.exponentFor n d
    let m := roundHalfEven (stepNumerator n e) (stepDenominator d e)
    let (m, e) := if m = 1 <<< f.precision then (1 <<< (f.precision - 1), e + 1) else (m, e)
    if f.maxExponent < e then .infinite negative else .finite negative m e

def ofNat (f : BinaryFormat) (n : Nat) : Binary := f.round false n 1

def ofInt (f : BinaryFormat) (i : Int) : Binary := f.round (i < 0) i.natAbs 1

/-- The numerator of a finite magnitude. -/
def numerator (mantissa : Nat) (exponent : Int) : Nat := mantissa <<< exponent.toNat

/-- The denominator of a finite magnitude. -/
def denominator (exponent : Int) : Nat := 1 <<< (-exponent).toNat

/-- A datum of another format in this one. -/
def convert (f : BinaryFormat) : Binary → Binary
  | .nan => .nan
  | .infinite s => .infinite s
  | .finite s m e => f.round s (numerator m e) (denominator e)

/-! ## Arithmetic -/

def mul (f : BinaryFormat) : Binary → Binary → Binary
  | .nan, _ => .nan
  | _, .nan => .nan
  | .infinite s, .infinite t => .infinite (s != t)
  | .infinite s, .finite t m _ => if m = 0 then .nan else .infinite (s != t)
  | .finite s m _, .infinite t => if m = 0 then .nan else .infinite (s != t)
  | .finite s m e, .finite t n g =>
    f.round (s != t) (numerator m e * numerator n g) (denominator e * denominator g)

/-- Quotient. Zero by zero is not a number; anything else by zero is infinite. -/
def div (f : BinaryFormat) : Binary → Binary → Binary
  | .nan, _ => .nan
  | _, .nan => .nan
  | .infinite _, .infinite _ => .nan
  | .infinite s, .finite t _ _ => .infinite (s != t)
  | .finite s _ _, .infinite t => .finite (s != t) 0 f.minExponent
  | .finite s m e, .finite t n g =>
    if n = 0 then if m = 0 then .nan else .infinite (s != t)
    else f.round (s != t) (numerator m e * denominator g) (denominator e * numerator n g)

end BinaryFormat

/-! ## Order -/

/-- A finite datum as an integer number of steps of `2 ^ base`. -/
def signedSteps (negative : Bool) (mantissa : Nat) (exponent base : Int) : Int :=
  let m : Int := (mantissa <<< (exponent - base).toNat : Nat)
  if negative then -m else m

/-- **Comparison** `a ≤ b`. It is false whenever one side is not a number. -/
def Binary.le : Binary → Binary → Bool
  | .nan, _ => false
  | _, .nan => false
  | .infinite true, _ => true
  | _, .infinite false => true
  | .infinite false, _ => false
  | _, .infinite true => false
  | .finite s m e, .finite t n g =>
    let base := min e g
    signedSteps s m e base ≤ signedSteps t n g base

/-- Strict comparison `a < b`, false whenever one side is not a number. -/
def Binary.lt (a b : Binary) : Bool := a.le b && !b.le a

def Binary.neg : Binary → Binary
  | .nan => .nan
  | .infinite s => .infinite (!s)
  | .finite s m e => .finite (!s) m e

/-! ## Bit patterns -/

/-- The width of the exponent field. -/
def BinaryFormat.exponentBits (f : BinaryFormat) : Nat := if f.precision = 24 then 8 else 11

/-- The interchange bit pattern of a datum of the format, as a number. -/
def BinaryFormat.bits (f : BinaryFormat) : Binary → Nat
  | .nan =>
    ((1 <<< f.exponentBits) - 1) <<< (f.precision - 1) + 1 <<< (f.precision - 2)
  | .infinite s =>
    (if s then 1 <<< (f.exponentBits + f.precision - 1) else 0)
      + ((1 <<< f.exponentBits) - 1) <<< (f.precision - 1)
  | .finite s m e =>
    (if s then 1 <<< (f.exponentBits + f.precision - 1) else 0)
      + (if m < 1 <<< (f.precision - 1) then m
         else (e - f.minExponent).toNat <<< (f.precision - 1) + m)

/-! ## Decimal numbers -/

/-- The correctly rounded datum of `digits * 10 ^ exponent`. Exponents far outside the format are
settled by size alone: with `L` digits the value lies below `10 ^ (L + exponent)` and, unless it is
zero, at or above a tenth of that. -/
def BinaryFormat.ofDecimal (f : BinaryFormat) (negative : Bool) (digits : Nat) (exponent : Int) :
    Binary :=
  let size : Int := (Nat.toDigits 10 digits).length + exponent
  if digits = 0 then .finite negative 0 f.minExponent
  else if 400 < size then .infinite negative
  else if size < -400 then .finite negative 0 f.minExponent
  else f.round negative (digits * Nat.pow 10 exponent.toNat) (Nat.pow 10 (-exponent).toNat)

end Gatehouse.Number
