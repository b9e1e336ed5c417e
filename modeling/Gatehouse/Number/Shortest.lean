/-
The shortest decimal number that reads back as a given floating-point number.

Every real in a certain interval around `mantissa * 2 ^ exponent` rounds to it. For one digit,
two digits, and so on, the decimal grid of that many digits has at most two neighbours of the
value; the first grid with a neighbour inside the interval gives the digits, and of two
neighbours inside it the nearer one is taken, on a tie the even one. If a point of a grid lies in
the interval then so does one of the value's two neighbours on that grid, which is why looking at
the neighbours is enough.
-/
import Gatehouse.Number.Binary

set_option autoImplicit false

namespace Gatehouse.Number

/-- **Decimal number** `digits * 10 ^ exponent`. -/
structure Decimal where
  /-- The digits as one number. -/
  digits : Nat
  /-- The power of ten of the last digit. -/
  exponent : Int
  deriving DecidableEq, Repr

/-- The reals that round to a positive number, over one denominator. -/
structure RoundingInterval where
  value : Nat
  low : Nat
  high : Nat
  /-- The common denominator. -/
  scale : Nat
  /-- Whether the ends themselves round to the number. -/
  closed : Bool
  deriving Repr

/-- The interval of `mantissa * 2 ^ exponent`. Below a power of two the step is half as wide. -/
def BinaryFormat.interval (f : BinaryFormat) (mantissa : Nat) (exponent : Int) :
    RoundingInterval :=
  let factor := 1 <<< (exponent - 2).toNat
  let below := if mantissa = 1 <<< (f.precision - 1) ∧ f.minExponent < exponent then 1 else 2
  { value := 4 * mantissa * factor
    low := (4 * mantissa - below) * factor
    high := (4 * mantissa + 2) * factor
    scale := 1 <<< (2 - exponent).toNat
    closed := mantissa % 2 = 0 }

/-- The power of ten of the leading digit of `n / d`, for positive `n` and `d`. -/
def leadingPower (n d : Nat) : Int :=
  if d ≤ n then (Nat.toDigits 10 (n / d)).length - 1
  else
    let width := (Nat.toDigits 10 (d / n)).length
    if d ≤ n * Nat.pow 10 (width - 1) then 1 - (width : Int) else -(width : Int)

/-- Whether `q * 10 ^ power` lies in the interval. -/
def RoundingInterval.contains (i : RoundingInterval) (q : Nat) (power : Int) : Bool :=
  let x := q * Nat.pow 10 power.toNat * i.scale
  let unit := Nat.pow 10 (-power).toNat
  if i.closed then i.low * unit ≤ x && x ≤ i.high * unit
  else i.low * unit < x && x < i.high * unit

/-- The neighbour of the value on the grid of `10 ^ power` that lies in the interval, the nearer of
two. -/
def RoundingInterval.pick? (i : RoundingInterval) (power : Int) : Option Nat :=
  let unit := Nat.pow 10 (-power).toNat
  let step := Nat.pow 10 power.toNat * i.scale
  let q := i.value * unit / step
  let r := i.value * unit % step
  match i.contains q power, i.contains (q + 1) power with
  | true, false => some q
  | false, true => some (q + 1)
  | false, false => none
  | true, true =>
    if 2 * r < step then some q
    else if step < 2 * r then some (q + 1)
    else if q % 2 = 0 then some q else some (q + 1)

/-- Trailing zeros moved into the exponent. -/
def trimZeros : Nat → Nat → Int → Decimal
  | 0, digits, exponent => ⟨digits, exponent⟩
  | fuel + 1, digits, exponent =>
    if digits ≠ 0 ∧ digits % 10 = 0 then trimZeros fuel (digits / 10) (exponent + 1)
    else ⟨digits, exponent⟩

/-- **The shortest decimal** of a positive number `mantissa * 2 ^ exponent` of the format. Seventeen
digits always suffice for eight bytes. -/
def BinaryFormat.shortest (f : BinaryFormat) (mantissa : Nat) (exponent : Int) : Decimal :=
  let i := f.interval mantissa exponent
  let lead := leadingPower i.value i.scale
  let found := (List.range 17).findSome? fun (extra : Nat) =>
    (i.pick? (lead - extra)).map fun q => trimZeros 20 q (lead - extra)
  found.getD ⟨0, 0⟩

end Gatehouse.Number
