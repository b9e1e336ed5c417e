/-
What the readers of several formats have in common: digits, and characters that have to come next.
-/

set_option autoImplicit false

namespace Gatehouse

/-- The value of a digit in a base up to sixteen. Letters count in either case. -/
def digitValue? (base : Nat) (c : Char) : Option Nat :=
  let value : Option Nat :=
    if c.isDigit then some (c.toNat - 48)
    else if 'a' ≤ c ∧ c ≤ 'f' then some (c.toNat - 87)
    else if 'A' ≤ c ∧ c ≤ 'F' then some (c.toNat - 55)
    else none
  value.bind fun d => if d < base then some d else none

/-- The digit of a value below sixteen, in lower case. -/
def hexDigit (value : Nat) : Char := Nat.digitChar value

/-- The text after a certain character. -/
def expect? (c : Char) : List Char → Option (List Char)
  | d :: rest => if d = c then some rest else none
  | [] => none

/-- The text after a certain word. -/
def expectWord? (word : String) (text : List Char) : Option (List Char) :=
  word.toList.isPrefixOf? text

end Gatehouse
