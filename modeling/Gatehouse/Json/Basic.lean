/-
JSON documents as values.

An object is a list of fields in document order. `Json.object` can hold any list; the reader keeps
the names distinct, by letting a later value take the place of an earlier one under the same name.
-/
import Gatehouse.Number.Shortest

set_option autoImplicit false

namespace Gatehouse.Json

open Gatehouse.Number

/-- **JSON number:** an integer of at most 64 bits, or a finite double. -/
inductive Numeral where
  | integer (value : Int)
  | real (negative : Bool) (mantissa : Nat) (exponent : Int)
  deriving DecidableEq, Repr

/-- The number in a binary format. -/
def Numeral.toBinary (f : BinaryFormat) : Numeral → Binary
  | .integer i => f.ofInt i
  | .real s m e => f.convert (.finite s m e)

end Gatehouse.Json

namespace Gatehouse

/-- **JSON document.** -/
inductive Json where
  | null
  | bool (value : Bool)
  | number (value : Json.Numeral)
  | string (value : String)
  | array (items : List Json)
  | object (fields : List (String × Json))
  deriving Repr

namespace Json

def nat (n : Nat) : Json := .number (.integer n)

def field? (name : String) : Json → Option Json
  | .object fields => List.lookup name fields
  | _ => none

end Json
end Gatehouse
