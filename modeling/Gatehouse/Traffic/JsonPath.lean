/-
Paths to the values of a JSON document, and masking along them.

A path is a list of steps: into a named field of an object, or into each element of an array. It is
written with points between its parts, each wildcard as `[*]` after the part it follows, and with an
optional `$` in front; a text that has no step is no path.

Masking a path replaces what it addresses by a fixed text. A last step into a field replaces the
value of that field. A last step into the elements of an array replaces every scalar element, and
every field of an object that is an element; arrays among the elements are entered. A step that does
not fit the shape of the document addresses nothing.
-/
import Gatehouse.Json.Basic
import Gatehouse.Text.Blank

set_option autoImplicit false

namespace Gatehouse.Traffic

/-- One step of a path. -/
inductive PathStep where
  /-- Into the field of this name. -/
  | field (name : String)
  /-- Into each element. -/
  | each
  deriving DecidableEq, Repr

/-- **Path** into a JSON document. -/
structure JsonPath where
  steps : List PathStep
  deriving DecidableEq, Repr

namespace JsonPath

/-! ## Reading -/

/-- Takes the wildcards off a part that is given from its end to its start: how many there are, and
the rest. -/
def stripWildcards : List Char → Nat × List Char
  | ']' :: '*' :: '[' :: rest => let (n, name) := stripWildcards rest; (n + 1, name)
  | name => (0, name)

/-- The steps of one part. -/
def stepsOf (part : List Char) : List PathStep :=
  let (wildcards, reversed) := stripWildcards part.reverse
  (if reversed.isEmpty then [] else [.field (String.ofList reversed.reverse)])
    ++ List.replicate wildcards .each

/-- The text without the sign of the document root. -/
def stripRoot : List Char → List Char
  | '$' :: '.' :: rest => rest
  | '$' :: rest => rest
  | text => text

/-- **The path that a text describes,** if it has a step. -/
def ofString? (s : String) : Option JsonPath :=
  match ((stripRoot (trimBlanks s.toList)).splitOn '.').flatMap stepsOf with
  | [] => none
  | steps => some ⟨steps⟩

/-! ## Masking -/

mutual

/-- An array element that a path ends at, masked. -/
def maskElement (mask : String) : Json → Json
  | .object fields => .object (fields.map fun f => (f.1, .string mask))
  | .array items => .array (maskElements mask items)
  | _ => .string mask

/-- The elements of an array that a path ends at, masked. -/
def maskElements (mask : String) : List Json → List Json
  | [] => []
  | item :: rest => maskElement mask item :: maskElements mask rest

end

/-- The document with everything masked that some steps lead to. -/
def maskSteps (mask : String) : List PathStep → Json → Json
  | [], document => document
  | [.field name], .object fields =>
    .object (fields.map fun f => if f.1 = name then (f.1, .string mask) else f)
  | .field name :: rest, .object fields =>
    .object (fields.map fun f => if f.1 = name then (f.1, maskSteps mask rest f.2) else f)
  | [.each], .array items => .array (maskElements mask items)
  | .each :: rest, .array items => .array (items.map (maskSteps mask rest))
  | _, document => document

/-- **Masks** what a path addresses. -/
def mask (path : JsonPath) (value : String) (document : Json) : Json :=
  maskSteps value path.steps document

end JsonPath
end Gatehouse.Traffic
