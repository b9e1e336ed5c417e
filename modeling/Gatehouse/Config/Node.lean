/-
Configuration documents as trees.

Configuration can be written in several notations; all of them are read into one tree. The
readers below take a value of a certain kind out of a node, or nothing when the node is of
another kind. A record may be given by name or by position: its fields are a table, or a list
with the first fields in order.
-/
import Gatehouse.Json.Basic
import Gatehouse.Table

set_option autoImplicit false

namespace Gatehouse.Config

open Gatehouse.Number

/-- **Configuration tree.** -/
inductive Node where
  /-- Explicitly nothing. -/
  | null
  | bool (value : Bool)
  | integer (value : Int)
  /-- A double. -/
  | real (value : Binary)
  | text (value : String)
  | list (items : List Node)
  | table (entries : List (String × Node))
  deriving Repr

namespace Node

/-! ## From JSON -/

mutual

/-- A JSON document as a configuration tree. -/
def ofJson : Json → Node
  | .null => .null
  | .bool b => .bool b
  | .number (.integer i) => .integer i
  | .number (.real s m e) => .real (.finite s m e)
  | .string s => .text s
  | .array items => .list (listOfJson items)
  | .object fields => .table (tableOfJson fields)

def listOfJson : List Json → List Node
  | [] => []
  | item :: rest => ofJson item :: listOfJson rest

def tableOfJson : List (String × Json) → List (String × Node)
  | [] => []
  | (name, value) :: rest => (name, ofJson value) :: tableOfJson rest

end

/-! ## Readers -/

def bool? : Node → Option Bool
  | .bool b => some b
  | _ => none

def text? : Node → Option String
  | .text s => some s
  | _ => none

def nat? : Node → Option Nat
  | .integer i => if 0 ≤ i then some i.toNat else none
  | _ => none

/-- A number in single precision. An integer is rounded once, a double once more. -/
def single? : Node → Option Binary
  | .integer i => some (BinaryFormat.single.ofInt i)
  | .real x => some (BinaryFormat.single.convert x)
  | _ => none

/-- A value that may be explicitly absent. -/
def optional? {α : Type} (read : Node → Option α) : Node → Option (Option α)
  | .null => some none
  | node => (read node).map some

/-- A list whose items are all of one kind. -/
def list? {α : Type} (read : Node → Option α) : Node → Option (List α)
  | .list items => items.mapM read
  | _ => none

/-- A table whose values are all of one kind. -/
def table? {α : Type} (read : Node → Option α) : Node → Option (Table α)
  | .table entries => entries.mapM fun entry => (read entry.2).map (entry.1, ·)
  | _ => none

/-- Whether a node says nothing more than that it is there. -/
def isBare : Node → Bool
  | .null => true
  | .list [] => true
  | .table [] => true
  | _ => false

/-- One of several named values: its name, or a table with the name as its only key and
nothing under it. -/
def choice? {α : Type} (label : α → String) (all : List α) : Node → Option α
  | .text s => all.find? fun a => label a = s
  | .table [(name, value)] => if value.isBare then all.find? fun a => label a = name else none
  | _ => none

/-- The fields of a record with the given names. -/
def fields? (names : List String) : Node → Option (Table Node)
  | .table entries => some entries
  | .list items => some (names.zip items)
  | _ => none

end Node

/-- One field of a record: its standard value when it is not given. -/
def field? {α : Type} (fields : Table Node) (name : String) (read : Node → Option α)
    (standard : α) : Option α :=
  match List.lookup name fields with
  | none => some standard
  | some node => read node

end Gatehouse.Config
