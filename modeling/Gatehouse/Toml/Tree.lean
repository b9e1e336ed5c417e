/-
The tables of a TOML document while it is being read.

A table can come into being in three ways: under its own header (or as the whole document), implied
by the header of a table below it, or by a dotted key. An implied table may get its own header
later, once. A table under its own header is closed to dotted keys from outside, and a table made by
dotted keys takes further dotted keys but no header. What is written as a value is closed
altogether. A path that leads to an array of tables leads into the last of them.
-/
import Gatehouse.Config.Node

set_option autoImplicit false

namespace Gatehouse.Toml

open Gatehouse.Config

/-- How a table came into being. -/
inductive TableKind where
  /-- Under its own header, or as the whole document. -/
  | headed
  /-- By the header of a table below it. -/
  | implied
  /-- By a dotted key. -/
  | dotted
  deriving DecidableEq, Repr

/-- **What stands under a key.** -/
inductive Item where
  /-- A value. -/
  | value (node : Node)
  | table (kind : TableKind) (entries : List (String × Item))
  /-- An array of tables, the last one first. -/
  | tables (newestFirst : List (List (String × Item)))
  deriving Repr

mutual

/-- An item as part of a configuration tree. -/
def Item.toNode : Item → Node
  | .value node => node
  | .table _ entries => .table (entriesToNodes entries)
  | .tables newestFirst => .list (tablesToNodes newestFirst).reverse

def entriesToNodes : List (String × Item) → List (String × Node)
  | [] => []
  | (key, item) :: rest => (key, item.toNode) :: entriesToNodes rest

def tablesToNodes : List (List (String × Item)) → List Node
  | [] => []
  | entries :: rest => .table (entriesToNodes entries) :: tablesToNodes rest

end

/-- Changes the table that a path leads to. The tables on the way are made if need be, of the given
kind; a dotted key may not enter a table that has its own header. -/
def updateAt (made : TableKind) (change : TableKind → Table Item → Option (Table Item)) :
    List String → TableKind → Table Item → Option (Table Item)
  | [], kind, entries => change kind entries
  | key :: rest, _, entries =>
    match List.lookup key entries with
    | none =>
      (updateAt made change rest made []).map fun below => Table.put key (.table made below) entries
    | some (.value _) => none
    | some (.table kind below) =>
      if made = .dotted ∧ kind = .headed then none
      else
        (updateAt made change rest kind below).map fun below =>
          Table.put key (.table kind below) entries
    | some (.tables []) => none
    | some (.tables (newest :: older)) =>
      (updateAt made change rest .headed newest).map fun newest =>
        Table.put key (.tables (newest :: older)) entries

/-- Adds an entry to a table. A dotted key has to end in a table made by dotted keys, and any other
key in one that is not. -/
def addEntry (isDotted : Bool) (key : String) (item : Item) (kind : TableKind)
    (entries : Table Item) : Option (Table Item) :=
  if (kind == .dotted) != isDotted then none
  else if (List.lookup key entries).isSome then none
  else some (entries ++ [(key, item)])

/-- **Sets a value** under a key, given by its last part and the parts before it. -/
def setValue (path : List String) (key : String) (node : Node) (entries : Table Item) :
    Option (Table Item) :=
  updateAt .dotted (addEntry (!path.isEmpty) key (.value node)) path .headed entries

/-! ## Headers -/

/-- **A document while it is being read.** -/
structure Draft where
  /-- The whole document, apart from the entries of the current table. -/
  root : Table Item
  /-- The path of the current table, last part apart; `none` for the document itself. -/
  header : Option (List String × String)
  /-- Whether the current table is one of an array of tables. -/
  inArray : Bool
  /-- The entries of the current table. -/
  current : Table Item
  deriving Repr

namespace Draft

def start : Draft := { root := [], header := none, inArray := false, current := [] }

/-- Adds one more table to an array of tables. -/
def pushTable (key : String) (table : Table Item) (_ : TableKind) (entries : Table Item) :
    Option (Table Item) :=
  match List.lookup key entries with
  | none => some (Table.put key (.tables [table]) entries)
  | some (.tables older) => some (Table.put key (.tables (table :: older)) entries)
  | some _ => none

/-- The whole document, with the current table in its place. -/
def close (d : Draft) : Option (Table Item) :=
  match d.header with
  | none => some d.current
  | some (path, key) =>
    let change := if d.inArray then pushTable key d.current
      else fun _ entries => some (Table.put key (.table .headed d.current) entries)
    updateAt .implied change path .headed d.root

/-- What stands under a key at the end of a path, which is made if need be. -/
def itemAt? (path : List String) (key : String) (root : Table Item) : Option (Option Item) :=
  match path with
  | [] => some (List.lookup key root)
  | first :: rest =>
    match List.lookup first root with
    | none => some none
    | some (.value _) => none
    | some (.table _ below) => itemAt? rest key below
    | some (.tables []) => none
    | some (.tables (newest :: _)) => itemAt? rest key newest

/-- **The header of a table.** A table that was only implied so far keeps its entries. -/
def openTable (d : Draft) (path : List String) (key : String) : Option Draft := do
  let root ← d.close
  match ← itemAt? path key root with
  | none => some { root, header := some (path, key), inArray := false, current := [] }
  | some (.table .implied entries) =>
    some { root, header := some (path, key), inArray := false, current := entries }
  | some _ => none

/-- **The header of a table in an array of tables.** -/
def openArrayTable (d : Draft) (path : List String) (key : String) : Option Draft := do
  let root ← d.close
  match ← itemAt? path key root with
  | none => some { root, header := some (path, key), inArray := true, current := [] }
  | some (.tables _) => some { root, header := some (path, key), inArray := true, current := [] }
  | some _ => none

/-- A key and its value in the current table. -/
def assign (d : Draft) (path : List String) (key : String) (node : Node) : Option Draft :=
  (setValue path key node d.current).map fun current => { d with current }

end Draft
end Gatehouse.Toml
