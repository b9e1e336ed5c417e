/-
Reading TOML documents.

A document is a sequence of lines, each of which is empty, a key with its value, or a header
that says which table the following lines belong to. Arrays may run over several lines, tables
in braces may not.
-/
import Gatehouse.Toml.Number
import Gatehouse.Toml.Tree

set_option autoImplicit false

namespace Gatehouse.Toml

open Gatehouse.Config

/-- The parts of a key without its last one, and that one. -/
def splitKey : List String → List String × String
  | [] => ([], "")
  | [key] => ([], key)
  | part :: rest => let (path, key) := splitKey rest; (part :: path, key)

/-- A date or time as a configuration tree: a table with one entry, so that no reader takes it for a
text. -/
def dateNode (text : String) : Node := .table [("date-time", .text text)]

/-- A value that begins with a digit or a sign. -/
def numeric? (text : List Char) : Option (Node × List Char) :=
  match dateTime? text with
  | some (written, rest) => some (dateNode written, rest)
  | none =>
    match float? text with
    | some (number, rest) => some (.real number, rest)
    | none => (integer? text).map fun r => (.integer r.1, r.2)

mutual

/-- The value at the front of a text, inside so many arrays and tables in braces. -/
def value? : Nat → Nat → List Char → Option (Node × List Char)
  | 0, _, _ => none
  | _ + 1, _, [] => none
  | fuel + 1, depth, c :: rest =>
    if c = '"' ∨ c = '\'' then (string? (c :: rest)).map fun r => (.text r.1, r.2)
    else if c = '[' then
      if depth + 1 < depthLimit then
        (items? fuel (depth + 1) rest).map fun r => (.list r.1, r.2)
      else none
    else if c = '\x7b' then
      if depth + 1 < depthLimit then
        match skipBlanks rest with
        | '\x7d' :: after => some (.table [], after)
        | text =>
          (entries? fuel (depth + 1) [] text).map fun r => (.table (entriesToNodes r.1), r.2)
      else none
    else if c = 't' then (expectWord? "true" (c :: rest)).map (.bool true, ·)
    else if c = 'f' then (expectWord? "false" (c :: rest)).map (.bool false, ·)
    else numeric? (c :: rest)

/-- The items of an array up to its closing bracket. -/
def items? : Nat → Nat → List Char → Option (List Node × List Char)
  | 0, _, _ => none
  | fuel + 1, depth, text =>
    match skipLines text with
    | ']' :: rest => some ([], rest)
    | text =>
      match value? fuel depth text with
      | none => none
      | some (item, after) =>
        match skipLines after with
        | ',' :: rest => (items? fuel depth rest).map fun r => (item :: r.1, r.2)
        | ']' :: rest => some ([item], rest)
        | _ => none

/-- The entries of a table in braces from one of them on, up to the closing brace, added to those
before. -/
def entries? : Nat → Nat → Table Item → List Char → Option (Table Item × List Char)
  | 0, _, _, _ => none
  | fuel + 1, depth, before, text =>
    match key? text with
    | some (parts, '=' :: rest) =>
      match value? fuel depth (skipBlanks rest) with
      | none => none
      | some (node, after) =>
        let (path, key) := splitKey parts
        match setValue path key node before with
        | none => none
        | some entries =>
          match skipBlanks after with
          | ',' :: rest => entries? fuel depth entries rest
          | '\x7d' :: rest => some (entries, rest)
          | _ => none
    | _ => none

end

/-- A key and its value, up to the end of the line. -/
def assignment? (draft : Draft) (text : List Char) : Option (Draft × List Char) :=
  match key? text with
  | some (parts, '=' :: rest) => do
    let (node, after) ← value? (2 * text.length + 2) 0 (skipBlanks rest)
    let after ← endOfLine? after
    let (path, key) := splitKey parts
    let draft ← draft.assign path key node
    return (draft, after)
  | _ => none

/-- A header, up to the end of the line. -/
def header? (draft : Draft) (text : List Char) : Option (Draft × List Char) :=
  match text with
  | '[' :: '[' :: rest =>
    match key? rest with
    | some (parts, ']' :: ']' :: after) => do
      let after ← endOfLine? after
      let (path, key) := splitKey parts
      let draft ← draft.openArrayTable path key
      return (draft, after)
    | _ => none
  | '[' :: rest =>
    match key? rest with
    | some (parts, ']' :: after) => do
      let after ← endOfLine? after
      let (path, key) := splitKey parts
      let draft ← draft.openTable path key
      return (draft, after)
    | _ => none
  | _ => none

/-- The lines of a document. The fuel is the length of the text. -/
def lines? : Nat → Draft → List Char → Option Draft
  | 0, _, _ => none
  | fuel + 1, draft, text =>
    match skipBlanks text with
    | [] => some draft
    | '#' :: rest =>
      match endOfLine? ('#' :: rest) with
      | some after => lines? fuel draft after
      | none => none
    | '[' :: rest =>
      match header? draft ('[' :: rest) with
      | some (draft, after) => lines? fuel draft after
      | none => none
    | text =>
      match lineBreak? text with
      | some after => lines? fuel draft after
      | none =>
        match assignment? draft text with
        | some (draft, after) => lines? fuel draft after
        | none => none

/-- The text without a byte order mark. -/
def dropMark : List Char → List Char
  | '\uFEFF' :: rest => rest
  | text => text

/-- **The document of a text.** -/
def parse? (s : String) : Option Node :=
  let text := dropMark s.toList
  match lines? (text.length + 1) Draft.start text with
  | none => none
  | some draft => draft.close.map fun root => .table (entriesToNodes root)

end Gatehouse.Toml
