/-
From a configuration file to a configuration.

The file has to be text, the text a TOML document whose values are of the expected kinds, and the
configuration without faults.
-/
import Gatehouse.Config.Validation
import Gatehouse.Toml.Parser

set_option autoImplicit false

namespace Gatehouse.Config

/-- Why there is no configuration. -/
inductive LoadError where
  /-- There is no file, or it is no text. -/
  | unreadable
  /-- The text is no TOML document, or a value is of the wrong kind. -/
  | malformed
  /-- The configuration has faults. -/
  | unsound (faults : List Fault)
  deriving DecidableEq, Repr

def LoadError.message : LoadError → String
  | .unreadable => "IO error"
  | .malformed => "Parse error"
  | .unsound faults =>
    "Validation failed: "
      ++ String.intercalate ", " (faults.map fun f => f.field ++ ": " ++ f.message)

/-- The configuration, if it has no faults. -/
def check (c : Config) : Except LoadError Config :=
  match faults c with
  | [] => .ok c
  | faults => .error (.unsound faults)

/-- **The configuration of a text.** -/
def ofToml (text : String) : Except LoadError Config :=
  match (Toml.parse? text).bind ofNode? with
  | none => .error .malformed
  | some c => check c

/-- **The configuration of a file,** given its content if there is such a file. -/
def ofFile (content : Option Bytes) : Except LoadError Config :=
  match content.bind Bytes.toString? with
  | none => .error .unreadable
  | some text => ofToml text

end Gatehouse.Config
