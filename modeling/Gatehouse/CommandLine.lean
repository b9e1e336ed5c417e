/-
What the command line asks for, and what it is told.

The command checks a configuration: whether it can be read, has no faults, and gates can be
assembled from it. Without a file the standard configuration is checked.
-/
import Gatehouse.Config.Loading
import Gatehouse.Pipeline.Guard

set_option autoImplicit false

namespace Gatehouse

/-- **What the command line asks for.** -/
inductive Command where
  /-- Check the configuration in a file, or the standard one. -/
  | check (file : Option String)
  | help
  /-- Something that is not understood. -/
  | unknown (argument : String)
  deriving DecidableEq, Repr

namespace Command

def fileOptions : List String := ["-c", "--config"]

def helpOptions : List String := ["-h", "--help"]

/-- **The command of some arguments.** -/
def ofArguments : List String → Command
  | [] => .check none
  | [argument] => if helpOptions.contains argument then .help else .unknown argument
  | option :: file :: rest =>
    if !fileOptions.contains option then .unknown option
    else match rest with
      | [] => .check (some file)
      | argument :: _ => .unknown argument

end Command

def usage : String :=
  "Checks the configuration of a gatehouse.\n\nUsage: gatehouse [--config FILE]\n\n" ++
  "  -c, --config FILE  TOML configuration file; standard settings apply when omitted\n" ++
  "  -h, --help         show this text"

/-- **Report** on a configuration: in words, and whether all is well. -/
structure Report where
  text : String
  sound : Bool
  deriving DecidableEq, Repr

namespace Report

/-- The report on a configuration that was loaded, or on the failure to load it. -/
def ofLoaded : Except Config.LoadError Config → Report
  | .error error => { text := error.message, sound := false }
  | .ok config =>
    match Pipeline.Guard.assemble config Pipeline.Layers.all with
    | .error error => { text := error.message, sound := false }
    | .ok guard =>
      { text :=
          "Configuration is sound: " ++ toString guard.rules.rules.length ++ " rules, listening on "
            ++ config.bindAddress
        sound := true }

end Report
end Gatehouse
