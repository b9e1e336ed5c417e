/-
The command line program.
-/
import Gatehouse.CommandLine

set_option autoImplicit false

namespace Gatehouse

/-- The content of a file, if it can be read. -/
def readFile? (path : String) : IO (Option Bytes) := do
  try
    return some (← IO.FS.readBinFile path).toList
  catch _ => return none

/-- The configuration in a file, or the standard one. -/
def loadConfig : Option String → IO (Except Config.LoadError Config)
  | none => return Config.check Config.standard
  | some path => return Config.ofFile (← readFile? path)

def Command.perform : Command → IO UInt32
  | .help => do
    IO.println usage
    return 0
  | .unknown argument => do
    IO.eprintln ("Unexpected argument: " ++ argument ++ "\n\n" ++ usage)
    return 2
  | .check file => do
    let report := Report.ofLoaded (← loadConfig file)
    if report.sound then
      IO.println report.text
      return 0
    else
      IO.eprintln report.text
      return 1

end Gatehouse

/-- Checks the configuration that the arguments name. -/
def main (arguments : List String) : IO UInt32 := (Gatehouse.Command.ofArguments arguments).perform
