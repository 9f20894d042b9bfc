/-
  The program: reads the words of the command line and the file of a catalog, and writes the
  output or the reason of a failure.
-/
import Interpolation.CommandLine

namespace Interpolation.CommandLine

/-- Why a file cannot be read, in the words of the system. -/
def unreadableReason : IO.Error → String
  | .noFileOrDirectory .. | .noSuchThing .. => "No such file or directory (os error 2)"
  | .permissionDenied .. => "Permission denied (os error 13)"
  | .inappropriateType .. => "Is a directory (os error 21)"
  | e => e.toString

/-- The text of a file. -/
def readText (path : String) : IO (Except String String) := do
  try
    let bytes ← IO.FS.readBinFile path
    match String.fromUTF8? bytes with
    | some text => return .ok text
    | none => return .error "stream did not contain valid UTF-8"
  catch e => return .error (unreadableReason e)

/-- Does what some words ask for, and tells the exit code. -/
def run (words : List String) : IO UInt32 := do
  match parse? words with
  | none =>
    IO.eprintln "Usage: placefmt [OPTIONS] <PATTERN> [ARGS]..."
    return 2
  | some .version =>
    IO.println versionLine
    return 0
  | some (.render options pattern args) =>
    let content ← match options.catalog with
      | none => pure (.ok "")
      | some path => readText path
    match output (fun _ => content) options pattern args with
    | .ok text =>
      IO.println text
      return 0
    | .error failure =>
      IO.eprintln failure.message
      return 1

end Interpolation.CommandLine

def main (words : List String) : IO UInt32 := Interpolation.CommandLine.run words
