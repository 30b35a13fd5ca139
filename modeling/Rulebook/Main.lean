import Rulebook.CommandLine.Run

/-!
# The program

Reads the files that the arguments name, runs the command and prints its outcome.
-/

namespace Rulebook.CommandLine

/-- The content of a file. A path through something that is no directory fails when it is opened, a
directory when it is read. -/
def readFile (path : String) : IO (Except FileFault String) := do
  try
    return .ok (← IO.FS.readFile path)
  catch
    | .noFileOrDirectory .. => return .error .missing
    | .inappropriateType (some _) .. => return .error .notDirectory
    | .inappropriateType none .. => return .error .directory
    | .invalidArgument .. => return .error .nameTooLong
    | _ => return .error .notText

def readFiles (arguments : List String) : IO Files := do
  match Invocation.ofArguments arguments with
  | .error _ => return fun _ => .error .missing
  | .ok invocation =>
      let contents ← invocation.paths.mapM fun path => do return (path, ← readFile path)
      return fun path => (contents.lookup path).getD (.error .missing)

end Rulebook.CommandLine

def main (arguments : List String) : IO UInt32 := do
  let files ← Rulebook.CommandLine.readFiles arguments
  let outcome := Rulebook.CommandLine.run files arguments
  IO.print outcome.output
  IO.eprint outcome.errors
  return outcome.code.toUInt32
