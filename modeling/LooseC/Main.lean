import LooseC.CommandLine.Report

/-!
# The program

Reads the files that the command line names and prints the report on them. All decisions are
made by `runCommandLine`, which sees the files only through the texts read here.
-/

set_option autoImplicit false

namespace LooseC

/-- What a failed system call means for the reader of a file. -/
def ReadFault.ofSystem : IO.Error → ReadFault
  | .noFileOrDirectory .. => .notFound
  | .inappropriateType _ code _ =>
    if code = 20 then .notDirectory else .isDirectory
  | e => .system (toString e)

/-- The text of a file on disk. -/
def readFile (path : String) : IO (Except ReadFault String) := do
  try
    return decodeText (← IO.FS.readBinFile path)
  catch e =>
    return .error (.ofSystem e)

/-- The files that the arguments name, if the arguments make sense. -/
def namedFiles (arguments : List String) : List String :=
  match Options.ofArguments arguments with
  | .ok o => o.files
  | .error _ => []

end LooseC

open LooseC in
/-- Reads the named files, and prints what the report holds: the output, the errors and the exit
code. -/
def main (arguments : List String) : IO UInt32 := do
  let contents ← (namedFiles arguments).mapM fun path => return (path, ← readFile path)
  let read (path : String) := (contents.lookup path).getD (.error .notFound)
  let terminal ← (← IO.getStdout).isTty
  let report := runCommandLine terminal read arguments
  IO.print report.output
  IO.eprint report.errors
  return report.exitCode.toUInt32
