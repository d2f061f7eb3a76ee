import LooseC.CommandLine.Options
import LooseC.Dump.Tokens
import LooseC.Dump.Tree
import LooseC.Snapshot.Basic

/-!
# Reports

The command line shows files. Each file is dumped as a tree or, if only its tokens are asked
for, as a token list, and the files do not influence each other. A dump goes to the standard
output, after a header if several files are given. An error goes to the standard error. The
exit code tells whether a file failed.
-/

set_option autoImplicit false

namespace LooseC

/-- What a run of the program writes and how it exits. -/
structure Report where
  exitCode : Nat
  output : String
  errors : String
deriving DecidableEq

/-- How the program is called. -/
def programName : String := "snapcc"

/-- The text that shows the version. -/
def versionText : String := s!"{programName} 0.1.0\n"

/-- The text that shows how to call the program. -/
def helpText : String :=
  "Loose C front end for program snapshots\n\n" ++
  s!"Usage: {programName} [OPTIONS] <FILES>...\n\n" ++
  "Options:\n" ++
  "      --tokens         Print the token stream instead of the syntax tree\n" ++
  "      --positions      Append the line and column of each node's first token\n" ++
  "      --color <COLOR>  When to colour the output [possible values: auto, always, never]\n" ++
  "  -v, --verbose...     Increase log verbosity\n" ++
  "  -h, --help           Print help\n" ++
  "  -V, --version        Print version\n"

/-- The dump layout that the options ask for. -/
def Options.dump (o : Options) (terminal : Bool) : DumpOptions where
  positions := o.positions
  colour := (o.colour.getD .auto).active terminal

/-- The dump of the tokens in the file under a path. -/
def dumpFileTokens (dump : DumpOptions) (read : String → Except ReadFault String)
    (path : String) : Except AnalysisError String := do
  let source ← Snapshot.readSource read path
  let ts ← (tokenize source).mapError .lex
  return dumpTokens .standard dump ts

/-- The outcomes of the files if only their tokens are shown. The files are lexed one by one. -/
def Options.tokenOutcomes (o : Options) (terminal : Bool)
    (read : String → Except ReadFault String) : List (Except AnalysisError String) :=
  o.files.map (dumpFileTokens (o.dump terminal) read)

/-- The outcomes of the files if their trees are shown. All files are analysed, and then the
snapshots are rendered. -/
def Options.treeOutcomes (o : Options) (terminal : Bool)
    (read : String → Except ReadFault String) : List (Except AnalysisError String) :=
  (Snapshot.analyzePaths read o.files).map
    (Except.map fun snap => dumpTree .standard (o.dump terminal) snap.tree snap.tokens)

/-- The outcomes of the files: a dump or an error for each. -/
def Options.outcomes (o : Options) (terminal : Bool) (read : String → Except ReadFault String) :
    List (Except AnalysisError String) :=
  if o.tokens then o.tokenOutcomes terminal read else o.treeOutcomes terminal read

/-- The dump of one file as it is printed, after a header if one is wanted. -/
def outputBlock (header : Bool) (path dump : String) : String :=
  (if header then s!"==> {path} <==\n" else "") ++ dump

/-- The line that reports a failed file, with and without colours. -/
def errorLine (wrap : Wrapping) (colour : Bool) (path : String) (e : AnalysisError) : String :=
  if colour then
    wrap .bold path ++ ": " ++ wrap (.colour Palette.standard.error) e.message ++ "\n"
  else path ++ ": " ++ e.message ++ "\n"

/-- What is written so far, and whether a file has failed. -/
structure Written where
  output : String
  errors : String
  failed : Bool

namespace Written

/-- Nothing is written yet. -/
def nothing : Written := ⟨"", "", false⟩

/-- One more file: its block of output, or the line that reports its error. -/
def add (header colour : Bool) (w : Written) (file : String × Except AnalysisError String) :
    Written :=
  match file.2 with
  | .ok dump => { w with output := w.output ++ outputBlock header file.1 dump }
  | .error e =>
    { w with errors := w.errors ++ errorLine .standard colour file.1 e, failed := true }

/-- The report when all files are written. -/
def report (w : Written) : Report := ⟨if w.failed then 1 else 0, w.output, w.errors⟩

end Written

/-- The report that the options ask for, with a reader for the files. The files and their outcomes
are gone through side by side. -/
def reportOptions (o : Options) (terminal : Bool) (read : String → Except ReadFault String) :
    Report :=
  let header := decide (1 < o.files.length)
  let files := o.files.zip (o.outcomes terminal read)
  (files.foldl (Written.add header (o.dump terminal).colour) .nothing).report

/-- The report on a call that shows no file. -/
def reportVerdict : Verdict → Report
  | .version => ⟨0, versionText, ""⟩
  | .help => ⟨0, helpText, ""⟩
  | .misuse e => ⟨2, "", s!"error: {e.message}\n"⟩

/-- The report that a command line asks for. -/
def runCommandLine (terminal : Bool) (read : String → Except ReadFault String)
    (arguments : List String) : Report :=
  match Options.ofArguments arguments with
  | .ok o => reportOptions o terminal read
  | .error verdict => reportVerdict verdict

end LooseC
