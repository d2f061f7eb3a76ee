/-!
# Command-line arguments

Arguments are read from left to right. The first one that settles the outcome, a request for
the version or the help text or a usage error, ends the reading, whatever follows it. Only
when all arguments are read is it clear whether a file is given.

One-letter options can share a dash. Two dashes alone make every later argument a file, and
one dash alone is a file.
-/

set_option autoImplicit false

namespace LooseC

/-- When to colour the output. -/
inductive ColourChoice where
  | auto | always | never
deriving DecidableEq

/-- The choice as it is written, in lower case only. -/
def ColourChoice.ofName? : String → Option ColourChoice
  | "auto" => some .auto
  | "always" => some .always
  | "never" => some .never
  | _ => none

/-- The output is coloured. Whether it goes to a terminal matters to `auto` alone. -/
def ColourChoice.active (choice : ColourChoice) (terminal : Bool) : Bool :=
  match choice with
  | .auto => terminal
  | .always => true
  | .never => false

/-- What the arguments ask for. -/
structure Options where
  /-- Show the tokens and not the tree. -/
  tokens : Bool
  /-- Show the place of each node. -/
  positions : Bool
  /-- The choice of colour, if one was made. -/
  colour : Option ColourChoice
  /-- How often more log output was asked for. -/
  verbosity : Nat
  /-- The files, in the order given. -/
  files : List String
deriving DecidableEq

/-- Nothing asked for yet. -/
def Options.empty : Options := ⟨false, false, none, 0, []⟩

/-- Why arguments make no sense. -/
inductive UsageError where
  | unknownOption (argument : String)
  | unexpectedValue (argument : String)
  | repeated (option : String)
  | badColour (value : String)
  | missingColour
  | emptyFile
  | noFile
deriving DecidableEq

/-- The wording of a usage error. -/
def UsageError.message : UsageError → String
  | .unknownOption argument => s!"unexpected argument '{argument}'"
  | .unexpectedValue argument => s!"'{argument}' takes no value"
  | .repeated option => s!"'{option}' is given more than once"
  | .badColour value => s!"'{value}' is no colour choice (auto, always, never)"
  | .missingColour => "'--color' needs a value (auto, always, never)"
  | .emptyFile => "a file name is empty"
  | .noFile => "no file is given"

/-- What settles the outcome before all arguments are read. -/
inductive Verdict where
  | version
  | help
  | misuse (e : UsageError)
deriving DecidableEq

namespace Options

/-- One more file. -/
def addFile (o : Options) (file : String) : Except Verdict Options :=
  if file = "" then .error (.misuse .emptyFile) else .ok { o with files := o.files ++ [file] }

/-- A colour choice by name. -/
def setColour (o : Options) (value : String) : Except Verdict Options :=
  match o.colour, ColourChoice.ofName? value with
  | some _, _ => .error (.misuse (.repeated "--color"))
  | none, none => .error (.misuse (.badColour value))
  | none, some choice => .ok { o with colour := some choice }

/-- The one-letter options behind one dash, from left to right. -/
def addShort (argument : String) : Options → List Char → Except Verdict Options
  | o, [] => .ok o
  | o, 'v' :: letters => addShort argument { o with verbosity := o.verbosity + 1 } letters
  | _, 'V' :: _ => .error .version
  | _, 'h' :: _ => .error .help
  | _, _ :: _ => .error (.misuse (.unknownOption argument))

/-- An option written out after two dashes, without a value. -/
def addLong (o : Options) : String → Except Verdict Options
  | "--tokens" =>
    if o.tokens then .error (.misuse (.repeated "--tokens")) else .ok { o with tokens := true }
  | "--positions" =>
    if o.positions then .error (.misuse (.repeated "--positions"))
    else .ok { o with positions := true }
  | "--verbose" => .ok { o with verbosity := o.verbosity + 1 }
  | "--version" => .error .version
  | "--help" => .error .help
  | argument => .error (.misuse (.unknownOption argument))

/-- The options that take no value. -/
def flags : List String := ["--tokens", "--positions", "--verbose", "--version", "--help"]

/-- An option with a value after an equals sign. -/
def addLongWithValue (o : Options) (argument name value : String) : Except Verdict Options :=
  if name = "--color" then o.setColour value
  else if flags.contains name then .error (.misuse (.unexpectedValue argument))
  else .error (.misuse (.unknownOption argument))

/-- One argument that is complete in itself. The first equals sign separates an option and its
value. -/
def addArgument (o : Options) (argument : String) : Except Verdict Options :=
  match argument.toList with
  | '-' :: '-' :: _ =>
    match argument.toList.dropWhile (· != '=') with
    | [] => o.addLong argument
    | _ :: value =>
      o.addLongWithValue argument (String.ofList (argument.toList.takeWhile (· != '=')))
        (String.ofList value)
  | '-' :: c :: letters => addShort argument o (c :: letters)
  | _ => o.addFile argument

/-- The argument is an option and cannot be the value of the option before it. -/
def looksLikeOption (argument : String) : Bool :=
  match argument.toList with
  | '-' :: _ :: _ => true
  | _ => false

/-- All arguments from one on. -/
def addAll : Options → List String → Except Verdict Options
  | o, [] => .ok o
  | o, "--" :: files => files.foldlM addFile o
  | o, "--color" :: arguments =>
    match arguments with
    | value :: arguments =>
      if looksLikeOption value then .error (.misuse .missingColour)
      else
        match o.setColour value with
        | .ok o => addAll o arguments
        | .error verdict => .error verdict
    | [] => .error (.misuse .missingColour)
  | o, argument :: arguments =>
    match o.addArgument argument with
    | .ok o => addAll o arguments
    | .error verdict => .error verdict

/-- What a whole command line asks for. -/
def ofArguments (arguments : List String) : Except Verdict Options :=
  match addAll .empty arguments with
  | .ok o => if o.files = [] then .error (.misuse .noFile) else .ok o
  | .error verdict => .error verdict

end Options

end LooseC
