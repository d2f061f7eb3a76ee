import LooseC.CommandLine.Options

/-!
# Writing a command line

`Options.toArguments` writes options as arguments: each option once, in a fixed order, and the files
behind two dashes, where nothing is taken for an option. The arguments are read back as the same
options (`ofArguments_toArguments`), so every setting can be asked for.
-/

set_option autoImplicit false

namespace LooseC

/-- The choice as it is written. -/
def ColourChoice.name : ColourChoice → String
  | .auto => "auto"
  | .always => "always"
  | .never => "never"

namespace Options

/-- One way to write the options: each once, and the files behind two dashes. -/
def toArguments (o : Options) : List String :=
  (if o.tokens then ["--tokens"] else []) ++ (if o.positions then ["--positions"] else []) ++
    (match o.colour with
      | some choice => ["--color", choice.name]
      | none => []) ++
    List.replicate o.verbosity "--verbose" ++ "--" :: o.files

variable {o : Options} {files arguments : List String}

/-! ### Reading the parts -/

/-- Behind two dashes every argument is a file. -/
theorem foldlM_addFile (h : "" ∉ files) :
    files.foldlM addFile o = .ok { o with files := o.files ++ files } := by
  induction files generalizing o with
  | nil =>
    rw [List.append_nil]
    rfl
  | cons file files ih =>
    rw [List.mem_cons, not_or] at h
    rw [List.foldlM_cons, addFile, if_neg (Ne.symm h.1)]
    show files.foldlM addFile { o with files := o.files ++ [file] } = _
    rw [ih h.2, List.append_assoc]
    rfl

/-- Each `--verbose` adds one to the verbosity. -/
theorem addAll_verbose (n : Nat) :
    addAll o (List.replicate n "--verbose" ++ arguments) =
      addAll { o with verbosity := o.verbosity + n } arguments := by
  induction n generalizing o with
  | zero => rfl
  | succ n ih =>
    rw [List.replicate_succ, List.cons_append]
    show addAll { o with verbosity := o.verbosity + 1 } _ = _
    rw [ih, Nat.add_assoc, Nat.add_comm 1 n]

/-- The flag for tokens, given or not. -/
theorem addAll_tokens (tokens : Bool) (h : o.tokens = false) :
    addAll o ((if tokens then ["--tokens"] else []) ++ arguments) =
      addAll { o with tokens := tokens } arguments := by
  obtain ⟨itsTokens, positions, colour, verbosity, files⟩ := o
  cases h
  cases tokens <;> rfl

/-- The flag for positions, given or not. -/
theorem addAll_positions (positions : Bool) (h : o.positions = false) :
    addAll o ((if positions then ["--positions"] else []) ++ arguments) =
      addAll { o with positions := positions } arguments := by
  obtain ⟨tokens, itsPositions, colour, verbosity, files⟩ := o
  cases h
  cases positions <;> rfl

/-- The choice of colours, given or not. -/
theorem addAll_colour (colour : Option ColourChoice) (h : o.colour = none) :
    addAll o ((match colour with
        | some choice => ["--color", choice.name]
        | none => []) ++ arguments) =
      addAll { o with colour := colour } arguments := by
  obtain ⟨tokens, positions, itsColour, verbosity, files⟩ := o
  cases h
  cases colour with
  | none => rfl
  | some choice => cases choice <;> rfl

/-- Every setting can be asked for, with any files whose names are not empty. -/
theorem ofArguments_toArguments (hfiles : o.files ≠ []) (hnames : "" ∉ o.files) :
    ofArguments o.toArguments = .ok o := by
  have hread : addAll .empty o.toArguments = .ok o := by
    simp only [toArguments, List.append_assoc]
    rw [addAll_tokens o.tokens rfl, addAll_positions o.positions rfl, addAll_colour o.colour rfl,
      addAll_verbose]
    show o.files.foldlM addFile _ = _
    rw [foldlM_addFile hnames]
    simp [empty]
  rw [ofArguments, hread]
  exact if_neg hfiles

end Options

end LooseC
