import LooseC.CommandLine.Report
import LooseC.Proofs.CommandLine.Arguments
import LooseC.Proofs.Dump.Colour

/-!
# The two ways of showing files

Asked for the tokens, the program lexes the files one by one. Otherwise it analyses all files as
one batch and renders each snapshot. Either way there is one outcome for each file, in the order of
the arguments, and the report is written by going through the files and their outcomes side by side.
`Written.foldl_add` says what this loop writes, by induction over the files, and so the report is
put together from the outcomes alone (`Collects`). What the line of a failed file shows is
`errorLine_shows`.

The two ways stop at the same errors, as long as these come before the parser
(`dumpFileTokens_eq_error_iff`). What only the analysis finds are parse errors of files that lex
(`fails_in_tree_iff`). `modes_agree` says both of whole command lines, and that the outcome of a
file depends on the content of this file only.
-/

set_option autoImplicit false

namespace LooseC

/-- A result is an error. -/
def isFailure {ε α : Type} : Except ε α → Bool
  | .ok _ => false
  | .error _ => true

/-- The errors that are found before the parser begins. -/
def AnalysisError.beforeParse : AnalysisError → Bool
  | .read _ _ | .lex _ => true
  | .parse _ => false

namespace Options

/-- The block that a file adds to the output, if it has not failed. -/
def block? (o : Options) (path : String) : Except AnalysisError String → Option String
  | .ok dump => some (outputBlock (decide (1 < o.files.length)) path dump)
  | .error _ => none

/-- The line that a file adds to the errors, if it has failed. -/
def errorLine? (o : Options) (terminal : Bool) (path : String) :
    Except AnalysisError String → Option String
  | .ok _ => none
  | .error e => some (errorLine .standard (o.dump terminal).colour path e)

end Options

/-- The report is put together from one outcome for each file: the blocks of the files that have not
failed and the error lines of those that have, both in the order of the arguments, and the exit
code tells whether a file has failed. -/
structure Collects (o : Options) (terminal : Bool) (outcomes : List (Except AnalysisError String))
    (r : Report) : Prop where
  length_eq : outcomes.length = o.files.length
  exitCode_eq_one : r.exitCode = 1 ↔ ∃ outcome ∈ outcomes, isFailure outcome = true
  exitCode_eq_zero : r.exitCode = 0 ↔ ∀ outcome ∈ outcomes, isFailure outcome = false
  output : r.output = String.join ((o.files.zip outcomes).filterMap fun f => o.block? f.1 f.2)
  errors : r.errors =
    String.join ((o.files.zip outcomes).filterMap fun f => o.errorLine? terminal f.1 f.2)

/-- What the two ways of showing a file make of one content. They fail on it with the same line if
the failure comes before the parser, and the other failures are those of the parser. -/
structure FailsAlike (o : Options) (terminal : Bool) (path : String)
    (content : Except ReadFault String) (lexed analyzed : Except AnalysisError String) : Prop where
  fails_iff : isFailure lexed = true ↔ ∃ e, analyzed = .error e ∧ e.beforeParse = true
  same_line : isFailure lexed = true →
    o.errorLine? terminal path lexed = o.errorLine? terminal path analyzed
  fails_in_tree_iff : isFailure analyzed = true ∧ isFailure lexed = false ↔
    ∃ source ts e, content = .ok source ∧ tokenize source = .ok ts ∧ parse ts = .error e

/-! ### One file -/

/-- The dump of the tree over the file under a path. -/
def dumpFileTree (dump : DumpOptions) (read : String → Except ReadFault String) (path : String) :
    Except AnalysisError String :=
  (Snapshot.analyzePath read path).map fun snap =>
    dumpTree .standard dump snap.tree snap.tokens

section
variable {dump : DumpOptions} {read : String → Except ReadFault String} {path : String}

/-- The stages that a file goes through if its tokens are shown. -/
theorem dumpFileTokens_eq : dumpFileTokens dump read path = match read path with
    | .error fault => .error (.read path fault)
    | .ok source => match tokenize source with
      | .error e => .error (.lex e)
      | .ok ts => .ok (dumpTokens .standard dump ts) := by
  rw [dumpFileTokens, Snapshot.readSource]
  cases read path with
  | error fault => rfl
  | ok source =>
    show ((tokenize source).mapError AnalysisError.lex).bind _ = _
    dsimp only
    cases tokenize source <;> rfl

/-- The stages that a file goes through if its tree is shown. -/
theorem dumpFileTree_eq : dumpFileTree dump read path = match read path with
    | .error fault => .error (.read path fault)
    | .ok source => match tokenize source with
      | .error e => .error (.lex e)
      | .ok ts => match parse ts with
        | .error e => .error (.parse e)
        | .ok tree => .ok (dumpTree .standard dump tree ts) := by
  rw [dumpFileTree, Snapshot.analyzePath, Snapshot.readSource]
  cases read path with
  | error fault => rfl
  | ok source =>
    show (Snapshot.analyze path source).map _ = _
    rw [Snapshot.analyze_eq]
    dsimp only
    cases tokenize source with
    | error e => rfl
    | ok ts =>
      dsimp only
      cases parse ts <;> rfl

/-- Lexing fails where the analysis fails before the parser, with the same error. -/
theorem dumpFileTokens_eq_error_iff {e : AnalysisError} :
    dumpFileTokens dump read path = .error e ↔
      dumpFileTree dump read path = .error e ∧ e.beforeParse = true := by
  rw [dumpFileTokens_eq, dumpFileTree_eq]
  -- A failed stage is told by its error: a fault of the reader, of the lexer, or of the parser.
  cases read path with
  | error fault =>
    constructor
    · intro h
      cases h
      exact ⟨rfl, rfl⟩
    · exact And.left
  | ok source =>
    dsimp only
    cases tokenize source with
    | error lexError =>
      constructor
      · intro h
        cases h
        exact ⟨rfl, rfl⟩
      · exact And.left
    | ok ts =>
      dsimp only
      cases parse ts with
      | ok tree => simp
      | error parseError =>
        constructor
        · intro h
          cases h
        · rintro ⟨h, hbefore⟩
          cases h
          cases hbefore

/-- What fails in the analysis only is a text that lexes to tokens that the parser rejects. -/
theorem fails_in_tree_iff :
    isFailure (dumpFileTree dump read path) = true ∧
        isFailure (dumpFileTokens dump read path) = false ↔
      ∃ source ts e, read path = .ok source ∧ tokenize source = .ok ts ∧ parse ts = .error e := by
  rw [dumpFileTokens_eq, dumpFileTree_eq]
  cases read path with
  | error fault => simp [isFailure]
  | ok source =>
    cases htokens : tokenize source with
    | error lexError => simp [isFailure, htokens]
    | ok ts =>
      cases htree : parse ts with
      | ok tree => simp [isFailure, htokens, htree]
      | error parseError => simp [isFailure, htokens, htree]

/-- A result is a failure exactly if it is an error. -/
theorem isFailure_iff {ε α : Type} {result : Except ε α} :
    isFailure result = true ↔ ∃ e, result = .error e := by
  cases result with
  | ok a => simp [isFailure]
  | error e => simp [isFailure]

/-- Both modes report a file that cannot be read or lexed in the same way. -/
theorem failsAlike_dumpFile (o : Options) (terminal : Bool) :
    FailsAlike o terminal path (read path) (dumpFileTokens dump read path)
      (dumpFileTree dump read path) where
  fails_iff := by
    rw [isFailure_iff]
    simp only [dumpFileTokens_eq_error_iff]
  same_line := by
    intro h
    obtain ⟨e, he⟩ := isFailure_iff.mp h
    rw [he, (dumpFileTokens_eq_error_iff.mp he).1]
  fails_in_tree_iff := fails_in_tree_iff

end

/-- The line of a failed file shows the path and the message of its error, with a colon between them
and at most escape codes around each. -/
theorem errorLine_shows {wrap : Wrapping} (hwrap : wrap.Lawful) (colour : Bool) (path : String)
    (e : AnalysisError) : ∃ a b c d, IsCodes a ∧ IsCodes b ∧ IsCodes c ∧ IsCodes d ∧
      errorLine wrap colour path e =
        (a ++ path ++ b) ++ ": " ++ (c ++ e.message ++ d) ++ "\n" := by
  cases colour with
  | false =>
    refine ⟨"", "", "", "", .nil, .nil, .nil, .nil, ?_⟩
    simp [errorLine]
  | true =>
    obtain ⟨a, b, ha, hb, hpath⟩ := hwrap .bold path
    obtain ⟨c, d, hc, hd, hmessage⟩ := hwrap (.colour Palette.standard.error) e.message
    refine ⟨a, b, c, d, ha, hb, hc, hd, ?_⟩
    rw [errorLine, if_pos rfl, hpath, hmessage]

/-! ### Reports -/

section
variable {o : Options} {terminal : Bool} {read : String → Except ReadFault String}

/-- Analysing the files as a batch and rendering the snapshots is to dump file by file. -/
theorem treeOutcomes_eq_map :
    o.treeOutcomes terminal read = o.files.map (dumpFileTree (o.dump terminal) read) := by
  rw [Options.treeOutcomes, Snapshot.analyzePaths, List.map_map]
  rfl

/-- Beside the files stands what each file is mapped to. -/
theorem eq_of_mem_zip {α β : Type} {f g : α → β} {xs : List α} {a : α} {b c : β}
    (h : (a, b, c) ∈ xs.zip ((xs.map f).zip (xs.map g))) : b = f a ∧ c = g a := by
  rw [List.zip_map', ← List.map_prod_left_eq_zip] at h
  obtain ⟨d, -, hd⟩ := List.mem_map.mp h
  cases hd
  exact ⟨rfl, rfl⟩

/-- One more file adds its block and its error line, one of them left out. -/
theorem Written.add_eq (w : Written) (file : String × Except AnalysisError String) :
    w.add (decide (1 < o.files.length)) (o.dump terminal).colour file =
      ⟨w.output ++ (o.block? file.1 file.2).getD "",
        w.errors ++ (o.errorLine? terminal file.1 file.2).getD "",
        w.failed || isFailure file.2⟩ := by
  obtain ⟨path, outcome⟩ := file
  cases outcome with
  | ok dump => simp [add, Options.block?, Options.errorLine?, isFailure]
  | error e => simp [add, Options.block?, Options.errorLine?, isFailure]

/-- The next text is in front of the joined texts, if there is one. -/
theorem join_filterMap_cons {α : Type} (f : α → Option String) (a : α) (xs : List α) :
    String.join ((a :: xs).filterMap f) = (f a).getD "" ++ String.join (xs.filterMap f) := by
  cases h : f a with
  | none => rw [List.filterMap_cons_none h, Option.getD_none, String.empty_append]
  | some part => rw [List.filterMap_cons_some h, Option.getD_some, String.join_cons]

/-- Going through files and outcomes writes the blocks of the files that have not failed and the
lines of those that have, in order, behind what is written before. The induction is over the
files. -/
theorem Written.foldl_add (files : List (String × Except AnalysisError String)) (w : Written) :
    files.foldl (Written.add (decide (1 < o.files.length)) (o.dump terminal).colour) w =
      ⟨w.output ++ String.join (files.filterMap fun f => o.block? f.1 f.2),
        w.errors ++ String.join (files.filterMap fun f => o.errorLine? terminal f.1 f.2),
        w.failed || files.any fun f => isFailure f.2⟩ := by
  induction files generalizing w with
  | nil => simp
  | cons file files ih =>
    rw [List.foldl_cons, add_eq, ih, join_filterMap_cons, join_filterMap_cons, List.any_cons,
      String.append_assoc, String.append_assoc, Bool.or_assoc]

/-- The report is put together from the outcomes of the files, whichever are asked for. -/
theorem collects_reportOptions (tokens : Bool) {outcomes : List (Except AnalysisError String)}
    (houtcomes : { o with tokens := tokens }.outcomes terminal read = outcomes)
    (hlength : outcomes.length = o.files.length) :
    Collects o terminal outcomes (reportOptions { o with tokens := tokens } terminal read) := by
  have hreport : reportOptions { o with tokens := tokens } terminal read =
      ((o.files.zip outcomes).foldl (Written.add (decide (1 < o.files.length))
        (o.dump terminal).colour) .nothing).report := by
    rw [reportOptions, houtcomes]
    rfl
  -- Going through the pairs passes every outcome, since there are as many as files.
  have hany : (o.files.zip outcomes).any (fun f => isFailure f.2) = outcomes.any isFailure := by
    have hsnd : (o.files.zip outcomes).map Prod.snd = outcomes :=
      List.map_snd_zip (Nat.le_of_eq hlength)
    have hmap := congrArg (List.any · isFailure) hsnd
    rw [List.any_map] at hmap
    exact hmap
  rw [Written.foldl_add, hany] at hreport
  rw [hreport]
  constructor
  · exact hlength
  · rw [← List.any_eq_true]
    simp [Written.report, Written.nothing]
  · simp [Written.report, Written.nothing]
  · simp [Written.report, Written.nothing]
  · simp [Written.report, Written.nothing]

/-- There is one outcome for each file where tokens are dumped. -/
theorem length_tokenOutcomes : (o.tokenOutcomes terminal read).length = o.files.length := by
  rw [Options.tokenOutcomes, List.length_map]

/-- And one for each where trees are. -/
theorem length_treeOutcomes : (o.treeOutcomes terminal read).length = o.files.length := by
  rw [treeOutcomes_eq_map, List.length_map]

end

/-- Arguments that can be read make a report with their options. -/
theorem runCommandLine_of_ofArguments {o : Options} {arguments : List String}
    (h : Options.ofArguments arguments = .ok o) (terminal : Bool)
    (read : String → Except ReadFault String) :
    runCommandLine terminal read arguments = reportOptions o terminal read := by
  rw [runCommandLine, h]

/-- A command line that shows files names one. -/
theorem files_ne_nil_of_ofArguments {o : Options} {arguments : List String}
    (h : Options.ofArguments arguments = .ok o) : o.files ≠ [] := by
  unfold Options.ofArguments at h
  split at h
  · split at h
    · cases h
    · cases h
      assumption
  · cases h

/-! ### Command lines -/

/-- The outcome of every file other than the one at `path` is the same in both runs. -/
def OthersAlike (o : Options) (path : String)
    (outcomes outcomes' : List (Except AnalysisError String)) : Prop :=
  ∀ file outcome outcome', (file, outcome, outcome') ∈ o.files.zip (outcomes.zip outcomes') →
    file ≠ path → outcome = outcome'

/-- How the reports on tokens and on trees go together, whatever the files hold. Both are put
together from one outcome for each file, the two outcomes of a file fail alike, and the outcomes of
a file do not change with the content of another. -/
structure ModesAgree (o : Options) (terminal : Bool)
    (onTokens onTrees : (String → Except ReadFault String) → Report) : Prop where
  files_ne_nil : o.files ≠ []
  tokens_collects : ∀ read, Collects o terminal (o.tokenOutcomes terminal read) (onTokens read)
  trees_collects : ∀ read, Collects o terminal (o.treeOutcomes terminal read) (onTrees read)
  fails_alike : ∀ read path lexed analyzed, (path, lexed, analyzed) ∈
      o.files.zip ((o.tokenOutcomes terminal read).zip (o.treeOutcomes terminal read)) →
    FailsAlike o terminal path (read path) lexed analyzed
  others_alike : ∀ read read' path, (∀ other, other ≠ path → read' other = read other) →
    OthersAlike o path (o.tokenOutcomes terminal read) (o.tokenOutcomes terminal read') ∧
    OthersAlike o path (o.treeOutcomes terminal read) (o.treeOutcomes terminal read')

/-- Two command lines that differ in nothing but the wish for tokens fail alike, file by file, and
the files do not influence each other. Every setting has such command lines
(`Options.ofArguments_toArguments`). -/
theorem modes_agree {o : Options} {forTokens forTrees : List String} (terminal : Bool)
    (htokens : Options.ofArguments forTokens = .ok { o with tokens := true })
    (htrees : Options.ofArguments forTrees = .ok { o with tokens := false }) :
    ModesAgree o terminal (fun read => runCommandLine terminal read forTokens)
      (fun read => runCommandLine terminal read forTrees) where
  files_ne_nil := by
    have hfiles := files_ne_nil_of_ofArguments htokens
    exact hfiles
  tokens_collects := by
    intro read
    rw [runCommandLine_of_ofArguments htokens]
    exact collects_reportOptions true rfl length_tokenOutcomes
  trees_collects := by
    intro read
    rw [runCommandLine_of_ofArguments htrees]
    exact collects_reportOptions false rfl length_treeOutcomes
  fails_alike := by
    intro read path lexed analyzed hmem
    rw [treeOutcomes_eq_map, Options.tokenOutcomes] at hmem
    obtain ⟨rfl, rfl⟩ := eq_of_mem_zip hmem
    exact failsAlike_dumpFile o terminal
  others_alike := by
    intro read read' path hread
    -- What becomes of another file is computed from its own content.
    have hothers {dump : (String → Except ReadFault String) → String → Except AnalysisError String}
        (hdump : ∀ file, read' file = read file → dump read file = dump read' file) :
        OthersAlike o path (o.files.map (dump read)) (o.files.map (dump read')) := by
      intro file outcome outcome' hmem hother
      obtain ⟨rfl, rfl⟩ := eq_of_mem_zip hmem
      exact hdump file (hread file hother)
    rw [treeOutcomes_eq_map, treeOutcomes_eq_map]
    refine ⟨hothers fun file hfile => ?_, hothers fun file hfile => ?_⟩
    · rw [dumpFileTokens_eq, dumpFileTokens_eq, hfile]
    · rw [dumpFileTree_eq, dumpFileTree_eq, hfile]

/-- Options that show files with places and without colours. -/
def showPlaces (tokens : Bool) (files : List String) : Options :=
  ⟨tokens, true, some .never, 0, files⟩

/-- Two files. One holds a declaration without its end, and the other is missing. -/
def readUnfinished : String → Except ReadFault String
  | "a.c" => .ok "int"
  | _ => .error .notFound

/-- A file that lexes and does not parse, and a file that is missing. -/
theorem modes_agree_unfinished :
    ModesAgree (showPlaces false ["a.c", "b.c"]) false
        (fun read => runCommandLine false read (showPlaces true ["a.c", "b.c"]).toArguments)
        (fun read => runCommandLine false read (showPlaces false ["a.c", "b.c"]).toArguments) ∧
      (runCommandLine false readUnfinished (showPlaces true ["a.c", "b.c"]).toArguments).output =
        "==> a.c <==\nINT:int:0:0\n" ∧
      (runCommandLine false readUnfinished (showPlaces false ["a.c", "b.c"]).toArguments).output =
        "" := by
  refine ⟨?_, by decide +kernel, by decide +kernel⟩
  exact modes_agree false
    (Options.ofArguments_toArguments (by decide) (by decide))
    (Options.ofArguments_toArguments (by decide) (by decide))

end LooseC
