import LooseC.Files.Fault
import LooseC.Lexer.Stream
import LooseC.Parse.Unit

/-!
# Snapshots

A snapshot is a program as it stood at one moment: its name, its tokens, and the tree over
them. `Snapshot.analyze` makes one from a source text. It lexes, then parses, and the first
error of either kind is the answer; `analyze_eq` puts the two stages together without their
events.
-/

set_option autoImplicit false

namespace LooseC

/-- Why no snapshot could be made. -/
inductive AnalysisError where
  | read (path : String) (fault : ReadFault)
  | lex (e : LexError)
  | parse (e : ParseError)
deriving DecidableEq

/-- The wording of an analysis error. Lexical errors and parse errors speak for themselves. -/
def AnalysisError.message : AnalysisError → String
  | .read path fault => s!"failed to read {path}: {fault.message}"
  | .lex e => toString e
  | .parse e => toString e

/-- An error is shown by its message. -/
instance : ToString AnalysisError := ⟨AnalysisError.message⟩

/-- An analysed program. The spans of the tree are ranges of the token list. -/
structure Snapshot where
  name : String
  tokens : List Token
  tree : Node
deriving DecidableEq

namespace Snapshot

/-- The snapshot of a source with the events on the way. -/
def analyzeTraced (name source : String) : Traced (Except AnalysisError Snapshot) :=
  let lexed := tokenizeTraced source
  match lexed.value with
  | .error e => ⟨lexed.events, .error (.lex e)⟩
  | .ok tokens =>
    let parsed := parseTraced tokens
    match parsed.value with
    | .error e => ⟨lexed.events ++ parsed.events, .error (.parse e)⟩
    | .ok tree =>
      ⟨lexed.events ++ parsed.events ++ [.analysed name tokens.length],
        .ok ⟨name, tokens, tree⟩⟩

/-- The snapshot of a source. -/
def analyze (name source : String) : Except AnalysisError Snapshot :=
  (analyzeTraced name source).value

/-- The text that a reader finds under a path. A failure is kept with the path. -/
def readSource (read : String → Except ReadFault String) (path : String) :
    Except AnalysisError String :=
  (read path).mapError (.read path)

/-- The snapshot of the text that a reader finds under a path. The path is its name. -/
def analyzePath (read : String → Except ReadFault String) (path : String) :
    Except AnalysisError Snapshot := do
  let source ← readSource read path
  analyze path source

/-- The snapshots of named sources, each on its own. -/
def analyzeBatch (sources : List (String × String)) : List (Except AnalysisError Snapshot) :=
  sources.map fun source => analyze source.1 source.2

/-- The snapshots of the texts under several paths, each on its own. -/
def analyzePaths (read : String → Except ReadFault String) (paths : List String) :
    List (Except AnalysisError Snapshot) :=
  paths.map (analyzePath read)

/-- An analysis is the lexer and then the parser. -/
theorem analyze_eq (name source : String) :
    analyze name source =
      match tokenize source with
      | .error e => .error (.lex e)
      | .ok tokens =>
        match LooseC.parse tokens with
        | .error e => .error (.parse e)
        | .ok tree => .ok ⟨name, tokens, tree⟩ := by
  simp only [analyze, analyzeTraced, LooseC.tokenize, LooseC.parse]
  split
  · simp_all
  · split <;> simp_all

/-- An analysis succeeds exactly if both stages do, and the snapshot keeps what they answer. -/
theorem analyze_eq_ok_iff {name source : String} {s : Snapshot} : analyze name source = .ok s ↔
    tokenize source = .ok s.tokens ∧ LooseC.parse s.tokens = .ok s.tree ∧ s.name = name := by
  obtain ⟨itsName, tokens, tree⟩ := s
  rw [analyze_eq]
  cases tokenize source with
  | error e => simp
  | ok read =>
    dsimp only
    cases hparse : LooseC.parse read with
    | error e => grind
    | ok parsed => grind

/-- An analysis that can be computed is checked by what is asked of its snapshot. -/
theorem exists_analyze_eq_ok {α : Type} {name source : String} {ask : Snapshot → α} {answer : α}
    (h : (analyze name source).toOption.map ask = some answer) :
    ∃ s, analyze name source = .ok s ∧ ask s = answer := by
  cases hsnap : analyze name source with
  | error e =>
    rw [hsnap] at h
    cases h
  | ok s =>
    rw [hsnap] at h
    exact ⟨s, rfl, Option.some.inj h⟩

end Snapshot

end LooseC
