import LooseC.Proofs.Grammar.Unit
import LooseC.Proofs.Lexing.Run
import LooseC.Proofs.Trace.Notes
import LooseC.Snapshot.Basic

/-!
# The events of an analysis

The events of an analysis that succeeds can be read off the snapshot: the tokens one by one and
their number, the top-level constructs one by one (`Parse.constructEvents`) and their number, and
the snapshot. `analyze_events` says so for the records of the events, as a reader of the log sees
them.
-/

set_option autoImplicit false

namespace LooseC

/-! ### The stages -/

/-- A lexing that succeeds notes each token that it read, and then how many there were. -/
theorem events_tokenizeTraced {source : String} {tokens : List Token}
    (h : tokenize source = .ok tokens) :
    (tokenizeTraced source).events =
      tokens.map Event.readToken ++ [.tokenized tokens.length] := by
  obtain ⟨hfailure, rfl⟩ := Lexer.tokenize_eq_ok_iff.mp h
  rw [tokenizeTraced, TokenStream.events_tokenize, TokenStream.run_ofLexer, hfailure]

/-- A parse that succeeds notes the constructs of its tree, and then the counts. -/
theorem events_parseTraced {ts : List Token} {tree : Node} (h : parse ts = .ok tree) :
    (parseTraced ts).events = tree.children.flatMap Parse.constructEvents ++
        [.parsedUnit tree.children.length ts.length] ∧
      tree.Everywhere Node.OneGuard := by
  obtain ⟨j, hread⟩ := parse_eq_ok_iff_reads.mp h
  exact Parse.notes_unit 0 tree j hread

namespace Snapshot

variable {name source : String} {snap : Snapshot}

/-- An analysis that succeeds notes what lexing and parsing do, and then itself. -/
theorem events_analyzeTraced (h : analyze name source = .ok snap) :
    (analyzeTraced name source).events = (tokenizeTraced source).events ++
      (parseTraced snap.tokens).events ++ [.analysed name snap.tokens.length] := by
  obtain ⟨htokens, htree, -⟩ := analyze_eq_ok_iff.mp h
  rw [LooseC.tokenize] at htokens
  rw [LooseC.parse] at htree
  simp only [analyzeTraced, htokens, htree]

end Snapshot

/-! ### Records -/

/-- What a reader of the log sees of an event: its level, its words and its details. -/
def Event.record (e : Event) : String × String × List (String × FieldValue) :=
  (e.level.name, e.message, e.fields)

namespace Snapshot

/-- The records of a top-level construct: none for a directive. For a declaration, one for each
`if`, `while` and `for` statement inside it, in pre-order, and then one for the declaration. -/
def constructRecords (n : Node) : List (String × String × List (String × FieldValue)) :=
  if n.kind = .declaration then
    n.guards.map (fun g => ("TRACE", "guard",
      [("keyword", .text g.1.text), ("start", .number g.2.start), ("end", .number g.2.stop)])) ++
    [("TRACE", "declaration", [("start", .number n.span.start), ("end", .number n.span.stop)])]
  else []

/-- The records of a construct are those of its events. -/
theorem map_record_constructEvents (n : Node) :
    (Parse.constructEvents n).map Event.record = constructRecords n := by
  unfold Parse.constructEvents constructRecords
  split
  · rw [List.map_append, List.map_map]
    rfl
  · rfl

/-- The log of an analysis that succeeds is determined by the snapshot. The guards of a tree are
those of its `if`, `while` and `for` statements, and each of these has one expression among its
children, which is the guard. -/
theorem analyze_events {name source : String} {snap : Snapshot}
    (h : analyze name source = .ok snap) :
    (analyzeTraced name source).events.map Event.record =
        snap.tokens.map (fun t => ("TRACE", "read token", [("token", .text (toString t))])) ++
        [("DEBUG", "tokenized input", [("count", .number snap.tokens.length)])] ++
        snap.tree.children.flatMap constructRecords ++
        [("DEBUG", "parsed unit", [("top_level", .number snap.tree.children.length),
            ("tokens", .number snap.tokens.length)]),
          ("DEBUG", "analysed snapshot", [("name", .text name),
            ("tokens", .number snap.tokens.length)])] ∧
      snap.tree.Everywhere Node.OneGuard := by
  obtain ⟨htokens, htree, -⟩ := analyze_eq_ok_iff.mp h
  obtain ⟨hparsed, hguards⟩ := events_parseTraced htree
  refine ⟨?_, hguards⟩
  have hconstructs : (snap.tree.children.flatMap Parse.constructEvents).map Event.record =
      snap.tree.children.flatMap constructRecords := by
    rw [List.map_flatMap]
    simp only [map_record_constructEvents]
  rw [events_analyzeTraced h, events_tokenizeTraced htokens, hparsed]
  simp only [List.map_append, List.map_map, hconstructs, List.append_assoc]
  rfl

/-- The loop in the body of a `do` statement is in the log, the `do` statement itself is not. -/
theorem analyze_events_doWhile :
    ∃ snap, analyze "m" "int f() { do while (a) b; while (c); if (d) ; }" = .ok snap ∧
      snap.tree.children.flatMap constructRecords =
        [("TRACE", "guard", [("keyword", .text "while"), ("start", .number 8), ("end", .number 9)]),
          ("TRACE", "guard", [("keyword", .text "if"), ("start", .number 19), ("end", .number 20)]),
          ("TRACE", "declaration", [("start", .number 0), ("end", .number 23)])] ∧
      (analyzeTraced "m" "int f() { do while (a) b; while (c); if (d) ; }").events.map
          Event.record =
        snap.tokens.map (fun t => ("TRACE", "read token", [("token", .text (toString t))])) ++
        [("DEBUG", "tokenized input", [("count", .number snap.tokens.length)])] ++
        snap.tree.children.flatMap constructRecords ++
        [("DEBUG", "parsed unit", [("top_level", .number snap.tree.children.length),
            ("tokens", .number snap.tokens.length)]),
          ("DEBUG", "analysed snapshot", [("name", .text "m"),
            ("tokens", .number snap.tokens.length)])] ∧
      snap.tree.Everywhere Node.OneGuard := by
  have hrecords : (analyze "m" "int f() { do while (a) b; while (c); if (d) ; }").toOption.map
      (fun snap => snap.tree.children.flatMap constructRecords) =
        some [("TRACE", "guard",
            [("keyword", .text "while"), ("start", .number 8), ("end", .number 9)]),
          ("TRACE", "guard", [("keyword", .text "if"), ("start", .number 19), ("end", .number 20)]),
          ("TRACE", "declaration", [("start", .number 0), ("end", .number 23)])] := by
    decide +kernel
  cases hsnap : analyze "m" "int f() { do while (a) b; while (c); if (d) ; }" with
  | error e =>
    rw [hsnap] at hrecords
    cases hrecords
  | ok snap =>
    rw [hsnap] at hrecords
    exact ⟨snap, rfl, Option.some.inj hrecords, analyze_events hsnap⟩

end Snapshot

end LooseC
