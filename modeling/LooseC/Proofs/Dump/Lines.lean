import LooseC.Dump.Tokens
import LooseC.Proofs.Lexing.Multiline

/-!
# The lines of a dump

A dump without colours is written line by line, one line for each node or token, and a line is put
together from parts that hold no newline, the lexeme apart: names are made of capitals and low
lines (`NodeKind.mem_name`), numbers of digits. So the newlines of a dump are those that end its
lines and those within lexemes (`LinePerItem`).

`dump_lines` says so of both dumps of a program. There is exactly one line for each node or token
if no lexeme shown holds a newline, and only then, and only a quoted literal can hold one.
`dump_lines_literal` is a program where one does.
-/

set_option autoImplicit false

namespace LooseC

/-- The text consists of the lines, each ended by a newline. -/
structure IsLines (text : String) (lines : List String) : Prop where
  text_eq : text = String.join (lines.map fun line => line ++ "\n")
  newline_not_mem : ∀ line ∈ lines, '\n' ∉ line.toList

/-- The text is written item by item, each as a line and a newline. The other newlines of the text
are those within lexemes, so the text has just these lines if no lexeme holds one. -/
structure LinePerItem {α : Type} (text : String) (items : List α) (line lexeme : α → String) :
    Prop where
  text_eq : text = String.join (items.map fun a => line a ++ "\n")
  count_newline : text.toList.count '\n' =
    items.length + (items.flatMap fun a => (lexeme a).toList).count '\n'
  isLines_iff : IsLines text (items.map line) ↔ ∀ a ∈ items, '\n' ∉ (lexeme a).toList

/-- The place of a node's first token as it stands in a dump without colours. -/
def plainPlace (options : DumpOptions) : Option Token → String
  | some t =>
    if options.positions then s!" @{t.position.row + 1}:{t.position.column + 1}" else ""
  | none => ""

/-- The line of a node as it stands in a dump without colours: the depth, the name of the kind,
the first lexeme in brackets, and the place. -/
def plainTreeLine (options : DumpOptions) (ts : List Token) (v : Visit) : String :=
  String.ofList (List.replicate (v.depth * options.indent) ' ') ++ v.node.kind.name ++
    "[" ++ v.node.firstLexeme ts ++ "]" ++ plainPlace options (v.node.firstToken? ts)

/-- Without colours, the line of a node holds the plain texts, however styles are written. -/
theorem treeLine_plain {options : DumpOptions} (h : options.colour = false) (wrap : Wrapping)
    (ts : List Token) (v : Visit) : treeLine wrap options ts v = plainTreeLine options ts v := by
  have hsuffix (first : Option Token) :
      treeLineSuffix wrap options first = plainPlace options first := by
    cases first with
    | none => simp [treeLineSuffix, plainPlace]
    | some t => simp [treeLineSuffix, plainPlace, h, positionSuffix, Position.line,
        Position.lineColumn]
  simp [treeLine, treeLineFront, plainTreeLine, h, hsuffix]

/-- Without colours, the line of a token is its text form. -/
theorem tokenLine_plain {options : DumpOptions} (h : options.colour = false) (wrap : Wrapping)
    (t : Token) : tokenLine wrap options t = toString t := by
  simp [tokenLine, h]

/-! ### The characters of names and numbers -/

/-- The characters that names of kinds are made of. -/
def isNamePart (c : Char) : Bool := c.isUpper || c == '_'

/-- The names of the kinds of nodes are made of capitals and low lines. -/
theorem NodeKind.mem_name (kind : NodeKind) {c : Char} (h : c ∈ kind.name.toList) :
    isNamePart c = true := by
  have hall : ∀ kind ∈ NodeKind.all, kind.name.toList.all isNamePart = true := by decide +kernel
  exact List.all_eq_true.mp (hall kind kind.mem_all) c h

/-- And so are the names of the kinds of tokens. -/
theorem TokenKind.mem_name (kind : TokenKind) {c : Char} (h : c ∈ kind.name.toList) :
    isNamePart c = true := by
  have hall : ∀ kind ∈ TokenKind.all, kind.name.toList.all isNamePart = true := by decide +kernel
  exact List.all_eq_true.mp (hall kind kind.mem_all) c h

/-- No name of a kind of node holds a newline. -/
theorem NodeKind.newline_not_mem_name (kind : NodeKind) : '\n' ∉ kind.name.toList := by
  intro h
  cases kind.mem_name h

/-- Nor does one of a kind of token. -/
theorem TokenKind.newline_not_mem_name (kind : TokenKind) : '\n' ∉ kind.name.toList := by
  intro h
  cases kind.mem_name h

/-- Numbers are written in digits. -/
theorem isDigit_of_mem_toString {n : Nat} {c : Char} (h : c ∈ (toString n).toList) :
    c.isDigit = true := by
  rw [Nat.toString_eq_ofList_toDigits, String.toList_ofList] at h
  exact Nat.isDigit_of_mem_toDigits (by decide) (by decide) h

/-- The characters that places are made of. -/
def isPlacePart (c : Char) : Bool := c.isDigit || [' ', '@', ':'].contains c

/-- A number may be part of a place. -/
theorem isPlacePart_of_mem_toString {n : Nat} {c : Char} (h : c ∈ (toString n).toList) :
    isPlacePart c = true := by
  rw [isPlacePart, isDigit_of_mem_toString h, Bool.true_or]

/-- Two numbers with a colon between them. -/
theorem isPlacePart_of_mem_pair {row column : Nat} {c : Char}
    (h : c ∈ (toString row ++ ":" ++ toString column).toList) : isPlacePart c = true := by
  have hcolon : ":".toList.all isPlacePart = true := by decide
  rw [String.toList_append, String.toList_append, List.mem_append, List.mem_append] at h
  rcases h with (hrow | hmark) | hcolumn
  · exact isPlacePart_of_mem_toString hrow
  · exact List.all_eq_true.mp hcolon c hmark
  · exact isPlacePart_of_mem_toString hcolumn

/-- The text form of a position is two numbers. -/
theorem isPlacePart_of_mem_position {p : Position} {c : Char} (h : c ∈ (toString p).toList) :
    isPlacePart c = true := by
  apply isPlacePart_of_mem_pair
  exact h

/-- So is what is shown of it behind a node. -/
theorem isPlacePart_of_mem_positionSuffix {p : Position} {c : Char}
    (h : c ∈ (positionSuffix p).toList) : isPlacePart c = true := by
  have hmarks : " @".toList.all isPlacePart = true := by decide
  have hsuffix : positionSuffix p = " @" ++ (toString p.line ++ ":" ++ toString p.lineColumn) := by
    rw [← String.append_assoc, ← String.append_assoc]
    rfl
  rw [hsuffix, String.toList_append, List.mem_append] at h
  rcases h with hmark | hpair
  · exact List.all_eq_true.mp hmarks c hmark
  · exact isPlacePart_of_mem_pair hpair

/-- The text form of a position holds no newline. -/
theorem newline_not_mem_position (p : Position) : '\n' ∉ (toString p).toList := by
  intro h
  cases isPlacePart_of_mem_position h

/-- Nor does the place shown behind a node, if any is. -/
theorem newline_not_mem_plainPlace (options : DumpOptions) (first : Option Token) :
    '\n' ∉ (plainPlace options first).toList := by
  cases first with
  | none => simp [plainPlace]
  | some t =>
    rw [plainPlace]
    split
    · show '\n' ∉ (positionSuffix t.position).toList
      intro h
      cases isPlacePart_of_mem_positionSuffix h
    · simp

/-! ### The newlines of a line -/

/-- A node's line has the newlines of the lexeme it shows. -/
theorem count_newline_plainTreeLine (options : DumpOptions) (ts : List Token) (v : Visit) :
    (plainTreeLine options ts v).toList.count '\n' =
      (v.node.firstLexeme ts).toList.count '\n' := by
  simp [plainTreeLine, List.count_eq_zero.mpr v.node.kind.newline_not_mem_name,
    List.count_eq_zero.mpr (newline_not_mem_plainPlace _ _), List.count_replicate]

/-- A token's line has the newlines of its lexeme. -/
theorem count_newline_token (t : Token) :
    (toString t).toList.count '\n' = t.lexeme.toList.count '\n' := by
  show (t.kind.name ++ ":" ++ t.lexeme ++ ":" ++ toString t.position).toList.count '\n' = _
  simp [List.count_eq_zero.mpr t.kind.newline_not_mem_name,
    List.count_eq_zero.mpr (newline_not_mem_position _)]

/-! ### The lines of a dump -/

section
variable {α : Type} {text : String} {items : List α} {line lexeme : α → String}

/-- If each line has the newlines of one lexeme, a text written item by item has one newline for
each item, and those within the lexemes. -/
theorem count_newline_join (items : List α)
    (hcount : ∀ a ∈ items, (line a).toList.count '\n' = (lexeme a).toList.count '\n') :
    (String.join (items.map fun a => line a ++ "\n")).toList.count '\n' =
      items.length + (items.flatMap fun a => (lexeme a).toList).count '\n' := by
  -- Each item adds the newline at its end and those of its lexeme.
  induction items with
  | nil => rfl
  | cons a items ih =>
    rw [List.forall_mem_cons] at hcount
    simp only [List.map_cons, String.join_cons, String.toList_append, List.count_append,
      List.flatMap_cons, List.length_cons, hcount.1, ih hcount.2]
    have hend : "\n".toList.count '\n' = 1 := by decide
    omega

/-- If each line has the newlines of one lexeme, so has the text, apart from the ends of lines. -/
theorem LinePerItem.intro (htext : text = String.join (items.map fun a => line a ++ "\n"))
    (hcount : ∀ a, (line a).toList.count '\n' = (lexeme a).toList.count '\n') :
    LinePerItem text items line lexeme where
  text_eq := htext
  count_newline := by
    rw [htext]
    exact count_newline_join items fun a _ => hcount a
  isLines_iff := by
    -- A line holds a newline exactly if the lexeme that it shows does.
    have hmem (a : α) : '\n' ∉ (line a).toList ↔ '\n' ∉ (lexeme a).toList := by
      rw [← List.count_eq_zero, hcount, List.count_eq_zero]
    constructor
    · intro hlines a ha
      exact (hmem a).mp (hlines.newline_not_mem _ (List.mem_map_of_mem ha))
    · intro hlexeme
      constructor
      · rw [htext, List.map_map]
        rfl
      · intro l hl
        obtain ⟨a, ha, rfl⟩ := List.mem_map.mp hl
        exact (hmem a).mpr (hlexeme a ha)

end

/-- What is written as lines has as many newlines as lines. -/
theorem IsLines.count_newline {text : String} {lines : List String} (h : IsLines text lines) :
    text.toList.count '\n' = lines.length := by
  have hnone : ∀ line ∈ lines, line.toList.count '\n' = "".toList.count '\n' := by
    intro line hline
    rw [List.count_eq_zero.mpr (h.newline_not_mem line hline)]
    rfl
  have hempty : (lines.flatMap fun _ => "".toList) = [] :=
    List.flatMap_eq_nil_iff.mpr fun _ _ => rfl
  rw [h.text_eq, count_newline_join lines hnone, hempty, List.count_nil, Nat.add_zero]

/-- Without colours, both dumps of a program are written line by line: the tree dump with one line
for each node in the order of the walk, the token dump with one for each token. Each has exactly
these lines if no lexeme that it shows holds a newline, and only a quoted literal can hold one. -/
theorem dump_lines {name source : String} {snap : Snapshot} {wrap : Wrapping}
    {options : DumpOptions} (hsnap : Snapshot.analyze name source = .ok snap)
    (hplain : options.colour = false) :
    LinePerItem (dumpTree wrap options snap.tree snap.tokens) snap.tree.walk
      (plainTreeLine options snap.tokens) (fun v => v.node.firstLexeme snap.tokens) ∧
    LinePerItem (dumpTokens wrap options snap.tokens) snap.tokens toString Token.lexeme ∧
    ∀ t ∈ snap.tokens, '\n' ∈ t.lexeme.toList → t.kind.isQuoted = true := by
  -- The two dumps are instances of one law. The last part is about tokens alone.
  refine ⟨?_, ?_, ?_⟩
  · apply LinePerItem.intro
    · simp only [dumpTree, treeLine_plain hplain]
    · exact count_newline_plainTreeLine options snap.tokens
  · apply LinePerItem.intro
    · simp only [dumpTokens, tokenLine_plain hplain]
    · exact count_newline_token
  · intro t ht
    exact (lexed_of_analyze hsnap t ht).isQuoted_of_newline_mem

/-- The dumps of a declaration with the default options. -/
theorem dump_lines_int :
    ∃ snap, Snapshot.analyze "m" "int x;" = .ok snap ∧
      LinePerItem (dumpTree .standard {} snap.tree snap.tokens) snap.tree.walk
        (plainTreeLine {} snap.tokens) (fun v => v.node.firstLexeme snap.tokens) ∧
      LinePerItem (dumpTokens .standard {} snap.tokens) snap.tokens toString Token.lexeme ∧
      ∀ t ∈ snap.tokens, '\n' ∈ t.lexeme.toList → t.kind.isQuoted = true := by
  have hsome : (Snapshot.analyze "m" "int x;").toOption.isSome = true := by decide +kernel
  cases hsnap : Snapshot.analyze "m" "int x;" with
  | error e =>
    rw [hsnap] at hsome
    cases hsome
  | ok snap => exact ⟨snap, rfl, dump_lines hsnap rfl⟩

/-- A string literal with a newline in it: six nodes on seven lines, and five tokens on six. -/
theorem dump_lines_literal :
    ∃ snap, Snapshot.analyze "m" "int x=\"\n\";" = .ok snap ∧
      (dumpTree .standard {} snap.tree snap.tokens).toList.count '\n' = 7 ∧
      snap.tree.walk.length = 6 ∧
      (dumpTokens .standard {} snap.tokens).toList.count '\n' = 6 ∧ snap.tokens.length = 5 ∧
      ¬ IsLines (dumpTree .standard {} snap.tree snap.tokens)
        (snap.tree.walk.map (plainTreeLine {} snap.tokens)) ∧
      ¬ IsLines (dumpTokens .standard {} snap.tokens) (snap.tokens.map toString) := by
  have hcounts : (Snapshot.analyze "m" "int x=\"\n\";").toOption.map (fun snap =>
      ((dumpTree .standard {} snap.tree snap.tokens).toList.count '\n', snap.tree.walk.length,
        (dumpTokens .standard {} snap.tokens).toList.count '\n', snap.tokens.length)) =
      some (7, 6, 6, 5) := by decide +kernel
  cases hsnap : Snapshot.analyze "m" "int x=\"\n\";" with
  | error e =>
    rw [hsnap] at hcounts
    cases hcounts
  | ok snap =>
    rw [hsnap] at hcounts
    simp only [Except.toOption, Option.map_some, Option.some.injEq, Prod.mk.injEq] at hcounts
    obtain ⟨htree, hnodes, htokens, hlength⟩ := hcounts
    refine ⟨snap, rfl, htree, hnodes, htokens, hlength, ?_, ?_⟩
    · intro hlines
      have hcount := hlines.count_newline
      rw [htree, List.length_map, hnodes] at hcount
      cases hcount
    · intro hlines
      have hcount := hlines.count_newline
      rw [htokens, List.length_map, hlength] at hcount
      cases hcount

end LooseC
