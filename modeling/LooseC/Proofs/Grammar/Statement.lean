import LooseC.Parse.Statement
import LooseC.Proofs.Grammar.Basic
import LooseC.Proofs.Grammar.Reads
import LooseC.Proofs.Grammar.Search

/-!
# Statements read what the grammar derives

One lemma for each production of `Parse/Statement.lean`, up to `reads_statement_iff`. The
productions take the one for nested statements as an argument, so the lemmas take what is known
about it: `StatementsAfter p ts i`, that `p` reads the statements of the grammar behind `i`.
`statement` ties the knot, and the induction that goes with it is on the number of tokens left.
-/

set_option autoImplicit false

namespace LooseC.Parse

variable {ts : List Token} {i j : Nat} {node : Node}

/-- Behind index `i` the production `p` reads exactly the statements of the grammar. -/
def StatementsAfter (p : Parse Node) (ts : List Token) (i : Nat) : Prop :=
  ∀ k n l, i < k → (p.Reads ts k n l ↔ Derives ts .statement k l [n])

/-- What is known of a production behind `i` is known of it behind any later index. -/
theorem StatementsAfter.mono {p : Parse Node} {k : Nat} (h : StatementsAfter p ts i)
    (hik : i ≤ k) : StatementsAfter p ts k :=
  fun m n l hkm => h m n l (by omega)

/-- A guard ends at the parenthesis that closes its first one. -/
theorem reads_guardExpression_iff {owner : GuardOwner} :
    (guardExpression owner).Reads ts i node j ↔ Derives ts .guard i j [node] := by
  simp only [guardExpression, reads_require_bind_iff, nextIs_iff, reads_position_bind_iff,
    reads_find_bind_iff, findMatching_eq_some_iff (show TokenKind.lparen ≠ .rparen by decide),
    reads_span_bind_iff, reads_seek_bind_iff, reads_pure_iff]
  constructor
  · rintro ⟨-, k, hcloses, -, -, rfl, rfl⟩
    exact .guard hcloses
  · intro h
    cases h with
    | guard hcloses =>
      exact ⟨hcloses.opens, _, hcloses, hcloses.first.le, hcloses.first.holds.1, rfl, rfl⟩

/-- A keyword, whichever it is, then a guard and one statement. -/
theorem reads_guarded_iff {p : Parse Node} {keyword : GuardKeyword} {nodes : List Node}
    (hp : StatementsAfter p ts i) :
    (guarded p keyword).Reads ts i nodes j ↔ i < ts.length ∧ ∃ condition body k,
      Derives ts .guard (i + 1) k [condition] ∧ Derives ts .statement k j [body] ∧
        nodes = [condition, body] := by
  have hbody {condition body : Node} {k : Nat} (hguard : Derives ts .guard (i + 1) k [condition]) :
      p.Reads ts k body j ↔ Derives ts .statement k j [body] := by
    have hlt := hguard.lt rfl
    exact hp k body j (by omega)
  -- The keyword was looked at before, so here any token does.
  simp only [guarded, reads_consume_bind_iff, reads_bind_iff (p := guardExpression _),
    reads_guardExpression_iff, reads_note_bind_iff, reads_bind_iff (p := p), reads_pure_iff]
  constructor
  · rintro ⟨t, ht, condition, k, hguard, body, _, hread, rfl, rfl⟩
    exact ⟨(List.getElem?_eq_some_iff.mp ht).1, condition, body, k, hguard,
      (hbody hguard).mp hread, rfl⟩
  · rintro ⟨hlt, condition, body, k, hguard, hderives, rfl⟩
    exact ⟨ts[i], List.getElem?_eq_getElem hlt, condition, k, hguard, body, j,
      (hbody hguard).mpr hderives, rfl, rfl⟩

/-- The statement after `else`, where an `else` stands, and nothing elsewhere. -/
theorem reads_elseBranch_iff {p : Parse Node} {nodes : List Node} (hp : StatementsAfter p ts i) :
    (elseBranch p).Reads ts i nodes j ↔
      (kindAt? ts i = some .kwElse ∧ ∃ n, Derives ts .statement (i + 1) j [n] ∧ nodes = [n]) ∨
        (kindAt? ts i ≠ some .kwElse ∧ nodes = [] ∧ j = i) := by
  have helse (n : Node) (l : Nat) := hp (i + 1) n l (Nat.lt_succ_self i)
  simp only [elseBranch, reads_optional_bind_iff]
  by_cases h : kindAt? ts i = some .kwElse
  · simp [h, reads_bind_iff, helse]
  · simp [h]

/-- An `if` statement, with and without the branch after `else`. -/
theorem reads_ifStatement_iff {p : Parse Node} (hp : StatementsAfter p ts i) :
    (ifStatement p).Reads ts i node j ↔ i < ts.length ∧ ∃ condition body k l,
      Derives ts .guard (i + 1) k [condition] ∧ Derives ts .statement k l [body] ∧
        ((kindAt? ts l = some .kwElse ∧ ∃ otherwise, Derives ts .statement (l + 1) j [otherwise] ∧
            node = ⟨.ifStatement, ⟨i, j⟩, [condition, body, otherwise]⟩) ∨
          (kindAt? ts l ≠ some .kwElse ∧ l = j ∧
            node = ⟨.ifStatement, ⟨i, j⟩, [condition, body]⟩)) := by
  simp only [ifStatement, reads_position_bind_iff, reads_bind_iff (p := guarded _ _),
    reads_guarded_iff hp, reads_bind_iff (p := elseBranch _), reads_spanFrom_bind_iff,
    reads_pure_iff]
  -- The branch after `else` begins behind `i`, where `p` reads statements.
  have hbranch {condition body : Node} {k l : Nat}
      (hguard : Derives ts .guard (i + 1) k [condition])
      (hbody : Derives ts .statement k l [body]) : StatementsAfter p ts l := by
    have h1 := hguard.le
    have h2 := hbody.le
    exact hp.mono (by omega)
  constructor
  · rintro ⟨_, l, ⟨hlt, condition, body, k, hguard, hbody, rfl⟩, _, m, helse, -, rfl, rfl⟩
    refine ⟨hlt, condition, body, k, l, hguard, hbody, ?_⟩
    rcases (reads_elseBranch_iff (hbranch hguard hbody)).mp helse with
      ⟨hl, n, hn, rfl⟩ | ⟨hl, rfl, rfl⟩
    · exact .inl ⟨hl, n, hn, rfl⟩
    · exact .inr ⟨hl, rfl, rfl⟩
  · rintro ⟨hlt, condition, body, k, l, hguard, hbody, hrest⟩
    have h1 := hguard.le
    have h2 := hbody.le
    refine ⟨_, l, ⟨hlt, condition, body, k, hguard, hbody, rfl⟩, ?_⟩
    rcases hrest with ⟨hl, n, hn, rfl⟩ | ⟨hl, rfl, rfl⟩
    · have h3 := hn.le
      refine ⟨[n], j, ?_, by omega, rfl, rfl⟩
      exact (reads_elseBranch_iff (hbranch hguard hbody)).mpr (.inl ⟨hl, n, hn, rfl⟩)
    · refine ⟨[], l, ?_, by omega, rfl, rfl⟩
      exact (reads_elseBranch_iff (hbranch hguard hbody)).mpr (.inr ⟨hl, rfl, rfl⟩)

/-- A `while` or `for` statement: the keyword, the guard and the body. -/
theorem reads_loopStatement_iff {p : Parse Node} {keyword : GuardKeyword}
    (hp : StatementsAfter p ts i) :
    (loopStatement p keyword).Reads ts i node j ↔ i < ts.length ∧ ∃ condition body k,
      Derives ts .guard (i + 1) k [condition] ∧ Derives ts .statement k j [body] ∧
        node = ⟨keyword.statementKind, ⟨i, j⟩, [condition, body]⟩ := by
  simp only [loopStatement, reads_position_bind_iff, reads_bind_iff (p := guarded _ _),
    reads_guarded_iff hp, reads_spanFrom_bind_iff, reads_pure_iff]
  constructor
  · rintro ⟨_, _, ⟨hlt, condition, body, k, hguard, hbody, rfl⟩, -, rfl, rfl⟩
    exact ⟨hlt, condition, body, k, hguard, hbody, rfl⟩
  · rintro ⟨hlt, condition, body, k, hguard, hbody, rfl⟩
    have h1 := hguard.le
    have h2 := hbody.le
    exact ⟨_, j, ⟨hlt, condition, body, k, hguard, hbody, rfl⟩, by omega, rfl, rfl⟩

/-- A `do` statement: the body, then `while`, the guard and a semicolon. -/
theorem reads_doWhileStatement_iff {p : Parse Node} (hp : StatementsAfter p ts i) :
    (doWhileStatement p).Reads ts i node j ↔ i < ts.length ∧ ∃ body condition k l,
      Derives ts .statement (i + 1) k [body] ∧ kindAt? ts k = some .kwWhile ∧
        Derives ts .guard (k + 1) l [condition] ∧ kindAt? ts l = some .semi ∧ j = l + 1 ∧
          node = ⟨.doWhileStatement, ⟨i, j⟩, [body, condition]⟩ := by
  -- The body begins behind the keyword, so what is known of `p` applies to it.
  have hbody (n : Node) (l : Nat) := hp (i + 1) n l (Nat.lt_succ_self i)
  simp only [doWhileStatement, reads_position_bind_iff, reads_consume_bind_iff,
    reads_bind_iff (p := p), hbody, reads_take_bind_iff, reads_bind_iff (p := guardExpression _),
    reads_guardExpression_iff, reads_expect_bind_iff, reads_spanFrom_bind_iff, reads_pure_iff]
  constructor
  · rintro ⟨t, ht, body, k, hbody, hk, condition, l, hguard, hl, -, rfl, rfl⟩
    exact ⟨(List.getElem?_eq_some_iff.mp ht).1, body, condition, k, l, hbody, hk, hguard, hl, rfl,
      rfl⟩
  · rintro ⟨hlt, body, condition, k, l, hbody, hk, hguard, hl, rfl, rfl⟩
    have h1 := hbody.le
    have h2 := hguard.le
    exact ⟨ts[i], List.getElem?_eq_getElem hlt, body, k, hbody, hk, condition, l, hguard, hl,
      by omega, rfl, rfl⟩

/-- The test of the run of statements in terms of the list. -/
theorem inBlock_iff : inBlock ⟨ts, i⟩ = true ↔ i < ts.length ∧ kindAt? ts i ≠ some .rbrace := by
  rw [inBlock, Bool.and_eq_true, Bool.not_eq_true', Bool.not_eq_true', ← Bool.not_eq_true,
    ← Bool.not_eq_true, atEnd_iff, nextIs_iff, Nat.not_le]

/-- The statements of a block, up to its closing brace. -/
theorem reads_many_statements_iff {p : Parse Node} {k : Nat} {nodes : List Node}
    (hp : StatementsAfter p ts i) (hik : i + 1 ≤ k) :
    (many inBlock p).Reads ts k nodes j ∧ kindAt? ts j = some .rbrace ↔
      Derives ts .statements k j nodes := by
  refine reads_many_iff_of_step (Q := fun j => kindAt? ts j = some .rbrace)
    (R := fun k nodes j => Derives ts .statements k j nodes) hik (fun k nodes j hik => ?_) nodes
  constructor
  · intro h
    cases h with
    | statementsNil hk =>
      -- At a closing brace the repetition is over.
      refine .inl ⟨?_, rfl, rfl, hk⟩
      rw [← Bool.not_eq_true, inBlock_iff]
      exact fun h => h.2 hk
    | @statementsCons _ l _ n later hk hn hlater =>
      -- A statement takes a token, so the test holds and fewer tokens are left behind it.
      have hkl := hn.lt rfl
      have hlen := hn.le_length
      refine .inr ⟨inBlock_iff.mpr ⟨?_, hk⟩, n, l, later, (hp k n l hik).mpr hn, ?_, hlater, rfl⟩
      · omega
      · omega
  · rintro (⟨-, rfl, rfl, hk⟩ | ⟨htest, n, l, later, hn, -, hlater, rfl⟩)
    · exact .statementsNil hk
    · exact .statementsCons (inBlock_iff.mp htest).2 ((hp k n l hik).mp hn) hlater

/-- A block: statements between two braces. -/
theorem reads_block_iff {p : Parse Node} (hp : StatementsAfter p ts i) :
    (block p).Reads ts i node j ↔ Derives ts .block i j [node] := by
  simp only [block, reads_position_bind_iff, reads_expect_bind_iff,
    reads_bind_iff (p := many inBlock p), reads_spanFrom_bind_iff, reads_pure_iff]
  constructor
  · rintro ⟨hi, nodes, k, hmany, hk, -, rfl, rfl⟩
    exact .block hi ((reads_many_statements_iff hp (Nat.le_refl (i + 1))).mp ⟨hmany, hk⟩) hk
  · intro h
    cases h with
    | @block _ k nodes hi hnodes hk =>
      have hle := hnodes.le
      obtain ⟨hmany, -⟩ := (reads_many_statements_iff hp (Nat.le_refl (i + 1))).mpr hnodes
      exact ⟨hi, nodes, k, hmany, hk, by omega, rfl, rfl⟩

/-- A plain statement goes through the first semicolon from its first token on. -/
theorem reads_plainStatement_iff :
    plainStatement.Reads ts i node j ↔ ∃ k, FirstFrom (fun m => kindAt? ts m = some .semi) i k ∧
      j = k + 1 ∧ node = .leaf .statement ⟨i, j⟩ := by
  simp only [plainStatement, reads_position_bind_iff, reads_find_bind_iff, findNext_eq_some_iff,
    reads_span_bind_iff, reads_seek_bind_iff, reads_pure_iff]
  constructor
  · rintro ⟨k, hk, -, -, rfl, rfl⟩
    exact ⟨k, hk, rfl, rfl⟩
  · rintro ⟨k, hk, rfl, rfl⟩
    have hle := hk.le
    have hlt := lt_length_of_kindAt? hk.holds
    exact ⟨k, hk, by omega, hlt, rfl, rfl⟩

/-- The production for a statement whose first token is of the given kind. -/
def statementFor (p : Parse Node) : TokenKind → Parse Node
  | .lbrace => block p
  | .kwIf => ifStatement p
  | .kwWhile => loopStatement p .kwWhile
  | .kwFor => loopStatement p .kwFor
  | .kwDo => doWhileStatement p
  | _ => plainStatement

/-- Any kind that begins no structured statement goes to the production for plain ones. -/
theorem statementFor_of_plain {p : Parse Node} {kind : TokenKind}
    (h : beginsStructured kind = false) : statementFor p kind = plainStatement := by
  cases kind <;> simp [beginsStructured, statementFor] at h ⊢

/-- The two keywords of loops and the kinds of their nodes. -/
theorem loopNode?_eq_some_iff {first : TokenKind} {kind : NodeKind} :
    loopNode? first = some kind ↔ (first = .kwWhile ∧ kind = .whileStatement) ∨
      (first = .kwFor ∧ kind = .forStatement) := by
  cases first <;> simp [loopNode?, eq_comm]

/-- The first token decides which production a round of `statement` goes to. -/
theorem reads_statementBody_iff {p : Parse Node} :
    (statementBody p).Reads ts i node j ↔
      ∃ kind, kindAt? ts i = some kind ∧ (statementFor p kind).Reads ts i node j := by
  simp only [statementBody, reads_require_bind_iff, reads_peek_bind_iff]
  constructor
  · rintro ⟨-, t, ht, h⟩
    exact ⟨t.kind, kindAt?_eq_some_iff.mpr ⟨t, ht, rfl⟩, h⟩
  · rintro ⟨kind, hkind, h⟩
    obtain ⟨t, ht, rfl⟩ := kindAt?_eq_some_iff.mp hkind
    refine ⟨?_, t, ht, h⟩
    rw [Bool.not_eq_true', ← Bool.not_eq_true, atEnd_iff, Nat.not_le]
    exact lt_length_of_kindAt? hkind

/-- What a round reads is a statement of the grammar. -/
theorem derives_of_reads_statementFor {p : Parse Node} {kind : TokenKind}
    (hp : StatementsAfter p ts i) (hi : kindAt? ts i = some kind)
    (h : (statementFor p kind).Reads ts i node j) : Derives ts .statement i j [node] := by
  -- One case for each production that a kind goes to.
  unfold statementFor at h
  split at h
  · exact .statementBlock ((reads_block_iff hp).mp h)
  · obtain ⟨-, condition, body, k, l, hguard, hbody, hrest⟩ := (reads_ifStatement_iff hp).mp h
    rcases hrest with ⟨hl, n, hn, rfl⟩ | ⟨hl, rfl, rfl⟩
    · exact .ifElseStatement hi hguard hbody hl hn
    · exact .ifStatement hi hguard hbody hl
  · obtain ⟨-, condition, body, k, hguard, hbody, rfl⟩ := (reads_loopStatement_iff hp).mp h
    exact .loopStatement hi rfl hguard hbody
  · obtain ⟨-, condition, body, k, hguard, hbody, rfl⟩ := (reads_loopStatement_iff hp).mp h
    exact .loopStatement hi rfl hguard hbody
  · obtain ⟨-, body, condition, k, l, hbody, hk, hguard, hl, rfl, rfl⟩ :=
      (reads_doWhileStatement_iff hp).mp h
    exact .doWhileStatement hi hbody hk hguard hl
  · obtain ⟨k, hk, rfl, rfl⟩ := reads_plainStatement_iff.mp h
    refine .plainStatement hi ?_ hk
    -- The other five kinds have gone to productions of their own.
    cases kind <;> simp_all [beginsStructured]

/-- A statement of the grammar is what a round reads. -/
theorem reads_statementFor_of_derives {p : Parse Node} (hp : StatementsAfter p ts i)
    (h : Derives ts .statement i j [node]) :
    ∃ kind, kindAt? ts i = some kind ∧ (statementFor p kind).Reads ts i node j := by
  -- The other way round: each rule says which kind its first token has.
  cases h with
  | statementBlock hblock =>
    have hread := (reads_block_iff hp).mpr hblock
    -- Only the rule for blocks makes one, and it begins with a brace.
    cases hblock with
    | block hi _ _ => exact ⟨.lbrace, hi, hread⟩
  | ifStatement hi hguard hbody hk =>
    refine ⟨.kwIf, hi, (reads_ifStatement_iff hp).mpr ?_⟩
    exact ⟨lt_length_of_kindAt? hi, _, _, _, j, hguard, hbody, .inr ⟨hk, rfl, rfl⟩⟩
  | ifElseStatement hi hguard hbody hk hn =>
    refine ⟨.kwIf, hi, (reads_ifStatement_iff hp).mpr ?_⟩
    exact ⟨lt_length_of_kindAt? hi, _, _, _, _, hguard, hbody, .inl ⟨hk, _, hn, rfl⟩⟩
  | loopStatement hi hloop hguard hbody =>
    have hlt := lt_length_of_kindAt? hi
    rcases loopNode?_eq_some_iff.mp hloop with ⟨rfl, rfl⟩ | ⟨rfl, rfl⟩
    · exact ⟨.kwWhile, hi, (reads_loopStatement_iff hp).mpr ⟨hlt, _, _, _, hguard, hbody, rfl⟩⟩
    · exact ⟨.kwFor, hi, (reads_loopStatement_iff hp).mpr ⟨hlt, _, _, _, hguard, hbody, rfl⟩⟩
  | doWhileStatement hi hbody hk hguard hl =>
    refine ⟨.kwDo, hi, (reads_doWhileStatement_iff hp).mpr ?_⟩
    exact ⟨lt_length_of_kindAt? hi, _, _, _, _, hbody, hk, hguard, hl, rfl, rfl⟩
  | @plainStatement _ k first hi hplain hk =>
    refine ⟨first, hi, ?_⟩
    rw [statementFor_of_plain hplain]
    exact reads_plainStatement_iff.mpr ⟨k, hk, rfl, rfl⟩

/-- The production for statements reads the statements of the grammar. -/
theorem reads_statement_iff :
    statement.Reads ts i node j ↔ Derives ts .statement i j [node] := by
  induction hn : ts.length - i using Nat.strongRecOn generalizing i j node with
  | ind n ih =>
    -- A round that begins at a token may use the production on everything behind it.
    have hafter (hi : i < ts.length) :
        StatementsAfter (watched ⟨ts, i⟩ (fix statementBody)) ts i := by
      intro k m l hik
      rw [reads_watched_iff]
      constructor
      · rintro ⟨hlt, h⟩
        exact (ih (ts.length - k) (by omega) rfl).mp h
      · intro h
        have hlt : ts.length - k < ts.length - i := by omega
        exact ⟨hlt, (ih (ts.length - k) (by omega) rfl).mpr h⟩
    rw [statement, reads_fix_iff, reads_statementBody_iff]
    constructor
    · rintro ⟨kind, hi, h⟩
      exact derives_of_reads_statementFor (hafter (lt_length_of_kindAt? hi)) hi h
    · intro h
      have hlt := h.lt rfl
      have hlen := h.le_length
      exact reads_statementFor_of_derives (hafter (by omega)) h

/-- Wherever it begins, the production for statements reads the statements of the grammar. -/
theorem statementsAfter_statement : StatementsAfter statement ts i :=
  fun _ _ _ _ => reads_statement_iff

end LooseC.Parse
