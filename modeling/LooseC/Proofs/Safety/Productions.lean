import LooseC.Proofs.Grammar.Unit
import LooseC.Proofs.Safety.Actions

/-!
# The parser is safe

Every production is safe on every token list, and takes a token if it succeeds. The lemmas follow
the productions. A search answers an index inside the list and not in front of the cursor, so the
place behind it is one that the cursor may be put at. A production that uses itself has taken a
token before it does, so it never stalls.

`parse_safe` puts this together for a whole token list.
-/

set_option autoImplicit false

namespace LooseC

namespace Parse

variable {ts : List Token} {i : Nat}

/-! ### Statements -/

/-- A guard takes its two parentheses at least. The search for the closing one starts at the opening
one, so the jump goes forward. -/
theorem advances_guardExpression (owner : GuardOwner) : Advances ts 0 (guardExpression owner) := by
  intro i _
  refine .require_bind rfl fun _ => .position_bind ?_
  refine .find_bind rfl fun closing hclosing => ?_
  -- The closing parenthesis stands behind the opening one and inside the list.
  have hcloses : Closes ts .lparen .rparen i closing :=
    (findMatching_eq_some_iff (by decide) i closing).mp hclosing
  have hlt := hcloses.first.le
  have hlength := hcloses.first.holds.1
  refine .span_bind hlt <| .seek_bind (by omega) (by omega) ?_
  exact safe_pure (by omega)

/-- The actions of a guard without a condition, `()`. -/
example : (guardExpression .doWhile).actions ⟨tokensOnRow 0 [.lparen, .rparen], 0⟩ =
    [.search 0, .span 0 1 1, .seek 0 2] := by decide

section Nested

/-! The production `p` for the statement inside is used behind the first token only, and no more
than that is known of it. -/

variable {p : Parse Node}

/-- A guarded statement begins with its keyword. The nested statement stands behind the guard. -/
theorem safe_guarded (hp : Advances ts (i + 1) p) (keyword : GuardKeyword) :
    Safe ts (guarded p keyword) i fun _ j => i < j := by
  refine .consume_bind fun _ _ => ?_
  refine (advances_guardExpression _).bind (Nat.zero_le _) fun condition j hj => .note_bind ?_
  refine hp.bind (by omega) fun body k hk => ?_
  exact safe_pure (by omega)

/-- Without an `else` nothing is taken, so this is safe but need not advance. -/
theorem safe_elseBranch (hp : Advances ts i p) : Safe ts (elseBranch p) i fun _ j => i ≤ j := by
  refine .optional_bind (fun _ => ?_) (safe_pure (Nat.le_refl i))
  refine hp.bind (Nat.le_succ i) fun _ j hj => ?_
  exact safe_pure (by omega)

/-- An `if` statement advances by its guarded part. The `else` branch may add to it. -/
theorem safe_ifStatement (hp : Advances ts (i + 1) p) :
    Safe ts (ifStatement p) i fun _ j => i < j := by
  refine .position_bind ?_
  refine (safe_guarded hp _).bind fun _ j _ hj => ?_
  refine (safe_elseBranch (hp.mono hj)).bind fun _ k _ hk => ?_
  exact .spanFrom_bind (by omega) (safe_pure (by omega))

/-- A `while` or `for` statement advances by its guarded part. -/
theorem safe_loopStatement (hp : Advances ts (i + 1) p) (keyword : GuardKeyword) :
    Safe ts (loopStatement p keyword) i fun _ j => i < j := by
  refine .position_bind ?_
  refine (safe_guarded hp _).bind fun _ j _ hj => ?_
  exact .spanFrom_bind (Nat.le_of_lt hj) (safe_pure hj)

/-- A `do` statement: the nested statement stands right behind the keyword, and the guard behind
both. -/
theorem safe_doWhileStatement (hp : Advances ts (i + 1) p) :
    Safe ts (doWhileStatement p) i fun _ j => i < j := by
  refine .position_bind <| .consume_bind fun _ _ => ?_
  refine hp.bind (Nat.le_refl _) fun body j hj => .take_bind rfl fun _ _ => ?_
  refine (advances_guardExpression _).bind (Nat.zero_le _) fun condition k hk => ?_
  exact .expect_bind fun _ _ => .spanFrom_bind (by omega) (safe_pure (by omega))

/-- A block takes its two braces at least. Each statement in it takes a token, so the run of them
comes to an end. -/
theorem safe_block (hp : Advances ts (i + 1) p) : Safe ts (block p) i fun _ j => i < j := by
  refine .position_bind <| .expect_bind fun _ _ => ?_
  refine (safe_many hp (Nat.le_refl _)).bind fun _ j hj _ => .expect_bind fun _ _ => ?_
  exact .spanFrom_bind (by omega) (safe_pure (by omega))

end Nested

/-- A plain statement takes the semicolon at least. The search starts where the statement does. -/
theorem advances_plainStatement : Advances ts 0 plainStatement := by
  intro i _
  refine .position_bind <| .find_bind rfl fun semi hsemi => ?_
  -- The semicolon stands no earlier than the cursor and inside the list, so the span and the jump
  -- past it are in range.
  have hfirst := (findNext_eq_some_iff .semi i semi).mp hsemi
  have hle := hfirst.le
  have hlt := lt_length_of_kindAt? hfirst.holds
  refine .span_bind (by omega) <| .seek_bind (by omega) hlt ?_
  exact safe_pure (Nat.lt_succ_of_le hle)

/-- Every statement takes a token, by induction over the rounds: the statements nested in it begin
further on. -/
theorem advances_statement : Advances ts 0 statement := by
  -- The hypothesis on `p` is that of an earlier round: it is safe and advances behind `i`.
  refine advances_fix fun p i _ hp => ?_
  refine .require_bind rfl fun _ => .peek_bind fun first _ => ?_
  -- One case for each production that the first token may choose.
  split
  · exact safe_block hp
  · exact safe_ifStatement hp
  · exact safe_loopStatement hp _
  · exact safe_loopStatement hp _
  · exact safe_doWhileStatement hp
  · exact advances_plainStatement i (Nat.zero_le i)

/-! ### Declarations -/

/-- One step over a token, as the item of a run. -/
theorem advances_consume : Advances ts 0 consume :=
  fun i _ => safe_consume.mono fun _ j ht => by omega

/-- A type takes a token on each of its three branches: the run of type words is begun on a type
word. -/
theorem safe_typeTokens : Safe ts typeTokens i fun _ j => i < j := by
  refine .peek_bind fun first hfirst => ?_
  refine .ite (fun htype => ?_) fun _ => .ite (fun _ => ?_) fun _ => ?_
  -- The run is not empty: the token that was looked at passes its test.
  · have htest : nextIsTypeWord ⟨ts, i⟩ = true := by
      rw [nextIsTypeWord, Cursor.peek?, hfirst, Option.map_some, htype]
      rfl
    exact (safe_many advances_consume (Nat.zero_le i)).bind fun _ j _ hj => safe_pure (hj htest)
  · exact .consume_bind fun _ _ => .take_bind rfl fun _ _ => safe_pure (by omega)
  · exact .take_bind rfl fun _ _ => safe_pure (Nat.lt_succ_self i)

/-- A type takes a token. -/
theorem advances_type : Advances ts 0 type := by
  refine fun i _ => .position_bind ?_
  refine safe_typeTokens.bind fun _ j _ hj => ?_
  exact .spanFrom_bind (Nat.le_of_lt hj) (safe_pure hj)

/-- A parameter takes the tokens of its type at least. -/
theorem advances_parameter : Advances ts 0 parameter := by
  refine fun i _ => .position_bind ?_
  refine advances_type.bind (Nat.zero_le i) fun _ j hj => .optional_bind (fun _ => ?_) ?_
  · exact .spanFrom_bind (by omega) (safe_pure (by omega))
  · exact .spanFrom_bind (by omega) (safe_pure hj)

/-- A parameter takes a token, with a comma or without. -/
theorem advances_parameterAndComma : Advances ts 0 parameterAndComma := by
  refine fun i _ => advances_parameter.bind (Nat.zero_le i) fun _ j hj => ?_
  exact .optional_bind (fun _ => safe_pure (by omega)) (safe_pure hj)

/-- A parameter list takes its two parentheses at least. -/
theorem advances_parameterList : Advances ts 0 parameterList := by
  refine fun i _ => .position_bind <| .expect_bind fun _ _ => ?_
  refine (safe_many advances_parameterAndComma (Nat.zero_le _)).bind fun _ j hj _ => ?_
  exact .expect_bind fun _ _ => .spanFrom_bind (by omega) (safe_pure (by omega))

/-- An initializer takes its equals sign. The search for its end starts behind the sign and never
answers an earlier index. -/
theorem advances_initializer : Advances ts 0 initializer := by
  refine fun i _ => .expect_bind fun _ _ => .position_bind <| .find_bind rfl fun stop hstop => ?_
  have hends : EndsInitializer ts (i + 1) stop :=
    findInitializerEnd_eq_some_iff.mp hstop
  have hle := hends.le
  refine .seek_bind hle (Nat.le_of_lt hends.lt_length) ?_
  exact .spanFrom_bind hle (safe_pure (by omega))

/-- The end of a function, which may be a body. -/
theorem safe_functionEnd : Safe ts functionEnd i fun _ j => i ≤ j := by
  refine .optional_bind (fun _ => safe_pure (Nat.le_succ i)) <| .ask_bind ?_
  refine .ite (fun _ => ?_) fun _ => safe_fail rfl
  have hstatement : Advances ts (i + 1) statement := advances_statement.mono (Nat.zero_le _)
  exact (safe_block hstatement).bind fun _ j _ hj => safe_pure (Nat.le_of_lt hj)

/-- What follows the name of a declarator may be nothing, so this is safe but need not advance. -/
theorem safe_declaratorRest : Safe ts declaratorRest i fun _ j => i ≤ j := by
  refine .ask_bind <| .ite (fun _ => ?_) fun _ => .ask_bind <| .ite (fun _ => ?_) fun _ => ?_
  · refine advances_parameterList.bind (Nat.zero_le i) fun _ j hj => ?_
    exact safe_functionEnd.bind fun _ k _ hk => safe_pure (by omega)
  · exact advances_initializer.bind (Nat.zero_le i) fun _ j hj => safe_pure (Nat.le_of_lt hj)
  · exact safe_pure (Nat.le_refl i)

/-- A declarator takes its name at least. -/
theorem advances_declarator : Advances ts 0 declarator := by
  refine fun i _ => .position_bind <| .take_bind rfl fun _ _ => ?_
  refine safe_declaratorRest.bind fun _ j _ hj => ?_
  exact .spanFrom_bind (by omega) (safe_pure hj)

/-- Declarators take a name at least, by induction over the rounds: those after a comma begin
further on. -/
theorem advances_declarators : Advances ts 0 declarators := by
  refine advances_fix fun p i _ hp => ?_
  refine advances_declarator.bind (Nat.zero_le i) fun first j hj => ?_
  refine .ite (fun _ => safe_pure hj) fun _ => .optional_bind (fun _ => ?_) (safe_pure hj)
  -- The later declarators begin behind the comma, where the hypothesis of the round holds.
  refine hp.bind (by omega) fun _ k hk => ?_
  exact safe_pure (by omega)

/-- A list of declarators takes a token. -/
theorem advances_declaratorList : Advances ts 0 declaratorList := by
  refine fun i _ => .position_bind ?_
  refine advances_declarators.bind (Nat.zero_le i) fun _ j hj => ?_
  exact .spanFrom_bind (Nat.le_of_lt hj) (safe_pure hj)

/-- The end of a declaration takes its semicolon or nothing. -/
theorem safe_declarationEnd (ended : Bool) :
    Safe ts (declarationEnd ended) i fun _ j => i ≤ j := by
  refine .ite (fun _ => safe_pure (Nat.le_refl i)) fun _ => ?_
  exact .optional_bind (fun _ => safe_pure (Nat.le_succ i)) <| .ask_bind (safe_fail rfl)

/-- A declaration takes the tokens of its type and of its declarators. -/
theorem advances_declaration : Advances ts 0 declaration := by
  refine fun i _ => .position_bind ?_
  refine advances_type.bind (Nat.zero_le i) fun _ j hj => ?_
  refine advances_declaratorList.bind (Nat.zero_le j) fun _ k hk => ?_
  refine (safe_declarationEnd _).bind fun _ l _ hl => ?_
  exact .spanFrom_bind (by omega) <| .note_bind (safe_pure (by omega))

/-! ### Units -/

/-- A directive takes its first token at least. -/
theorem advances_directive (kind : NodeKind) : Advances ts 0 (directive kind) := by
  refine fun i _ => .position_bind <| .consume_bind fun first _ => ?_
  refine (safe_many advances_consume (Nat.zero_le _)).bind fun _ j hj _ => ?_
  exact .spanFrom_bind (by omega) (safe_pure (by omega))

/-- Each of the three constructs at the top level takes a token, and on any other token the parser
gives up. -/
theorem advances_topLevel : Advances ts 0 topLevel := by
  refine fun i hi => .peek_bind fun first _ => ?_
  refine .ite (fun _ => advances_directive _ i hi) fun _ => ?_
  refine .ite (fun _ => advances_directive _ i hi) fun _ => ?_
  exact .ite (fun _ => advances_declaration i hi) fun _ => safe_fail rfl

/-- A unit is a run of constructs that each take a token. It may be empty. -/
theorem safe_unit : Safe ts unit i fun _ j => i ≤ j := by
  refine .position_bind ?_
  refine (safe_many advances_topLevel (Nat.zero_le i)).bind fun _ j hj _ => ?_
  exact .spanFrom_bind hj <| .ask_bind <| .note_bind (safe_pure hj)

/-! ### The parser -/

/-- The productions of the grammar. Those that may take nothing are parts of these. -/
inductive IsProduction : {α : Type} → Parse α → Prop where
  | topLevel : IsProduction topLevel
  | directive (kind : NodeKind) : IsProduction (directive kind)
  | declaration : IsProduction declaration
  | type : IsProduction type
  | declaratorList : IsProduction declaratorList
  | declarators : IsProduction declarators
  | declarator : IsProduction declarator
  | initializer : IsProduction initializer
  | parameterList : IsProduction parameterList
  | parameterAndComma : IsProduction parameterAndComma
  | parameter : IsProduction parameter
  | block : IsProduction (block statement)
  | statement : IsProduction statement
  | ifStatement : IsProduction (ifStatement statement)
  | loopStatement (keyword : GuardKeyword) : IsProduction (loopStatement statement keyword)
  | doWhileStatement : IsProduction (doWhileStatement statement)
  | plainStatement : IsProduction plainStatement
  | guarded (keyword : GuardKeyword) : IsProduction (guarded statement keyword)
  | guardExpression (owner : GuardOwner) : IsProduction (guardExpression owner)

/-- Every production of the grammar is safe and takes a token, wherever it begins. -/
theorem advances_of_isProduction {α : Type} {p : Parse α} (h : IsProduction p) :
    Advances ts 0 p := by
  have hstatement {i : Nat} : Advances ts i statement := advances_statement.mono (Nat.zero_le i)
  cases h with
  | topLevel => exact advances_topLevel
  | directive kind => exact advances_directive kind
  | declaration => exact advances_declaration
  | type => exact advances_type
  | declaratorList => exact advances_declaratorList
  | declarators => exact advances_declarators
  | declarator => exact advances_declarator
  | initializer => exact advances_initializer
  | parameterList => exact advances_parameterList
  | parameterAndComma => exact advances_parameterAndComma
  | parameter => exact advances_parameter
  | block => exact fun i _ => safe_block hstatement
  | statement => exact advances_statement
  | ifStatement => exact fun i _ => safe_ifStatement hstatement
  | loopStatement keyword => exact fun i _ => safe_loopStatement hstatement keyword
  | doWhileStatement => exact fun i _ => safe_doWhileStatement hstatement
  | plainStatement => exact advances_plainStatement
  | guarded keyword => exact fun i _ => safe_guarded hstatement keyword
  | guardExpression owner => exact advances_guardExpression owner

end Parse

open Parse

/-- The parser is safe on every token list, whether it succeeds or fails. The log of the whole run
leads from the front of the list to its end. The cursor never goes back and is never out of the list
at any place it comes to, and every action is in range: the jumps, the spans, the starts of the
searches and the rounds. No failed check is reported, and the whole list has been read on success.
Every production, begun anywhere, runs in the same way and takes a token if it succeeds. And a
search for a closing parenthesis has at least one open wherever it comes to. -/
theorem parse_safe (ts : List Token) :
    (SafeRun ts unit 0 ∧ (places 0 (unit.actions ⟨ts, 0⟩)).Pairwise (· ≤ ·) ∧
      ∀ k ∈ places 0 (unit.actions ⟨ts, 0⟩), k ≤ ts.length) ∧
    (∀ e, parse ts = .error e → e.fault.isCheck = false) ∧
    (∀ tree j, unit.Reads ts 0 tree j → j = ts.length) ∧
    (∀ {α : Type} (p : Parse α), IsProduction p → ∀ i, i ≤ ts.length →
      (SafeRun ts p i ∧ (places i (p.actions ⟨ts, i⟩)).Pairwise (· ≤ ·) ∧
        ∀ k ∈ places i (p.actions ⟨ts, i⟩), k ≤ ts.length) ∧
      ∀ a j, p.Reads ts i a j → i < j ∧ j ≤ ts.length) ∧
    ∀ i m, kindAt? ts i = some .lparen → i < m →
      (∀ j, (Cursor.mk ts i).findMatching .lparen .rparen = some j → m ≤ j) →
      countKind ts .rparen i m < countKind ts .lparen i m := by
  -- The unit is begun at the front of the list, and a failure is an error with the same fault.
  obtain ⟨hrun, hmeets⟩ := safe_unit (Nat.zero_le ts.length)
  refine ⟨hrun.within (Nat.zero_le _), fun e he => ?_, ?_, fun p hp i hi => ?_, ?_⟩
  · rw [parse_eq_result] at he
    cases hresult : unit.result ⟨ts, 0⟩ with
    | ok answer =>
      rw [hresult] at he
      cases he
    | error failure =>
      rw [hresult] at he hmeets
      cases he
      exact hmeets
  · exact fun tree j hread => (reads_unit_iff.mp hread).2
  · obtain ⟨hrun, hmeets⟩ := advances_of_isProduction hp i (Nat.zero_le i) hi
    refine ⟨hrun.within hi, fun a j hread => ?_⟩
    rw [hread] at hmeets
    -- A success has taken a token, and the trail to its end has stayed inside the list.
    have hend := hrun.bounds hi
    rw [hread] at hend
    exact ⟨hmeets, hend.2⟩
  · exact fun i m hi him hm => countKind_lt_of_not_closed (by decide) hi him hm

/-- A function with a guard that is never closed: `int f() { if (()`. -/
def unclosedGuard : List Token :=
  tokensOnRow 0 [.tyInt, .identifier, .lparen, .rparen, .lbrace, .kwIf, .lparen, .lparen, .rparen]

/-- The parser gives up in front of the guard, and not because of a check: the last thing it does is
to search from index 6. The name at index 1 would do for a type, and at the end of the list one
parenthesis of the guard is still open. -/
theorem parse_safe_unclosedGuard :
    (SafeRun unclosedGuard unit 0 ∧
      (∀ k ∈ places 0 (unit.actions ⟨unclosedGuard, 0⟩), k ≤ unclosedGuard.length) ∧
      (unit.actions ⟨unclosedGuard, 0⟩).getLast? = some (.search 6)) ∧
      (∃ e, parse unclosedGuard = .error e ∧ e.fault = .unclosedGuard ∧
        e.fault.isCheck = false) ∧
      (Parse.type.Reads unclosedGuard 1 (.leaf .type ⟨1, 2⟩) 2 ∧ 2 ≤ unclosedGuard.length) ∧
      countKind unclosedGuard .rparen 6 9 < countKind unclosedGuard .lparen 6 9 := by
  obtain ⟨⟨hrun, -, hplaces⟩, hfault, -, hproduction, hdepth⟩ := parse_safe unclosedGuard
  refine ⟨⟨hrun, hplaces, by decide +kernel⟩, ?_, ?_, ?_⟩
  · have herror : (match parse unclosedGuard with
        | .ok _ => none
        | .error e => some e.fault) = some .unclosedGuard := by decide +kernel
    split at herror
    · cases herror
    · rename_i e he
      exact ⟨e, he, Option.some.inj herror, hfault e he⟩
  · have hread : Parse.type.Reads unclosedGuard 1 (.leaf .type ⟨1, 2⟩) 2 :=
      reads_type_iff.mpr (.typeName rfl)
    exact ⟨hread, ((hproduction Parse.type .type 1 (by decide)).2 _ _ hread).2⟩
  · refine hdepth 6 9 rfl (by decide) fun j hj => ?_
    have hnone : (Cursor.mk unclosedGuard 6).findMatching .lparen .rparen = none := by decide
    rw [hnone] at hj
    cases hj

end LooseC
