import LooseC.Proofs.Grammar.Alike

/-!
# Productions over lists that are alike

Each production does the same on two lists that are alike, so its lemma is its own text again:
one `Sim` step for each of its steps. `sim_statement` and `sim_declaration` are the two that
matter to callers, and `sim_many_topLevel` puts them together: the run of top-level constructs
gives the same forest, shifted, or fails with the same fault.
-/

set_option autoImplicit false

namespace LooseC.Parse

variable {ts us : List Token} {d : Nat} (h : Alike d ts us)
include h

/-! ### Statements -/

/-- The nodes of a production are shifted. -/
abbrev SimNode (ts us : List Token) (d : Nat) (p q : Parse Node) : Prop :=
  Sim ts us d (fun n m => m = n.shift d) p q

/-- The forests of a production are shifted. -/
abbrev SimNodes (ts us : List Token) (d : Nat) (p q : Parse (List Node)) : Prop :=
  Sim ts us d (fun ns ms => ms = ns.map (Node.shift d)) p q

/-- A repetition answers the shifted nodes. -/
theorem sim_many_nodes {test : Cursor → Bool} {p q : Parse Node}
    (htest : ∀ i, test ⟨ts, i⟩ = test ⟨us, d + i⟩) (hpq : SimNode ts us d p q) :
    SimNodes ts us d (many test p) (many test q) := by
  refine sim_many h htest hpq rfl fun n m ns ms hn hns => ?_
  rw [hn, hns, List.map_cons]

/-- The guard ends at the corresponding parenthesis, so its spans correspond. -/
theorem sim_guardExpression (owner : GuardOwner) :
    SimNode ts us d (guardExpression owner) (guardExpression owner) := by
  refine (sim_require (nextIs_shift h .lparen) _).bind fun _ _ _ => ?_
  refine sim_position.bind fun opening opening' hopening => ?_
  refine (sim_find (findMatching_shift h (by decide)) _).bind fun closing closing' hclosing => ?_
  refine (sim_span (by rw [hopening, Nat.add_assoc]) hclosing).bind fun s s' hs => ?_
  refine (sim_seek h (by rw [hclosing, Nat.add_assoc])).bind fun _ _ _ => ?_
  exact sim_pure (by rw [hs, Node.shift_leaf])

/-- A keyword and its guard, and the nested statement as it is assumed to be. -/
theorem sim_guarded {p q : Parse Node} (hpq : SimNode ts us d p q) (keyword : GuardKeyword) :
    SimNodes ts us d (guarded p keyword) (guarded q keyword) := by
  refine (sim_consume h).bind fun _ _ _ => ?_
  refine (sim_guardExpression h _).bind fun condition condition' hcondition => ?_
  refine (sim_note _ _).bind fun _ _ _ => ?_
  refine hpq.bind fun body body' hbody => ?_
  exact sim_pure (by rw [hcondition, hbody]; rfl)

/-- An `else` follows on both sides or on none. -/
theorem sim_elseBranch {p q : Parse Node} (hpq : SimNode ts us d p q) :
    SimNodes ts us d (elseBranch p) (elseBranch q) := by
  refine (sim_optional h .kwElse).bind fun _ _ heq => ?_
  subst heq
  refine Sim.ite Iff.rfl (fun _ => ?_) (fun _ => sim_pure rfl)
  exact hpq.bind fun n m hn => sim_pure (by rw [hn]; rfl)

/-- The parts of an `if` statement agree one by one. -/
theorem sim_ifStatement {p q : Parse Node} (hpq : SimNode ts us d p q) :
    SimNode ts us d (ifStatement p) (ifStatement q) := by
  refine sim_position.bind fun start start' hstart => ?_
  refine (sim_guarded h hpq _).bind fun children children' hchildren => ?_
  refine (sim_elseBranch h hpq).bind fun otherwise otherwise' hotherwise => ?_
  refine (sim_spanFrom hstart).bind fun s s' hs => ?_
  exact sim_pure (by rw [hchildren, hotherwise, hs, Node.shift_mk, List.map_append])

/-- The parts of a `while` or `for` statement agree one by one. -/
theorem sim_loopStatement {p q : Parse Node} (hpq : SimNode ts us d p q) (keyword : GuardKeyword) :
    SimNode ts us d (loopStatement p keyword) (loopStatement q keyword) := by
  refine sim_position.bind fun start start' hstart => ?_
  refine (sim_guarded h hpq _).bind fun children children' hchildren => ?_
  refine (sim_spanFrom hstart).bind fun s s' hs => ?_
  exact sim_pure (by rw [hchildren, hs, Node.shift_mk])

/-- The parts of a `do` statement agree one by one. -/
theorem sim_doWhileStatement {p q : Parse Node} (hpq : SimNode ts us d p q) :
    SimNode ts us d (doWhileStatement p) (doWhileStatement q) := by
  refine sim_position.bind fun start start' hstart => ?_
  refine (sim_consume h).bind fun _ _ _ => ?_
  refine hpq.bind fun body body' hbody => ?_
  refine (sim_take h _ _).bind fun _ _ _ => ?_
  refine (sim_guardExpression h _).bind fun condition condition' hcondition => ?_
  refine (sim_expect h _).bind fun _ _ _ => ?_
  refine (sim_spanFrom hstart).bind fun s s' hs => ?_
  exact sim_pure (by rw [hbody, hcondition, hs, Node.shift_mk]; rfl)

/-- The statements of a block agree one by one, up to the same closing brace. -/
theorem sim_block {p q : Parse Node} (hpq : SimNode ts us d p q) :
    SimNode ts us d (block p) (block q) := by
  have htest (i : Nat) : inBlock ⟨ts, i⟩ = inBlock ⟨us, d + i⟩ := by
    rw [inBlock, inBlock, atEnd_shift h, nextIs_shift h]
  refine sim_position.bind fun start start' hstart => ?_
  refine (sim_expect h _).bind fun _ _ _ => ?_
  refine (sim_many_nodes h htest hpq).bind fun nodes nodes' hnodes => ?_
  refine (sim_expect h _).bind fun _ _ _ => ?_
  refine (sim_spanFrom hstart).bind fun s s' hs => ?_
  exact sim_pure (by rw [hnodes, hs, Node.shift_mk])

/-- The next semicolons correspond. -/
theorem sim_plainStatement : SimNode ts us d plainStatement plainStatement := by
  refine sim_position.bind fun start start' hstart => ?_
  refine (sim_find (findNext_shift h .semi) _).bind fun semi semi' hsemi => ?_
  refine (sim_span hstart (by rw [hsemi, Nat.add_assoc])).bind fun s s' hs => ?_
  refine (sim_seek h (by rw [hsemi, Nat.add_assoc])).bind fun _ _ _ => ?_
  exact sim_pure (by rw [hs, Node.shift_leaf])

/-- Tokens of one kind choose one production. -/
theorem sim_statementFor {p q : Parse Node} (hpq : SimNode ts us d p q) (kind : TokenKind) :
    SimNode ts us d (statementFor p kind) (statementFor q kind) := by
  -- One case for each production that the kind may choose.
  unfold statementFor
  split
  · exact sim_block h hpq
  · exact sim_ifStatement h hpq
  · exact sim_loopStatement h hpq _
  · exact sim_loopStatement h hpq _
  · exact sim_doWhileStatement h hpq
  · exact sim_plainStatement h

/-- Statements agree, by induction over the rounds of the production. -/
theorem sim_statement : SimNode ts us d statement statement := by
  refine sim_fix h fun p q hpq => ?_
  refine (sim_require (fun i => by rw [atEnd_shift h]) _).bind fun _ _ _ => ?_
  refine (sim_peek h).bind fun t u htu => ?_
  -- The next token chooses the production, and only its kind matters.
  show SimNode ts us d (statementFor p t.kind) (statementFor q u.kind)
  rw [SameToken.kind h htu]
  exact sim_statementFor h hpq t.kind

/-! ### Declarations -/

/-- A type word follows on both sides or on none. -/
theorem nextIsTypeWord_shift (i : Nat) : nextIsTypeWord ⟨ts, i⟩ = nextIsTypeWord ⟨us, d + i⟩ := by
  have hkind (ws : List Token) (k : Nat) :
      nextIsTypeWord ⟨ws, k⟩ = ((kindAt? ws k).map TokenKind.isType == some true) := by
    rw [nextIsTypeWord, kindAt?, Option.map_map]
    rfl
  rw [hkind, hkind, h.kind]

/-- The three forms of a type are told apart by kinds. -/
theorem sim_typeTokens : Sim ts us d Eq typeTokens typeTokens := by
  refine (sim_peek h).bind fun t u htu => ?_
  rw [SameToken.kind h htu]
  refine Sim.ite Iff.rfl (fun _ => ?_) fun _ => Sim.ite Iff.rfl (fun _ => ?_) fun _ => ?_
  · -- The run is thrown away, so nothing relates the two runs of words.
    have hrun : Sim ts us d (fun _ _ => True) (many nextIsTypeWord consume)
        (many nextIsTypeWord consume) :=
      sim_many h (nextIsTypeWord_shift h) (sim_consume h) trivial fun _ _ _ _ _ _ => trivial
    exact hrun.bind fun _ _ _ => sim_pure rfl
  · refine (sim_consume h).bind fun _ _ _ => ?_
    exact (sim_take h _ _).bind fun _ _ _ => sim_pure rfl
  · exact (sim_take h _ _).bind fun _ _ _ => sim_pure rfl

/-- A type is shifted as a whole. -/
theorem sim_type : SimNode ts us d type type := by
  refine sim_position.bind fun start start' hstart => ?_
  refine (sim_typeTokens h).bind fun _ _ _ => ?_
  refine (sim_spanFrom hstart).bind fun s s' hs => ?_
  exact sim_pure (by rw [hs, Node.shift_leaf])

/-- A parameter has its type and perhaps a name. -/
theorem sim_parameter : SimNode ts us d parameter parameter := by
  refine sim_position.bind fun start start' hstart => ?_
  refine (sim_type h).bind fun n n' hn => ?_
  refine (sim_optional h _).bind fun _ _ _ => ?_
  refine (sim_spanFrom hstart).bind fun s s' hs => ?_
  exact sim_pure (by rw [hn, hs, Node.shift_mk]; rfl)

/-- The comma is there on both sides or on none. -/
theorem sim_parameterAndComma : SimNode ts us d parameterAndComma parameterAndComma := by
  refine (sim_parameter h).bind fun n n' hn => ?_
  exact (sim_optional h _).bind fun _ _ _ => sim_pure hn

/-- The parameters agree one by one. -/
theorem sim_parameterList : SimNode ts us d parameterList parameterList := by
  have htest (i : Nat) : inParameters ⟨ts, i⟩ = inParameters ⟨us, d + i⟩ := by
    rw [inParameters, inParameters, nextIs_shift h]
  refine sim_position.bind fun start start' hstart => ?_
  refine (sim_expect h _).bind fun _ _ _ => ?_
  refine (sim_many_nodes h htest (sim_parameterAndComma h)).bind fun nodes nodes' hnodes => ?_
  refine (sim_expect h _).bind fun _ _ _ => ?_
  refine (sim_spanFrom hstart).bind fun s s' hs => ?_
  exact sim_pure (by rw [hnodes, hs, Node.shift_mk])

/-- An initializer ends at places that correspond. -/
theorem sim_initializer : SimNode ts us d initializer initializer := by
  refine (sim_expect h _).bind fun _ _ _ => ?_
  refine sim_position.bind fun start start' hstart => ?_
  refine (sim_find (findInitializerEnd_shift h) _).bind fun stop stop' hstop => ?_
  refine (sim_seek h hstop).bind fun _ _ _ => ?_
  refine (sim_spanFrom hstart).bind fun s s' hs => ?_
  exact sim_pure (by rw [hs, Node.shift_leaf])

/-- What ends a function is told by the kind of the next token. -/
theorem sim_functionEnd : SimNodes ts us d functionEnd functionEnd := by
  refine (sim_optional h _).bind fun ended ended' hended => ?_
  subst hended
  refine Sim.ite Iff.rfl (fun _ => sim_pure rfl) fun _ => ?_
  refine (sim_nextIs h _).bind fun opens opens' hopens => ?_
  subst hopens
  refine Sim.ite Iff.rfl (fun _ => ?_) fun _ => sim_fail _
  exact (sim_block h (sim_statement h)).bind fun n n' hn => sim_pure (by rw [hn]; rfl)

/-- The forests of a production are shifted, and it says the same about the end of the
declaration. -/
abbrev SimEnded (ts us : List Token) (d : Nat) (p q : Parse (List Node × Bool)) : Prop :=
  Sim ts us d (fun r r' => r' = (r.1.map (Node.shift d), r.2)) p q

/-- What follows the name is told by the kind of the next token. -/
theorem sim_declaratorRest : SimEnded ts us d declaratorRest declaratorRest := by
  refine (sim_nextIs h _).bind fun opens opens' hopens => ?_
  subst hopens
  refine Sim.ite Iff.rfl (fun _ => ?_) fun _ => ?_
  · refine (sim_parameterList h).bind fun n n' hn => ?_
    exact (sim_functionEnd h).bind fun ns ns' hns => sim_pure (by rw [hn, hns]; rfl)
  refine (sim_nextIs h _).bind fun assigns assigns' hassigns => ?_
  subst hassigns
  refine Sim.ite Iff.rfl (fun _ => ?_) fun _ => sim_pure rfl
  exact (sim_initializer h).bind fun n n' hn => sim_pure (by rw [hn]; rfl)

/-- A declarator is shifted, and it ends the declaration on both sides or on none. -/
theorem sim_declarator :
    Sim ts us d (fun r r' => r' = (r.1.shift d, r.2)) declarator declarator := by
  refine sim_position.bind fun start start' hstart => ?_
  refine (sim_take h _ _).bind fun _ _ _ => ?_
  refine (sim_declaratorRest h).bind fun rest rest' hrest => ?_
  refine (sim_spanFrom hstart).bind fun s s' hs => ?_
  exact sim_pure (by rw [hrest, hs, Node.shift_mk])

/-- Declarators agree one by one, by induction over the rounds. -/
theorem sim_declarators : SimEnded ts us d declarators declarators := by
  refine sim_fix h fun p q hpq => ?_
  refine (sim_declarator h).bind fun first first' hfirst => ?_
  subst hfirst
  refine Sim.ite Iff.rfl (fun _ => sim_pure rfl) fun _ => ?_
  refine (sim_optional h _).bind fun more more' hmore => ?_
  subst hmore
  refine Sim.ite Iff.rfl (fun _ => ?_) fun _ => sim_pure rfl
  exact hpq.bind fun later later' hlater => sim_pure (by rw [hlater]; rfl)

/-- A list of declarators is shifted as a whole. -/
theorem sim_declaratorList :
    Sim ts us d (fun r r' => r' = (r.1.shift d, r.2)) declaratorList declaratorList := by
  refine sim_position.bind fun start start' hstart => ?_
  refine (sim_declarators h).bind fun list list' hlist => ?_
  refine (sim_spanFrom hstart).bind fun s s' hs => ?_
  exact sim_pure (by rw [hlist, hs, Node.shift_mk])

/-- A missing semicolon is missed on both sides, with one fault. -/
theorem sim_declarationEnd (ended : Bool) :
    Sim ts us d Eq (declarationEnd ended) (declarationEnd ended) := by
  refine Sim.ite Iff.rfl (fun _ => sim_pure rfl) fun _ => ?_
  refine (sim_optional h _).bind fun closed closed' hclosed => ?_
  subst hclosed
  refine Sim.ite Iff.rfl (fun _ => sim_pure rfl) fun _ => ?_
  -- The error names the kind of the token that was found.
  refine (sim_ask fun i => (h.kind i).symm).bind fun found found' hfound => ?_
  subst hfound
  exact sim_fail _

/-- The parts of a declaration agree one by one. -/
theorem sim_declaration : SimNode ts us d declaration declaration := by
  refine sim_position.bind fun start start' hstart => ?_
  refine (sim_type h).bind fun n n' hn => ?_
  refine (sim_declaratorList h).bind fun list list' hlist => ?_
  subst hlist
  refine (sim_declarationEnd h _).bind fun _ _ _ => ?_
  refine (sim_spanFrom hstart).bind fun s s' hs => ?_
  refine (sim_note _ _).bind fun _ _ _ => ?_
  exact sim_pure (by rw [hn, hs, Node.shift_mk]; rfl)

/-! ### Top-level constructs -/

/-- Being on the row of a token does not depend on what the rows are. -/
theorem SameToken.nextOnRow {t u : Token} (htu : SameToken ts us d t u) (i : Nat) :
    nextOnRow t.position.row ⟨ts, i⟩ = nextOnRow u.position.row ⟨us, d + i⟩ := by
  -- Both rows are named by the indices of the two tokens, and those correspond.
  obtain ⟨k, ht, hu⟩ := htu
  have hrow : rowAt? ts k = some t.position.row := by rw [rowAt?, ht, Option.map_some]
  have hrow' : rowAt? us (d + k) = some u.position.row := by rw [rowAt?, hu, Option.map_some]
  rw [Bool.eq_iff_iff, nextOnRow_iff, nextOnRow_iff, ← hrow, ← hrow']
  exact (h.row i k).symm

/-- Directives end together, since tokens stand on one row on both sides or on none. -/
theorem sim_directive (kind : NodeKind) : SimNode ts us d (directive kind) (directive kind) := by
  refine sim_position.bind fun start start' hstart => ?_
  refine (sim_consume h).bind fun t u htu => ?_
  have hrun : Sim ts us d (fun _ _ => True) (many (nextOnRow t.position.row) consume)
      (many (nextOnRow u.position.row) consume) :=
    sim_many h (SameToken.nextOnRow h htu) (sim_consume h) trivial fun _ _ _ _ _ _ => trivial
  refine hrun.bind fun _ _ _ => ?_
  refine (sim_spanFrom hstart).bind fun s s' hs => ?_
  exact sim_pure (by rw [hs, Node.shift_leaf])

/-- Tokens of one kind choose one construct. -/
theorem sim_topLevel : SimNode ts us d topLevel topLevel := by
  refine (sim_peek h).bind fun t u htu => ?_
  rw [SameToken.kind h htu]
  refine Sim.ite Iff.rfl (fun _ => sim_directive h _) fun _ => ?_
  refine Sim.ite Iff.rfl (fun _ => sim_directive h _) fun _ => ?_
  exact Sim.ite Iff.rfl (fun _ => sim_declaration h) fun _ => sim_fail _

/-- On lists that are alike the run of top-level constructs gives the same forest, shifted, or
fails with the same fault. -/
theorem sim_many_topLevel : SimNodes ts us d (many inUnit topLevel) (many inUnit topLevel) :=
  sim_many_nodes h (fun i => by rw [inUnit, inUnit, atEnd_shift h]) (sim_topLevel h)

end LooseC.Parse
