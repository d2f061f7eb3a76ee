import LooseC.Proofs.Grammar.Phrase
import LooseC.Proofs.Grammar.Unit

/-!
# Brackets that match each other

The search for a closing bracket begins behind the opening one, with a depth that counts what is
open. Seen from the opening bracket, the depth is what has been opened less what has been closed, so
the search ends where the two are equal for the first time (`findMatching_eq_some_iff`, with the
other outcome in `findMatching_eq_none_iff`). From there one can look back: the bracket found is a
closing one, the first bracket is open all the way up to it, and what stands between the two
balances (`Closes.encloses`).

A guard is found by this search, so the expression in a control-flow statement stands between two
parentheses that match each other (`Node.GuardEnclosed`). Every node is a phrase, so this is said
once for each rule that makes such a statement. `findMatching_exact` puts the search and the guards
together.
-/

set_option autoImplicit false

namespace LooseC

variable {ts : List Token} {opening closing : TokenKind} {i j m : Nat} {n : Node}

/-- The brackets from `i` up to `j` balance: as many are closed as are opened, and on the way never
more are closed than have been opened. -/
structure Balanced (ts : List Token) (opening closing : TokenKind) (i j : Nat) : Prop where
  equal : countKind ts opening i j = countKind ts closing i j
  closing_le : ∀ m, i ≤ m → m ≤ j → countKind ts closing i m ≤ countKind ts opening i m

/-- The brackets at `i` and `j` match each other: the first is open all the way up to the second,
and what stands between them balances. -/
structure Encloses (ts : List Token) (opening closing : TokenKind) (i j : Nat) : Prop where
  opens : kindAt? ts i = some opening
  closes : kindAt? ts j = some closing
  stays_open : ∀ m, i < m → m ≤ j → countKind ts closing i m < countKind ts opening i m
  inside : Balanced ts opening closing (i + 1) j

/-- The one expression among the children of a control-flow statement stands directly between two
parentheses that match each other. -/
def Node.GuardEnclosed (ts : List Token) (n : Node) : Prop :=
  n.kind.isControlFlow = true → ∃ condition i, n.childrenOf .expression = [condition] ∧
    condition.span.start = i + 1 ∧ Closes ts .lparen .rparen i condition.span.stop ∧
    Encloses ts .lparen .rparen i condition.span.stop

/-! ### The search for a closing bracket -/

namespace Closes

/-- Up to the bracket that closes the first one, more have been opened than closed. -/
theorem countKind_lt (h : Closes ts opening closing i j) (hne : opening ≠ closing) (him : i < m)
    (hmj : m ≤ j) : countKind ts closing i m < countKind ts opening i m := by
  apply countKind_lt_of_not_closed hne h.opens him
  intro k hk
  have hcloses := (findMatching_eq_some_iff hne i k).mp hk
  rwa [hcloses.first.unique h.first]

/-- The token that makes the counts equal is a closing bracket. -/
theorem kindAt?_eq (h : Closes ts opening closing i j) (hne : opening ≠ closing) :
    kindAt? ts j = some closing := by
  have hij : i < j := h.first.le
  have hlt := h.countKind_lt hne hij (Nat.le_refl j)
  have hequal := h.first.holds.2
  rw [countKind_succ_right (Nat.le_of_lt hij), countKind_succ_right (Nat.le_of_lt hij)] at hequal
  by_cases hclose : kindAt? ts j = some closing
  · exact hclose
  · rw [if_neg hclose] at hequal
    omega

/-- The first bracket is the only one that is open around what stands behind it. -/
theorem countKind_behind (h : Closes ts opening closing i j) (hne : opening ≠ closing)
    (him : i < m) :
    countKind ts opening i m = countKind ts opening (i + 1) m + 1 ∧
      countKind ts closing i m = countKind ts closing (i + 1) m := by
  rw [countKind_eq_add_left him, countKind_eq_add_left him, h.opens]
  simp [hne, Nat.add_comm]

/-- What stands between the two brackets balances. -/
theorem balanced (h : Closes ts opening closing i j) (hne : opening ≠ closing) :
    Balanced ts opening closing (i + 1) j where
  equal := by
    have hij : i < j := h.first.le
    obtain ⟨hopen, hclose⟩ := h.countKind_behind hne hij
    have hequal := h.first.holds.2
    -- The closing bracket itself makes the counts equal, and the opening one is not in the range.
    rw [countKind_succ_right (Nat.le_of_lt hij), countKind_succ_right (Nat.le_of_lt hij),
      h.kindAt?_eq hne] at hequal
    simp [hne.symm] at hequal
    omega
  closing_le := by
    intro m him hmj
    have hlt := h.countKind_lt hne him hmj
    obtain ⟨hopen, hclose⟩ := h.countKind_behind hne him
    omega

/-- A bracket that closes another one encloses what stands between. -/
theorem encloses (h : Closes ts opening closing i j) (hne : opening ≠ closing) :
    Encloses ts opening closing i j where
  opens := h.opens
  closes := h.kindAt?_eq hne
  stays_open := fun _ => h.countKind_lt hne
  inside := h.balanced hne

end Closes

/-- The search finds nothing if the cursor is not at an opening bracket, or if the counts never
become equal. -/
theorem findMatching_eq_none_iff (hne : opening ≠ closing) (i : Nat) :
    (Cursor.mk ts i).findMatching opening closing = none ↔
      kindAt? ts i ≠ some opening ∨ ∀ m, i < m → m < ts.length →
        countKind ts opening i (m + 1) ≠ countKind ts closing i (m + 1) := by
  -- No bracket closes the one at the cursor if there is none or the search never ends.
  have hnever : (∀ j, ¬ Closes ts opening closing i j) ↔ kindAt? ts i ≠ some opening ∨
      ∀ m, i + 1 ≤ m → ¬ (m < ts.length ∧
        countKind ts opening i (m + 1) = countKind ts closing i (m + 1)) := by
    rw [← not_exists_firstFrom_iff]
    constructor
    · intro h
      by_cases hopen : kindAt? ts i = some opening
      · right
        rintro ⟨j, hfirst⟩
        exact h j ⟨hopen, hfirst⟩
      · exact .inl hopen
    · rintro (hopen | hfirst) j hcloses
      · exact hopen hcloses.opens
      · exact hfirst ⟨j, hcloses.first⟩
  rw [Option.eq_none_iff_forall_ne_some]
  simp only [ne_eq, findMatching_eq_some_iff hne, hnever, not_and, Nat.succ_le_iff]

/-! ### Guards -/

namespace Derives

/-- A guard is one expression between two parentheses that match each other. -/
theorem exists_closes_of_guard (h : Derives ts .guard i j [n]) :
    n.kind = .expression ∧ n.span.start = i + 1 ∧ Closes ts .lparen .rparen i n.span.stop := by
  cases h with
  | guard hcloses => exact ⟨rfl, rfl, hcloses⟩

/-- No statement is an expression. -/
theorem kind_ne_expression (h : Derives ts .statement i j [n]) : n.kind ≠ .expression := by
  cases h with
  | statementBlock hblock =>
    cases hblock
    exact nofun
  | loopStatement _ hloop =>
    rcases Parse.loopNode?_eq_some_iff.mp hloop with ⟨-, rfl⟩ | ⟨-, rfl⟩ <;> exact nofun
  | _ => exact nofun

/-- A node that has a guard for its one child that is an expression. -/
theorem guardEnclosed (h : Derives ts .guard i j [n]) {parent : Node}
    (hone : parent.childrenOf .expression = [n]) : parent.GuardEnclosed ts := by
  intro _
  obtain ⟨-, hstart, hcloses⟩ := h.exists_closes_of_guard
  exact ⟨n, i, hone, hstart, hcloses, hcloses.encloses (by decide)⟩

end Derives

/-- Whichever rule makes a control-flow statement, its guard stands between parentheses. -/
theorem IsPhrase.guardEnclosed (h : IsPhrase ts n) : n.GuardEnclosed ts := by
  obtain ⟨symbol, i, j, hnode, h⟩ := h
  -- The four rules that read a guard come first. The others make nodes of other kinds.
  cases h with
  | ifStatement _ hguard hbody =>
    apply hguard.guardEnclosed
    simp [Node.childrenOf, hguard.exists_closes_of_guard.1, hbody.kind_ne_expression]
  | ifElseStatement _ hguard hbody _ hother =>
    apply hguard.guardEnclosed
    simp [Node.childrenOf, hguard.exists_closes_of_guard.1, hbody.kind_ne_expression,
      hother.kind_ne_expression]
  | loopStatement _ _ hguard hbody =>
    apply hguard.guardEnclosed
    simp [Node.childrenOf, hguard.exists_closes_of_guard.1, hbody.kind_ne_expression]
  | doWhileStatement _ hbody _ hguard =>
    apply hguard.guardEnclosed
    simp [Node.childrenOf, hguard.exists_closes_of_guard.1, hbody.kind_ne_expression]
  | itemsCons | statementsCons | parametersNext | parametersComma => cases hnode
  | declaratorsEnded | declaratorsLast | declaratorsComma => cases hnode
  | directive _ hkind =>
    rcases Parse.directiveNode?_eq_some_iff.mp hkind with ⟨-, rfl⟩ | ⟨-, rfl⟩ <;> exact nofun
  | itemDeclaration hdeclaration => cases hdeclaration <;> exact nofun
  | statementBlock hblock =>
    cases hblock
    exact nofun
  | _ => exact nofun

/-- The search for a closing bracket finds the first index behind the cursor through which as many
are closed as are opened, if an opening one is under the cursor. The brackets there match each
other. It finds nothing if the cursor is not at an opening bracket, or if there is no such index. In
a parse, the guard of every control-flow statement stands between two parentheses that match each
other, and the parentheses in it balance. -/
theorem findMatching_exact (ts : List Token) :
    (∀ opening closing : TokenKind, opening ≠ closing → ∀ i,
      (∀ j, (Cursor.mk ts i).findMatching opening closing = some j ↔
        Closes ts opening closing i j) ∧
      (∀ j, Closes ts opening closing i j → Encloses ts opening closing i j) ∧
      ((Cursor.mk ts i).findMatching opening closing = none ↔
        kindAt? ts i ≠ some opening ∨ ∀ m, i < m → m < ts.length →
          countKind ts opening i (m + 1) ≠ countKind ts closing i (m + 1))) ∧
    ∀ tree, parse ts = .ok tree → tree.Everywhere (Node.GuardEnclosed ts) := by
  constructor
  · intro opening closing hne i
    exact ⟨findMatching_eq_some_iff hne i, fun j hcloses => hcloses.encloses hne,
      findMatching_eq_none_iff hne i⟩
  · intro tree hparse
    obtain ⟨nodes, hnodes, rfl⟩ := parse_eq_ok_iff_isUnit.mp hparse
    have hunit : Node.GuardEnclosed ts ⟨.unit, ⟨0, ts.length⟩, nodes⟩ := nofun
    apply Node.Everywhere.node hunit
    intro n hn
    exact (hnodes.everywhere_isPhrase n hn).imp fun _ hphrase => hphrase.guardEnclosed

/-- A function whose body is one statement, `int f() { if ((a)) ; }`. -/
def nestedGuard : List Token :=
  tokensOnRow 0 [.tyInt, .identifier, .lparen, .rparen, .lbrace, .kwIf, .lparen, .lparen,
    .identifier, .rparen, .rparen, .semi, .rbrace]

/-- The guard of `if ((a)) ;` reaches up to the second closing parenthesis. A search for a square
bracket from the same place finds nothing. -/
theorem findMatching_exact_nested :
    Encloses nestedGuard .lparen .rparen 6 10 ∧
      (∀ m, 6 < m → m < 13 →
        countKind nestedGuard .lparen 6 (m + 1) ≠ countKind nestedGuard .rbracket 6 (m + 1)) ∧
      ∃ tree, parse nestedGuard = .ok tree ∧ tree.Everywhere (Node.GuardEnclosed nestedGuard) := by
  obtain ⟨hsearch, hguards⟩ := findMatching_exact nestedGuard
  obtain ⟨hsome, hencloses, -⟩ := hsearch .lparen .rparen (by decide) 6
  obtain ⟨-, -, hnone⟩ := hsearch .lparen .rbracket (by decide) 6
  refine ⟨hencloses 10 ((hsome 10).mp (by decide)), ?_, ?_⟩
  · rcases hnone.mp (by decide) with hopen | hnever
    · exact absurd rfl hopen
    · exact hnever
  · have hparse : (parse nestedGuard).toOption.isSome = true := by decide +kernel
    obtain ⟨tree, htree⟩ := Option.isSome_iff_exists.mp hparse
    have hok := parse_eq_ok_of_toOption htree
    exact ⟨tree, hok, hguards tree hok⟩

end LooseC
