import LooseC.Proofs.Grammar.Spans
import LooseC.Proofs.Tree.Outline
import LooseC.Snapshot.Query
import Mathlib.Data.List.Basic

/-!
# The functions of a snapshot

The names of the functions are found by a walk over the whole tree that keeps every declarator with
a body. What it finds can be told from the top-level declarations alone: those that end in a brace
define one function each, by their last declarator, and no others define any.

This rests on where declarators and bodies stand:

* no phrase inside a declarator holds a declarator (`Derives.everywhere_kind_ne_declarator`);
* only the last declarator of a list may have a body or end in a semicolon
  (`Derives.declarators_split`), and what ends in neither has no body
  (`Derives.definitions_unended`);
* a declarator that ends its declaration ends in a brace exactly if it has a body
  (`Derives.definitions_ended`), and otherwise the declaration ends in a semicolon.

An initializer may end in a brace too, but then a semicolon follows it.
-/

set_option autoImplicit false

namespace LooseC

variable {ts : List Token} {symbol : Symbol} {ended : Bool} {i j : Nat} {n : Node}
  {nodes : List Node}

/-! ### Where declarators stand -/

/-- The phrases that hold no declarator. -/
def Symbol.isInner : Symbol → Bool
  | .items | .item | .declaration | .declaratorList _ | .declarators _ | .declarator _ => false
  | _ => true

/-- No node of such a phrase is a declarator. -/
theorem Derives.everywhere_kind_ne_declarator (h : Derives ts symbol i j nodes)
    (hinner : symbol.isInner = true) :
    ∀ n ∈ nodes, n.Everywhere fun m => m.kind ≠ .declarator := by
  induction h with
  | itemsNil | itemsCons | directive | itemDeclaration => cases hinner
  | declarationEnded | declarationSemi | declaratorList => cases hinner
  | declaratorsEnded | declaratorsLast | declaratorsComma => cases hinner
  | prototype | function | initialized | plainDeclarator => cases hinner
  | parametersNil | statementsNil => simp
  | typeWords | typeStruct | typeName => exact Node.everywhere_leaf nofun
  | initializer | guard | plainStatement => exact Node.everywhere_leaf nofun
  -- Rules that put the nodes of other phrases together.
  | parametersComma _ _ _ ih ihlater => exact List.forall_mem_append.mpr ⟨ih rfl, ihlater rfl⟩
  | parametersNext _ _ _ ih ihlater => exact List.forall_mem_append.mpr ⟨ih rfl, ihlater rfl⟩
  | statementsCons _ _ _ ih ihlater => exact List.forall_mem_append.mpr ⟨ih rfl, ihlater rfl⟩
  | statementBlock _ ih => exact ih rfl
  -- Nodes over the nodes of other phrases.
  | parameterList _ _ _ ih => exact Node.everywhere_node nofun (ih rfl)
  | parameterNamed _ _ ih => exact Node.everywhere_node nofun (ih rfl)
  | parameterUnnamed _ _ ih => exact Node.everywhere_node nofun (ih rfl)
  | block _ _ _ ih => exact Node.everywhere_node nofun (ih rfl)
  | ifStatement _ _ _ _ ihguard ihbody =>
    exact Node.everywhere_node nofun (List.forall_mem_append.mpr ⟨ihguard rfl, ihbody rfl⟩)
  | ifElseStatement _ _ _ _ _ ihguard ihbody ihlater =>
    have hguarded := List.forall_mem_append.mpr ⟨ihguard rfl, ihbody rfl⟩
    exact Node.everywhere_node nofun (List.forall_mem_append.mpr ⟨hguarded, ihlater rfl⟩)
  | loopStatement _ hloop _ _ ihguard ihbody =>
    refine Node.everywhere_node ?_ (List.forall_mem_append.mpr ⟨ihguard rfl, ihbody rfl⟩)
    rcases Parse.loopNode?_eq_some_iff.mp hloop with ⟨-, rfl⟩ | ⟨-, rfl⟩ <;> nofun
  | doWhileStatement _ _ _ _ _ ihbody ihguard =>
    exact Node.everywhere_node nofun (List.forall_mem_append.mpr ⟨ihbody rfl, ihguard rfl⟩)

/-- A directive is none of the kinds that definitions are told by. -/
theorem kind_ne_of_directiveNode? {first : TokenKind} {kind : NodeKind}
    (h : directiveNode? first = some kind) :
    kind ≠ .declaration ∧ kind ≠ .declarator ∧ kind ≠ .block := by
  rcases Parse.directiveNode?_eq_some_iff.mp h with ⟨-, rfl⟩ | ⟨-, rfl⟩ <;> simp

/-- A block is such a phrase, wherever it stands. -/
theorem IsPhrase.everywhere_of_block (h : IsPhrase ts n) (hblock : n.kind = .block) :
    n.Everywhere fun m => m.kind ≠ .declarator := by
  obtain ⟨symbol, i, j, hnode, h⟩ := h
  have hinner : symbol.isInner = true := by
    cases h with
    | itemsCons | declaratorsEnded | declaratorsLast | declaratorsComma => cases hnode
    | directive _ hkind => exact absurd hblock (kind_ne_of_directiveNode? hkind).2.2
    | itemDeclaration hdeclaration => cases hdeclaration <;> cases hblock
    | declarationEnded | declarationSemi | declaratorList => cases hblock
    | prototype | function | initialized | plainDeclarator => cases hblock
    | _ => rfl
  exact h.everywhere_kind_ne_declarator hinner n (by simp)

/-! ### The definitions in a tree -/

namespace Node

/-- The declarators with a body in a tree, in pre-order. -/
def definitions (n : Node) : List Node :=
  (n.walk.map Visit.node).filter Snapshot.isDefinition

/-- The definitions of a tree are its root, if that is one, and then those of the children. -/
theorem definitions_eq (n : Node) : n.definitions =
    (if Snapshot.isDefinition n then [n] else []) ++ n.children.flatMap definitions := by
  have hdefinitions : definitions = fun m =>
      ((m.preorder 0).map Visit.node).filter Snapshot.isDefinition :=
    funext fun m => by rw [definitions, walk_eq_preorder]
  simp only [hdefinitions]
  rw [map_node_preorder, List.filter_cons, List.filter_flatMap]
  split <;> rfl

/-- A definition comes before those below it. -/
theorem definitions_eq_cons (h : Snapshot.isDefinition n = true) :
    n.definitions = n :: n.children.flatMap definitions := by
  rw [definitions_eq, h]
  rfl

/-- A node that is no definition has those below it only. -/
theorem definitions_eq_of_not (h : Snapshot.isDefinition n = false) :
    n.definitions = n.children.flatMap definitions := by
  rw [definitions_eq, h]
  rfl

/-- A tree without declarators defines nothing. -/
theorem Everywhere.definitions_eq_nil (h : n.Everywhere fun m => m.kind ≠ .declarator) :
    n.definitions = [] := by
  induction h with
  | node hkind _ ih =>
    rw [definitions_eq_of_not (by simp [Snapshot.isDefinition, hkind]), List.flatMap_eq_nil_iff]
    exact ih

/-- The declarators of a declaration, which are those of its list. -/
def declarators (n : Node) : List Node :=
  (n.childrenOf .declaratorList).flatMap fun list => list.childrenOf .declarator

/-- The node is a declaration whose last token is a closing brace. -/
def endsInBrace (ts : List Token) (n : Node) : Bool :=
  n.kind == .declaration && (n.tokens ts).getLast?.map Token.kind == some .rbrace

/-! ### The tokens of a node -/

/-- The tokens of a node by their index in the whole list. -/
theorem getElem?_tokens (hstop : n.span.stop ≤ ts.length) (m : Nat) : (n.tokens ts)[m]? =
    if n.span.start + m < n.span.stop then ts[n.span.start + m]? else none := by
  rw [tokens, if_pos hstop, List.getElem?_drop, List.getElem?_take]

/-- The last token of a node that is not empty stands in front of its end. -/
theorem getLast?_tokens (hlt : n.span.start < n.span.stop) (hstop : n.span.stop ≤ ts.length) :
    (n.tokens ts).getLast? = ts[n.span.stop - 1]? := by
  rw [List.getLast?_eq_getElem?, length_tokens hstop, getElem?_tokens hstop, if_pos (by omega)]
  congr 1
  omega

/-- The first two tokens of a node, by their kinds. -/
theorem tokens_eq_cons_cons {first second : TokenKind} (hlt : n.span.start + 1 < n.span.stop)
    (hstop : n.span.stop ≤ ts.length) (hfirst : kindAt? ts n.span.start = some first)
    (hsecond : kindAt? ts (n.span.start + 1) = some second) :
    ∃ t u rest, n.tokens ts = t :: u :: rest ∧ t.kind = first ∧ u.kind = second := by
  have hkind (m : Nat) (hm : n.span.start + m < n.span.stop) :
      (n.tokens ts)[m]?.map Token.kind = kindAt? ts (n.span.start + m) := by
    rw [getElem?_tokens hstop, if_pos hm, kindAt?]
  rw [← Nat.add_zero n.span.start, ← hkind 0 (by omega)] at hfirst
  rw [← hkind 1 hlt] at hsecond
  generalize n.tokens ts = tokens at hfirst hsecond ⊢
  rcases tokens with _ | ⟨t, _ | ⟨u, rest⟩⟩
  · cases hfirst
  · cases hsecond
  · exact ⟨t, u, rest, rfl, Option.some.inj hfirst, Option.some.inj hsecond⟩

end Node

/-! ### Declarators -/

namespace Derives

/-- What holds no declarator defines nothing. -/
theorem definitions_inner (h : Derives ts symbol i j nodes) (hinner : symbol.isInner = true) :
    ∀ n ∈ nodes, n.definitions = [] := by
  intro n hn
  exact (h.everywhere_kind_ne_declarator hinner n hn).definitions_eq_nil

/-- Every rule for declarators makes one. -/
theorem kind_declarator (h : Derives ts (.declarator ended) i j [n]) : n.kind = .declarator := by
  cases h <;> rfl

/-- All declarators of a list but the last leave the declaration open. -/
theorem declarators_split (h : Derives ts (.declarators ended) i j nodes) :
    ∃ front last k, nodes = front ++ [last] ∧
      (∀ n ∈ front, ∃ k l, Derives ts (.declarator false) k l [n]) ∧
      Derives ts (.declarator ended) k j [last] := by
  generalize hsymbol : Symbol.declarators ended = symbol at h
  induction h with
  | declaratorsEnded hlast =>
    cases hsymbol
    exact ⟨[], _, _, rfl, by simp, hlast⟩
  | declaratorsLast hlast =>
    cases hsymbol
    exact ⟨[], _, _, rfl, by simp, hlast⟩
  | declaratorsComma hfirst _ _ _ ih =>
    obtain ⟨front, last, k, rfl, hfront, hlast⟩ := ih hsymbol
    exact ⟨_ :: front, last, k, rfl, List.forall_mem_cons.mpr ⟨⟨_, _, hfirst⟩, hfront⟩, hlast⟩
  | _ => cases hsymbol

/-- A declarator that leaves its declaration open has no body. -/
theorem definitions_unended (h : Derives ts (.declarator false) i j [n]) : n.definitions = [] := by
  cases h with
  | initialized _ hvalue =>
    have hinner := hvalue.definitions_inner rfl
    cases hvalue
    rw [Node.definitions_eq_of_not rfl, List.flatMap_eq_nil_iff]
    exact hinner
  | plainDeclarator =>
    rw [Node.definitions_eq_of_not rfl]
    rfl

/-- A declarator that ends its declaration has a body exactly if it ends in a brace. -/
theorem definitions_ended (h : Derives ts (.declarator true) i j [n]) :
    n.definitions = if kindAt? ts (j - 1) = some .rbrace then [n] else [] := by
  -- A prototype ends in a semicolon, and a function in the brace of its body.
  cases h with
  | prototype _ hparameters hsemi =>
    have hinner := hparameters.definitions_inner rfl
    cases hparameters
    rw [Nat.add_sub_cancel, hsemi, if_neg nofun, Node.definitions_eq_of_not rfl,
      List.flatMap_eq_nil_iff]
    exact hinner
  | function _ hparameters hbody =>
    have hinner := List.forall_mem_append.mpr
      ⟨hparameters.definitions_inner rfl, hbody.definitions_inner rfl⟩
    cases hparameters
    cases hbody with
    | block _ _ hclose =>
      rw [Nat.add_sub_cancel, hclose, if_pos rfl, Node.definitions_eq_cons rfl]
      exact congrArg (_ :: ·) (List.flatMap_eq_nil_iff.mpr hinner)

/-- Such a declarator begins with a name and an opening parenthesis. -/
theorem name_of_ended (h : Derives ts (.declarator true) i j [n]) :
    ∃ t u rest, n.tokens ts = t :: u :: rest ∧ t.kind = .identifier ∧ u.kind = .lparen := by
  have hlen := h.le_length
  -- Both kinds of function go on with a parameter list behind the name.
  cases h with
  | prototype hname hparameters =>
    have hlt := hparameters.lt rfl
    cases hparameters with
    | parameterList hopen =>
      exact Node.tokens_eq_cons_cons (Nat.lt_succ_of_lt hlt) hlen hname hopen
  | function hname hparameters hbody =>
    have hlt := hparameters.lt rfl
    have hle := hbody.le
    cases hparameters with
    | parameterList hopen =>
      exact Node.tokens_eq_cons_cons (Nat.lt_of_lt_of_le hlt hle) hlen hname hopen

/-! ### Declarations -/

/-- What a list of declarators defines is up to the last one. -/
theorem declaratorList_last (h : Derives ts (.declaratorList ended) i j [n]) :
    ∃ last k, n.kind = .declaratorList ∧ (n.childrenOf .declarator).getLast? = some last ∧
      n.definitions = last.definitions ∧ Derives ts (.declarator ended) k j [last] := by
  cases h with
  | declaratorList hnodes =>
    obtain ⟨front, last, k, rfl, hfront, hlast⟩ := hnodes.declarators_split
    -- All nodes of the list are declarators, so they are all of its declarators.
    have hkind : ∀ n ∈ front ++ [last], (n.kind == .declarator) = true := by
      refine List.forall_mem_append.mpr ⟨?_, by simp [hlast.kind_declarator]⟩
      intro n hn
      obtain ⟨k, l, hn⟩ := hfront n hn
      simp [hn.kind_declarator]
    have hnone : front.flatMap Node.definitions = [] := by
      rw [List.flatMap_eq_nil_iff]
      intro n hn
      obtain ⟨k, l, hn⟩ := hfront n hn
      exact hn.definitions_unended
    refine ⟨last, k, rfl, ?_, ?_, hlast⟩
    · rw [Node.childrenOf, List.filter_eq_self.mpr hkind, List.getLast?_concat]
    · rw [Node.definitions_eq_of_not rfl, List.flatMap_append, hnone]
      simp

/-- A declaration is a type and a list of declarators, and the type defines nothing. -/
theorem last_of_type_list {k l : Nat} {type list : Node} (span : Span)
    (htype : Derives ts .type i j [type]) (hlist : Derives ts (.declaratorList ended) k l [list]) :
    ∃ last m, (Node.mk .declaration span [type, list]).declarators.getLast? = some last ∧
      (Node.mk .declaration span [type, list]).definitions = last.definitions ∧
      Derives ts (.declarator ended) m l [last] := by
  have htypeKind : type.kind = .type := by cases htype <;> rfl
  have hinner := htype.definitions_inner rfl type (by simp)
  obtain ⟨last, m, hkind, hgetLast, hdefinitions, hlast⟩ := hlist.declaratorList_last
  refine ⟨last, m, ?_, ?_, hlast⟩
  · simp [Node.declarators, Node.childrenOf, htypeKind, hkind, ← hgetLast]
  · rw [Node.definitions_eq_of_not rfl, ← hdefinitions]
    simp [hinner]

/-- What a declaration defines is up to its last declarator. The declaration ends where that one
does, or in a semicolon of its own. -/
theorem declaration_last (h : Derives ts .declaration i j [n]) :
    ∃ last k l ended, n.declarators.getLast? = some last ∧ n.definitions = last.definitions ∧
      Derives ts (.declarator ended) k l [last] ∧
      (ended = true ∧ l = j ∨ ended = false ∧ kindAt? ts (j - 1) = some .semi) := by
  cases h with
  | declarationEnded htype hlist =>
    obtain ⟨last, k, hgetLast, hdefinitions, hlast⟩ := last_of_type_list _ htype hlist
    exact ⟨last, k, _, true, hgetLast, hdefinitions, hlast, .inl ⟨rfl, rfl⟩⟩
  | declarationSemi htype hlist hsemi =>
    obtain ⟨last, k, hgetLast, hdefinitions, hlast⟩ := last_of_type_list _ htype hlist
    exact ⟨last, k, _, false, hgetLast, hdefinitions, hlast, .inr ⟨rfl, hsemi⟩⟩

/-! ### Top-level constructs -/

/-- A construct at the top ends in a brace if it is a declaration and the token in front of its end
is a closing brace. -/
theorem endsInBrace_iff (h : Derives ts .item i j [n]) : n.endsInBrace ts = true ↔
    n.kind = .declaration ∧ kindAt? ts (j - 1) = some .rbrace := by
  obtain ⟨hstart, hstop⟩ := h.tiles rfl
  have hlt := h.lt rfl
  have hlen := h.le_length
  -- The construct stands where its node does, and it is not empty.
  rw [← hstart, ← hstop] at hlt
  rw [← hstop] at hlen
  rw [Node.endsInBrace, Node.getLast?_tokens hlt hlen, hstop]
  simp [kindAt?]

/-- A construct that ends in a brace defines what its last declarator names, and no other construct
defines anything. -/
theorem definitions_item (h : Derives ts .item i j [n]) :
    n.definitions = if n.endsInBrace ts then n.declarators.getLast?.toList else [] := by
  have hbrace := h.endsInBrace_iff
  cases h with
  | directive _ hkind =>
    obtain ⟨hdeclaration, hdeclarator, -⟩ := kind_ne_of_directiveNode? hkind
    rw [if_neg fun h => hdeclaration (hbrace.mp h).1]
    exact (Node.everywhere_leaf hdeclarator _ List.mem_cons_self).definitions_eq_nil
  | itemDeclaration hdeclaration =>
    have hkind : n.kind = .declaration := by cases hdeclaration <;> rfl
    obtain ⟨last, k, l, ended, hgetLast, hdefinitions, hlast, hend⟩ :=
      hdeclaration.declaration_last
    rw [hdefinitions, hgetLast]
    -- The last declarator ends the declaration, or a semicolon does and there is no brace.
    rcases hend with ⟨rfl, rfl⟩ | ⟨rfl, hsemi⟩
    · rw [hlast.definitions_ended]
      simp [hbrace, hkind]
    · have hnot : ¬ n.endsInBrace ts = true := by simp [hbrace, hsemi]
      rw [hlast.definitions_unended, if_neg hnot]

/-- The last declarator of a construct that ends in a brace begins with a name and an opening
parenthesis. -/
theorem name_of_endsInBrace (h : Derives ts .item i j [n]) (hbrace : n.endsInBrace ts = true) :
    ∃ last t u rest, n.declarators.getLast? = some last ∧ last.tokens ts = t :: u :: rest ∧
      t.kind = .identifier ∧ u.kind = .lparen := by
  obtain ⟨hkind, hlastKind⟩ := h.endsInBrace_iff.mp hbrace
  cases h with
  | directive _ hdirective => exact absurd hkind (kind_ne_of_directiveNode? hdirective).1
  | itemDeclaration hdeclaration =>
    obtain ⟨last, k, l, ended, hgetLast, -, hlast, hend⟩ := hdeclaration.declaration_last
    rcases hend with ⟨rfl, rfl⟩ | ⟨rfl, hsemi⟩
    · obtain ⟨t, u, rest, htokens⟩ := hlast.name_of_ended
      exact ⟨last, t, u, rest, hgetLast, htokens⟩
    · rw [hsemi] at hlastKind
      cases hlastKind

end Derives

/-! ### The names of the functions -/

namespace Snapshot

variable {name source : String} {snap : Snapshot}

/-- The names are those of the definitions in the tree. -/
theorem functionNames_eq (snap : Snapshot) : snap.functionNames =
    snap.tree.definitions.filterMap fun n => (n.firstToken? snap.tokens).map Token.lexeme := by
  rw [functionNames, Node.definitions, List.filter_map, List.filterMap_map]
  rfl

/-- The names of the functions are told by the top-level declarations that end in a brace, in order
and each with its own. It is the first token of the last declarator, and an opening parenthesis
follows it. The last declarators of these declarations are all the declarators with a body in the
tree: there are no others in the declarations themselves, in those that end otherwise, or inside a
block. -/
theorem analyze_functionNames (h : analyze name source = .ok snap) :
    snap.functionNames.map some =
      (snap.tree.children.filter (Node.endsInBrace snap.tokens)).map (fun d =>
        d.declarators.getLast?.bind fun n => (n.firstToken? snap.tokens).map Token.lexeme) ∧
    (∀ d ∈ snap.tree.children, d.endsInBrace snap.tokens = true →
      ∃ n t u rest, d.declarators.getLast? = some n ∧ n.tokens snap.tokens = t :: u :: rest ∧
        t.kind = .identifier ∧ u.kind = .lparen) ∧
    snap.tree.definitions = (snap.tree.children.filter (Node.endsInBrace snap.tokens)).filterMap
      (fun d => d.declarators.getLast?) ∧
    (∀ c ∈ snap.tree.children, c.definitions =
      if c.endsInBrace snap.tokens then c.declarators.getLast?.toList else []) ∧
    snap.tree.Everywhere fun b => b.kind = .block → b.definitions = [] := by
  obtain ⟨-, htree, -⟩ := analyze_eq_ok_iff.mp h
  obtain ⟨nodes, hnodes, hunit⟩ := parse_eq_ok_iff_isUnit.mp htree
  have hchildren : snap.tree.children = nodes := by rw [hunit]
  have hnames : ∀ d ∈ nodes, d.endsInBrace snap.tokens = true →
      ∃ n t u rest, d.declarators.getLast? = some n ∧ n.tokens snap.tokens = t :: u :: rest ∧
        t.kind = .identifier ∧ u.kind = .lparen :=
    fun d hd => (hnodes.item_of_mem hd).name_of_endsInBrace
  have hdefinitions : ∀ c ∈ nodes, c.definitions =
      if c.endsInBrace snap.tokens then c.declarators.getLast?.toList else [] :=
    fun c hc => (hnodes.item_of_mem hc).definitions_item
  have hall : snap.tree.definitions = (nodes.filter (Node.endsInBrace snap.tokens)).filterMap
      (fun d => d.declarators.getLast?) := by
    rw [hunit, Node.definitions_eq_of_not rfl, List.filterMap_filter,
      List.filterMap_eq_flatMap_toList]
    refine List.flatMap_congr fun c hc => ?_
    rw [hdefinitions c hc]
    split <;> rfl
  rw [hchildren]
  -- What is left are the names in order, and the blocks, in which no declarator stands.
  refine ⟨?_, hnames, hall, hdefinitions, ?_⟩
  · rw [functionNames_eq, hall, List.filterMap_filterMap, List.map_filterMap,
      ← List.filterMap_eq_map]
    refine List.filterMap_congr fun d hd => ?_
    obtain ⟨hmem, hbrace⟩ := List.mem_filter.mp hd
    obtain ⟨n, t, u, rest, hlast, htokens, -⟩ := hnames d hmem hbrace
    simp [hlast, Node.firstToken?, htokens]
  · rw [hunit]
    refine .node nofun fun c hc => ?_
    exact (hnodes.everywhere_isPhrase c hc).imp fun b hb hblock =>
      (hb.everywhere_of_block hblock).definitions_eq_nil

/-- Two functions of one name, of which one shares its declaration with a variable, beside a
prototype and a variable whose value ends in a brace. -/
theorem analyze_functionNames_repeated : ∃ snap,
    analyze "m" "int g(); int a, f() { a; } int b = {1}; int f() { }" = .ok snap ∧
      snap.functionNames = ["f", "f"] ∧
      snap.tree.definitions = (snap.tree.children.filter
        (Node.endsInBrace snap.tokens)).filterMap fun d => d.declarators.getLast? := by
  have hlast : (analyze "m" "int g(); int a, f() { a; } int b = {1}; int f() { }").toOption.map
      (fun snap => (snap.tree.children.filter (Node.endsInBrace snap.tokens)).map fun d =>
        d.declarators.getLast?.bind fun n => (n.firstToken? snap.tokens).map Token.lexeme) =
      some [some "f", some "f"] := by
    decide +kernel
  obtain ⟨snap, hsnap, hlast⟩ := exists_analyze_eq_ok hlast
  obtain ⟨heq, -, hdefinitions, -⟩ := analyze_functionNames hsnap
  have hfunctions : snap.functionNames.map some = ["f", "f"].map some := heq.trans hlast
  have hnames := (List.map_inj_right fun _ _ => Option.some.inj).mp hfunctions
  exact ⟨snap, hsnap, hnames, hdefinitions⟩

end Snapshot

end LooseC
