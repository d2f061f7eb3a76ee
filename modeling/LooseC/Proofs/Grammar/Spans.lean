import LooseC.Proofs.Grammar.Phrase
import LooseC.Proofs.Grammar.Unit

/-!
# The spans of a tree

A span is computed from where a production began and where it stopped, or from what a search
found. Put together they nest: every node of a tree lies inside the list and holds its children,
which stand in order and do not overlap (`WellSpanned`, `Node.Everywhere`). Where nothing but the
children stands, they follow each other without a gap (`Tiles`): the top-level constructs in the
unit, the statements between the braces of a block.

The spans are read off the grammar:

* `Derives.ordered`: the nodes of a phrase lie in its range and in order;
* `Derives.tiles`: the nodes of a phrase that consists of nodes tile its range;
* `IsPhrase.wellSpanned`: so the node that a rule makes is well spanned, and every node is made by
  a rule (`Derives.everywhere_wellSpanned`).

`parse_spans` collects them for a whole parse. There the texts of the top-level constructs, put
together, are the text of the unit.
-/

set_option autoImplicit false

namespace LooseC

variable {ts : List Token} {symbol : Symbol} {i j k : Nat} {n : Node} {nodes later : List Node}

/-- The nodes follow each other without a gap, the first from `i` on and the last up to `j`. -/
def Tiles (i j : Nat) : List Node → Prop
  | [] => i = j
  | n :: later => n.span.start = i ∧ Tiles n.span.stop j later

/-- The nodes lie between `i` and `j`, each behind those before it. -/
structure Ordered (i j : Nat) (nodes : List Node) : Prop where
  inside : ∀ n ∈ nodes, i ≤ n.span.start ∧ n.span.stop ≤ j
  apart : nodes.Pairwise fun n m => n.span.stop ≤ m.span.start

/-- What is true of the span of a node in a tree over `ts`. -/
structure WellSpanned (ts : List Token) (n : Node) : Prop where
  start_le : n.span.start ≤ n.span.stop
  stop_le : n.span.stop ≤ ts.length
  children : Ordered n.span.start n.span.stop n.children
  /-- Only an expression is empty, and the unit of an empty list. -/
  empty : n.span.start = n.span.stop → n.kind = .expression ∨ (n.kind = .unit ∧ ts = [])
  /-- The statements of a block stand between its braces, and nothing else does. -/
  block : n.kind = .block → kindAt? ts n.span.start = some .lbrace ∧
    kindAt? ts (n.span.stop - 1) = some .rbrace ∧
    Tiles (n.span.start + 1) (n.span.stop - 1) n.children

/-! ### Nodes in order -/

namespace Ordered

/-- No nodes are in order in any range. -/
theorem nil : Ordered i j [] where
  inside := by simp
  apart := .nil

/-- One node is in order in any range around it. -/
theorem single (hstart : i ≤ n.span.start) (hstop : n.span.stop ≤ j) : Ordered i j [n] where
  inside := by simp [hstart, hstop]
  apart := List.pairwise_singleton _ _

/-- A wider range holds the same nodes. -/
theorem mono {i' j' : Nat} (h : Ordered i j nodes) (hi : i' ≤ i) (hj : j ≤ j') :
    Ordered i' j' nodes where
  inside n hn := ⟨Nat.le_trans hi (h.inside n hn).1, Nat.le_trans (h.inside n hn).2 hj⟩
  apart := h.apart

/-- Nodes in one range and then nodes in a later one. -/
theorem append {j' : Nat} (h : Ordered i j nodes) (hlater : Ordered j' k later) (hij : i ≤ j)
    (hgap : j ≤ j') (hjk : j' ≤ k) : Ordered i k (nodes ++ later) where
  inside := List.forall_mem_append.mpr
    ⟨(h.mono (Nat.le_refl i) (by omega)).inside, (hlater.mono (by omega) (Nat.le_refl k)).inside⟩
  apart := List.pairwise_append.mpr ⟨h.apart, hlater.apart, fun n hn m hm =>
    Nat.le_trans (Nat.le_trans (h.inside n hn).2 hgap) (hlater.inside m hm).1⟩

end Ordered

/-! ### The nodes of a phrase -/

namespace Derives

/-- The nodes of a phrase lie in its range, in order. -/
theorem ordered (h : Derives ts symbol i j nodes) : Ordered i j nodes := by
  induction h with
  | itemsNil => exact .nil
  | parametersNil => exact .nil
  | statementsNil => exact .nil
  | itemsCons hfirst hlater ihfirst ihlater =>
    exact ihfirst.append ihlater hfirst.le (Nat.le_refl _) hlater.le
  | statementsCons _ hfirst hlater ihfirst ihlater =>
    exact ihfirst.append ihlater hfirst.le (Nat.le_refl _) hlater.le
  | parametersNext hfirst _ hlater ihfirst ihlater =>
    exact ihfirst.append ihlater hfirst.le (Nat.le_refl _) hlater.le
  | parametersComma hfirst _ hlater ihfirst ihlater =>
    exact ihfirst.append ihlater hfirst.le (Nat.le_succ _) hlater.le
  | declaratorsComma hfirst _ hlater ihfirst ihlater =>
    exact ihfirst.append ihlater hfirst.le (Nat.le_succ _) hlater.le
  | itemDeclaration _ ih => exact ih
  | statementBlock _ ih => exact ih
  | declaratorsEnded _ ih => exact ih
  | declaratorsLast _ _ ih => exact ih
  | initializer => exact .single (Nat.le_succ _) (Nat.le_refl _)
  | guard => exact .single (Nat.le_succ _) (Nat.le_succ _)
  | _ =>
    -- Every other rule makes one node of the whole range.
    exact .single (Nat.le_refl _) (Nat.le_refl _)

/-- The nodes of two phrases, one behind the other. -/
theorem ordered_append {symbol' : Symbol} {j' : Nat} (h : Derives ts symbol i j nodes)
    (hlater : Derives ts symbol' j' k later) (hgap : j ≤ j') : Ordered i k (nodes ++ later) :=
  h.ordered.append hlater.ordered h.le hgap hlater.le

end Derives

/-- The phrases that consist of nodes: what separates declarators and parameters, and what stands
around an expression, belongs to no node of its own. -/
def Symbol.isTiled : Symbol → Bool
  | .declarators _ | .parameters | .initializer | .guard => false
  | _ => true

/-- A node and the nodes behind it. -/
theorem Tiles.cons (h : Tiles i j [n]) (hlater : Tiles j k later) : Tiles i k (n :: later) := by
  obtain ⟨hstart, rfl⟩ := h
  exact ⟨hstart, hlater⟩

namespace Derives

/-- The nodes of such a phrase tile its range. -/
theorem tiles (h : Derives ts symbol i j nodes) (hsymbol : symbol.isTiled = true) :
    Tiles i j nodes := by
  induction h with
  | itemsNil => rfl
  | statementsNil => rfl
  | itemsCons _ _ ihfirst ihlater =>
    exact (ihfirst rfl).cons (ihlater rfl)
  | statementsCons _ _ _ ihfirst ihlater =>
    exact (ihfirst rfl).cons (ihlater rfl)
  | itemDeclaration _ ih => exact ih rfl
  | statementBlock _ ih => exact ih rfl
  | declaratorsEnded | declaratorsLast | declaratorsComma => cases hsymbol
  | parametersNil | parametersComma | parametersNext => cases hsymbol
  | initializer | guard => cases hsymbol
  | _ => exact ⟨rfl, rfl⟩

end Derives

/-! ### The spans at every depth -/

/-- An expression may be empty. -/
theorem wellSpanned_expression (hij : i ≤ j) (hj : j ≤ ts.length) :
    WellSpanned ts (.leaf .expression ⟨i, j⟩) where
  start_le := hij
  stop_le := hj
  children := .nil
  empty _ := .inl rfl
  block hblock := by cases hblock

/-- The statements of a block tile the range between its braces. -/
theorem wellSpanned_block (hopen : kindAt? ts i = some .lbrace)
    (h : Derives ts .statements (i + 1) j nodes) (hclose : kindAt? ts j = some .rbrace) :
    WellSpanned ts ⟨.block, ⟨i, j + 1⟩, nodes⟩ where
  start_le := by
    have hle := h.le
    show i ≤ j + 1
    omega
  stop_le := lt_length_of_kindAt? hclose
  children := h.ordered.mono (Nat.le_succ i) (Nat.le_succ j)
  empty heq := by
    have hle := h.le
    have hend : i = j + 1 := heq
    omega
  block _ := ⟨hopen, hclose, h.tiles rfl⟩

namespace Derives

/-- A node that a rule makes of the whole range of its phrase, and that is no block, is well
spanned if its children are in order. -/
theorem wellSpanned_node {kind : NodeKind} (h : Derives ts symbol i j [⟨kind, ⟨i, j⟩, nodes⟩])
    (hrun : symbol.isRun = false) (hkind : kind ≠ .block) (hnodes : Ordered i j nodes) :
    WellSpanned ts ⟨kind, ⟨i, j⟩, nodes⟩ where
  start_le := h.le
  stop_le := h.le_length
  children := hnodes
  empty heq := absurd heq (Nat.ne_of_lt (h.lt hrun))
  block hblock := absurd hblock hkind

/-- A node without children that a rule makes of its whole range. -/
theorem wellSpanned_leaf {kind : NodeKind} (h : Derives ts symbol i j [.leaf kind ⟨i, j⟩])
    (hrun : symbol.isRun = false) (hkind : kind ≠ .block) :
    WellSpanned ts (.leaf kind ⟨i, j⟩) :=
  h.wellSpanned_node hrun hkind .nil

/-- A declaration, with a semicolon of its own and without. -/
theorem wellSpanned_declaration (h : Derives ts .declaration i j [n]) : WellSpanned ts n := by
  cases h with
  | declarationEnded htype hlist =>
    have hordered := htype.ordered_append hlist (Nat.le_refl _)
    exact wellSpanned_node (.declarationEnded htype hlist) rfl nofun hordered
  | declarationSemi htype hlist hsemi =>
    have hordered := htype.ordered_append hlist (Nat.le_refl _)
    exact wellSpanned_node (.declarationSemi htype hlist hsemi) rfl nofun
      (hordered.mono (Nat.le_refl _) (Nat.le_succ _))

end Derives

/-- Whichever rule makes a node, it is well spanned. -/
theorem IsPhrase.wellSpanned (h : IsPhrase ts n) : WellSpanned ts n := by
  obtain ⟨symbol, i, j, hnode, h⟩ := h
  cases h with
  | itemsCons | statementsCons | parametersNext | parametersComma => cases hnode
  | declaratorsEnded | declaratorsLast | declaratorsComma => cases hnode
  | itemDeclaration hdeclaration => exact hdeclaration.wellSpanned_declaration
  | declarationEnded htype hlist =>
    exact (Derives.declarationEnded htype hlist).wellSpanned_declaration
  | declarationSemi htype hlist hsemi =>
    exact (Derives.declarationSemi htype hlist hsemi).wellSpanned_declaration
  -- Nodes without children.
  | directive hi hkind hrow =>
    refine Derives.wellSpanned_leaf (.directive hi hkind hrow) rfl ?_
    rintro rfl
    rcases Parse.directiveNode?_eq_some_iff.mp hkind with ⟨-, hblock⟩ | ⟨-, hblock⟩ <;> cases hblock
  | typeWords hi hfirst => exact Derives.wellSpanned_leaf (.typeWords hi hfirst) rfl nofun
  | typeStruct hi hname => exact Derives.wellSpanned_leaf (.typeStruct hi hname) rfl nofun
  | typeName hi => exact Derives.wellSpanned_leaf (.typeName hi) rfl nofun
  | plainDeclarator hi hparen hassign =>
    exact Derives.wellSpanned_leaf (.plainDeclarator hi hparen hassign) rfl nofun
  | plainStatement hi hplain hsemi =>
    exact Derives.wellSpanned_leaf (.plainStatement hi hplain hsemi) rfl nofun
  | initializer _ hend =>
    exact wellSpanned_expression hend.le (Nat.le_of_lt hend.lt_length)
  | guard hcloses =>
    exact wellSpanned_expression hcloses.first.le (Nat.le_of_lt hcloses.first.holds.1)
  -- Nodes over other phrases.
  | declaratorList hlist =>
    exact Derives.wellSpanned_node (.declaratorList hlist) rfl nofun hlist.ordered
  | prototype hi hparameters hsemi =>
    exact Derives.wellSpanned_node (.prototype hi hparameters hsemi) rfl nofun
      (hparameters.ordered.mono (Nat.le_succ _) (Nat.le_succ _))
  | function hi hparameters hbody =>
    have hordered := hparameters.ordered_append hbody (Nat.le_refl _)
    exact Derives.wellSpanned_node (.function hi hparameters hbody) rfl nofun
      (hordered.mono (Nat.le_succ _) (Nat.le_refl _))
  | initialized hi hvalue =>
    exact Derives.wellSpanned_node (.initialized hi hvalue) rfl nofun
      (hvalue.ordered.mono (Nat.le_succ _) (Nat.le_refl _))
  | parameterList hopen hparameters hclose =>
    exact Derives.wellSpanned_node (.parameterList hopen hparameters hclose) rfl nofun
      (hparameters.ordered.mono (Nat.le_succ _) (Nat.le_succ _))
  | parameterNamed htype hname =>
    exact Derives.wellSpanned_node (.parameterNamed htype hname) rfl nofun
      (htype.ordered.mono (Nat.le_refl _) (Nat.le_succ _))
  | parameterUnnamed htype hname =>
    exact Derives.wellSpanned_node (.parameterUnnamed htype hname) rfl nofun htype.ordered
  | block hopen hstatements hclose => exact wellSpanned_block hopen hstatements hclose
  | statementBlock hblock =>
    cases hblock with
    | block hopen hstatements hclose => exact wellSpanned_block hopen hstatements hclose
  | ifStatement hi hguard hbody helse =>
    have hordered := hguard.ordered_append hbody (Nat.le_refl _)
    exact Derives.wellSpanned_node (.ifStatement hi hguard hbody helse) rfl nofun
      (hordered.mono (Nat.le_succ _) (Nat.le_refl _))
  | ifElseStatement hi hguard hbody helse hlater =>
    have hguarded := hguard.ordered_append hbody (Nat.le_refl _)
    have hordered := hguarded.append hlater.ordered (Nat.le_trans hguard.le hbody.le)
      (Nat.le_succ _) hlater.le
    exact Derives.wellSpanned_node (.ifElseStatement hi hguard hbody helse hlater) rfl nofun
      (hordered.mono (Nat.le_succ _) (Nat.le_refl _))
  | loopStatement hi hloop hguard hbody =>
    have hordered := hguard.ordered_append hbody (Nat.le_refl _)
    refine Derives.wellSpanned_node (.loopStatement hi hloop hguard hbody) rfl ?_
      (hordered.mono (Nat.le_succ _) (Nat.le_refl _))
    rintro rfl
    rcases Parse.loopNode?_eq_some_iff.mp hloop with ⟨-, hblock⟩ | ⟨-, hblock⟩ <;> cases hblock
  | doWhileStatement hi hbody hwhile hguard hsemi =>
    have hordered := hbody.ordered_append hguard (Nat.le_succ _)
    exact Derives.wellSpanned_node (.doWhileStatement hi hbody hwhile hguard hsemi) rfl nofun
      (hordered.mono (Nat.le_succ _) (Nat.le_succ _))

/-- The nodes of a phrase are well spanned at every depth. -/
theorem Derives.everywhere_wellSpanned (h : Derives ts symbol i j nodes) :
    ∀ n ∈ nodes, n.Everywhere (WellSpanned ts) := by
  intro n hn
  exact (h.everywhere_isPhrase n hn).imp fun _ hphrase => hphrase.wellSpanned

/-- A node lies in the range of every node above it. -/
theorem Node.Everywhere.inside (h : n.Everywhere (WellSpanned ts)) :
    n.Everywhere fun m => n.span.start ≤ m.span.start ∧ m.span.stop ≤ n.span.stop := by
  induction h with
  | @node n hn hchildren ih =>
    apply Node.Everywhere.node ⟨Nat.le_refl _, Nat.le_refl _⟩
    intro child hchild
    -- A node below a child lies in the child, and the child in the node.
    obtain ⟨hstart, hstop⟩ := hn.children.inside child hchild
    apply (ih child hchild).imp
    intro m hm
    exact ⟨Nat.le_trans hstart hm.1, Nat.le_trans hm.2 hstop⟩

/-- Each of the nodes that a run of top-level constructs contributes is one of these constructs. -/
theorem Derives.item_of_mem (h : Derives ts .items i j nodes) (hn : n ∈ nodes) :
    Derives ts .item n.span.start n.span.stop [n] := by
  generalize hsymbol : Symbol.items = symbol at h
  induction h with
  | itemsNil => cases hn
  | itemsCons hfirst hlater _ ih =>
    rcases List.mem_cons.mp hn with rfl | hn
    · obtain ⟨hstart, hstop⟩ := hfirst.tiles rfl
      rwa [hstart, hstop]
    · exact ih hn rfl
  | _ => cases hsymbol

/-! ### The texts of the top-level constructs -/

/-- The tokens of one range and then those of the next are the tokens of both. -/
theorem drop_take_append (ts : List Token) (hij : i ≤ j) (hjk : j ≤ k) :
    (ts.take j).drop i ++ (ts.take k).drop j = (ts.take k).drop i := by
  have hfront : ((ts.take k).drop i).take (j - i) = (ts.take j).drop i := by
    rw [List.take_drop, Nat.add_sub_of_le hij, List.take_take, Nat.min_eq_left hjk]
  have hback : ((ts.take k).drop i).drop (j - i) = (ts.take k).drop j := by
    rw [List.drop_drop, Nat.add_sub_of_le hij]
  rw [← hfront, ← hback, List.take_append_drop]

/-- The lexemes from one index up to another, with one space between each two. -/
def textBetween (ts : List Token) (i j : Nat) : String :=
  String.intercalate " " (((ts.take j).drop i).map Token.lexeme)

/-- The text of a node that lies in the list is that of its range. -/
theorem Node.text_eq_textBetween (h : n.span.stop ≤ ts.length) :
    n.text ts = textBetween ts n.span.start n.span.stop := by
  rw [text, tokens, if_pos h, textBetween]

/-- Two ranges that are not empty have a space between their texts. -/
theorem textBetween_append (hij : i < j) (hjk : j < k) (hk : k ≤ ts.length) :
    textBetween ts i k = textBetween ts i j ++ " " ++ textBetween ts j k := by
  have hnonempty {i j : Nat} (hij : i < j) (hj : j ≤ ts.length) :
      ((ts.take j).drop i).map Token.lexeme ≠ [] := by
    rw [ne_eq, List.map_eq_nil_iff, List.drop_eq_nil_iff, List.length_take]
    omega
  rw [textBetween, ← drop_take_append ts (Nat.le_of_lt hij) (Nat.le_of_lt hjk), List.map_append,
    String.intercalate_append_of_ne_nil (hnonempty hij (by omega)) (hnonempty hjk hk)]
  rfl

/-- The texts of top-level constructs, with one space between each two, are the text of their
range. -/
theorem Derives.text_items (h : Derives ts .items i j nodes) :
    String.intercalate " " (nodes.map fun n => n.text ts) = textBetween ts i j := by
  generalize hsymbol : Symbol.items = symbol at h
  induction h with
  | itemsNil =>
    rw [textBetween, List.drop_eq_nil_of_le (by simp)]
    rfl
  | @itemsCons i j k node nodes hfirst hlater _ ih =>
    obtain ⟨hstart, hstop⟩ : node.span.start = i ∧ node.span.stop = j := hfirst.tiles rfl
    have htext := Node.text_eq_textBetween (hstop ▸ hfirst.le_length)
    rw [hstart, hstop] at htext
    have hlater' := ih rfl
    cases hlater with
    | itemsNil => rw [List.map_cons, List.map_nil, String.intercalate_singleton, htext]
    | itemsCons hsecond hrest =>
      -- Another construct follows, so there is a space behind this one.
      have hlt := hsecond.lt rfl
      have hle := hrest.le
      rw [List.map_cons, String.intercalate_cons_of_ne_nil (by simp), htext, hlater',
        textBetween_append (hfirst.lt rfl) (by omega) hrest.le_length]
  | _ => cases hsymbol

/-- The spans of a tree nest: every node lies inside the list, holds its children in order and
without overlap, and is not empty unless it is an expression or the unit of an empty list; the
statements of a block tile the range between its braces. The unit is the whole list, its children
tile it, and their texts, with one space between each two, are its text. -/
theorem parse_spans {tree : Node} (h : parse ts = .ok tree) :
    tree.Everywhere (WellSpanned ts) ∧ tree.kind = .unit ∧ tree.span = ⟨0, ts.length⟩ ∧
      Tiles 0 ts.length tree.children ∧
      String.intercalate " " (tree.children.map fun n => n.text ts) = tree.text ts := by
  obtain ⟨nodes, hnodes, rfl⟩ := parse_eq_ok_iff_isUnit.mp h
  have hunit : WellSpanned ts ⟨.unit, ⟨0, ts.length⟩, nodes⟩ :=
    { start_le := Nat.zero_le _
      stop_le := Nat.le_refl _
      children := hnodes.ordered
      empty := fun heq => .inr ⟨rfl, List.length_eq_zero_iff.mp heq.symm⟩
      block := fun hblock => by cases hblock }
  refine ⟨.node hunit hnodes.everywhere_wellSpanned, rfl, rfl, hnodes.tiles rfl, ?_⟩
  rw [hnodes.text_items, Node.text_eq_textBetween (Nat.le_refl _)]

/-- The spans of `int f() { ; }`, a function whose body is one statement. -/
theorem parse_spans_function : ∃ tree,
    parse (tokensOnRow 0 [.tyInt, .identifier, .lparen, .rparen, .lbrace, .semi, .rbrace]) =
      .ok tree ∧
    tree.Everywhere (WellSpanned
      (tokensOnRow 0 [.tyInt, .identifier, .lparen, .rparen, .lbrace, .semi, .rbrace])) ∧
    Tiles 0 7 tree.children := by
  have hparse : parse
      (tokensOnRow 0 [.tyInt, .identifier, .lparen, .rparen, .lbrace, .semi, .rbrace]) =
      .ok ⟨.unit, ⟨0, 7⟩, [⟨.declaration, ⟨0, 7⟩, [.leaf .type ⟨0, 1⟩,
        ⟨.declaratorList, ⟨1, 7⟩, [⟨.declarator, ⟨1, 7⟩, [.leaf .parameterList ⟨2, 4⟩,
          ⟨.block, ⟨4, 7⟩, [.leaf .statement ⟨5, 6⟩]⟩]⟩]⟩]⟩]⟩ :=
    parse_eq_ok_of_toOption (by decide +kernel)
  obtain ⟨hspans, -, -, htiles, -⟩ := parse_spans hparse
  exact ⟨_, hparse, hspans, htiles⟩

end LooseC
