import LooseC.Proofs.Grammar.Basic

/-!
# Every node is a phrase

A phrase contributes nodes to the tree, and these hold the nodes of the phrases inside it. So every
node of a tree, at every depth, is what some phrase contributes as its one node (`IsPhrase`), and
what each rule of the grammar says of the node that it makes is true of all of them.

`Derives.everywhere_isPhrase` is the induction over the derivation that shows this. A property of
nodes at every depth then needs no induction of its own, only a case for each rule that makes a
node and `Node.Everywhere.imp`.
-/

set_option autoImplicit false

namespace LooseC

variable {ts : List Token} {symbol : Symbol} {i j : Nat} {n : Node} {nodes : List Node}

/-- The property holds of the node and of every node below it. -/
inductive Node.Everywhere (P : Node → Prop) : Node → Prop where
  | node {n : Node} (hn : P n) (hchildren : ∀ child ∈ n.children, Everywhere P child) :
      Everywhere P n

/-- The phrases that make one node. -/
def Symbol.makesNode : Symbol → Bool
  | .items | .declarators _ | .parameters | .statements => false
  | _ => true

/-- The node is what a phrase over some range of the tokens contributes to the tree. -/
def IsPhrase (ts : List Token) (n : Node) : Prop :=
  ∃ symbol i j, symbol.makesNode = true ∧ Derives ts symbol i j [n]

/-- A property that holds at every depth may be weakened. -/
theorem Node.Everywhere.imp {P Q : Node → Prop} (h : n.Everywhere P) (hPQ : ∀ m, P m → Q m) :
    n.Everywhere Q := by
  induction h with
  | node hn _ ih => exact .node (hPQ _ hn) ih

/-- A property holds at every depth of a forest of one tree if it holds of the root and at every
depth of the trees below. -/
theorem Node.everywhere_node {P : Node → Prop} {kind : NodeKind} {span : Span}
    (h : P ⟨kind, span, nodes⟩) (hnodes : ∀ m ∈ nodes, m.Everywhere P) :
    ∀ m ∈ [Node.mk kind span nodes], m.Everywhere P := by
  simpa using Node.Everywhere.node h hnodes

/-- At a leaf there is one node to look at. -/
theorem Node.everywhere_leaf {P : Node → Prop} {kind : NodeKind} {span : Span}
    (h : P (.leaf kind span)) : ∀ m ∈ [Node.leaf kind span], m.Everywhere P :=
  Node.everywhere_node h (by simp)

namespace Derives

/-- A phrase makes a node whose children are phrases at every depth. -/
theorem everywhere_of_children {kind : NodeKind} {span : Span}
    (h : Derives ts symbol i j [⟨kind, span, nodes⟩]) (hnode : symbol.makesNode = true)
    (hnodes : ∀ m ∈ nodes, m.Everywhere (IsPhrase ts)) :
    ∀ m ∈ [Node.mk kind span nodes], m.Everywhere (IsPhrase ts) :=
  Node.everywhere_node ⟨symbol, i, j, hnode, h⟩ hnodes

/-- A rule that makes a leaf makes a phrase of it. -/
theorem everywhere_of_leaf {kind : NodeKind} {span : Span}
    (h : Derives ts symbol i j [.leaf kind span]) (hnode : symbol.makesNode = true) :
    ∀ m ∈ [Node.leaf kind span], m.Everywhere (IsPhrase ts) :=
  Node.everywhere_leaf ⟨symbol, i, j, hnode, h⟩

/-- Every node that a phrase contributes, at every depth, is a phrase of its own. -/
theorem everywhere_isPhrase (h : Derives ts symbol i j nodes) :
    ∀ n ∈ nodes, n.Everywhere (IsPhrase ts) := by
  induction h with
  | itemsNil | parametersNil | statementsNil => simp
  -- Rules that put the nodes of other phrases together.
  | itemsCons _ _ ih ihlater => exact List.forall_mem_append.mpr ⟨ih, ihlater⟩
  | statementsCons _ _ _ ih ihlater => exact List.forall_mem_append.mpr ⟨ih, ihlater⟩
  | parametersNext _ _ _ ih ihlater => exact List.forall_mem_append.mpr ⟨ih, ihlater⟩
  | parametersComma _ _ _ ih ihlater => exact List.forall_mem_append.mpr ⟨ih, ihlater⟩
  | declaratorsComma _ _ _ ih ihlater => exact List.forall_mem_append.mpr ⟨ih, ihlater⟩
  | itemDeclaration _ ih => exact ih
  | statementBlock _ ih => exact ih
  | declaratorsEnded _ ih => exact ih
  | declaratorsLast _ _ ih => exact ih
  -- Nodes without children.
  | directive hi hkind hrow => exact everywhere_of_leaf (.directive hi hkind hrow) rfl
  | typeWords hi hfirst => exact everywhere_of_leaf (.typeWords hi hfirst) rfl
  | typeStruct hi hname => exact everywhere_of_leaf (.typeStruct hi hname) rfl
  | typeName hi => exact everywhere_of_leaf (.typeName hi) rfl
  | plainDeclarator hi hparen hassign =>
    exact everywhere_of_leaf (.plainDeclarator hi hparen hassign) rfl
  | initializer hi hend => exact everywhere_of_leaf (.initializer hi hend) rfl
  | plainStatement hi hplain hsemi =>
    exact everywhere_of_leaf (.plainStatement hi hplain hsemi) rfl
  | guard hcloses => exact everywhere_of_leaf (.guard hcloses) rfl
  -- Nodes over the nodes of one phrase.
  | declaratorList hlist ih => exact everywhere_of_children (.declaratorList hlist) rfl ih
  | prototype hi hparameters hsemi ih =>
    exact everywhere_of_children (.prototype hi hparameters hsemi) rfl ih
  | initialized hi hvalue ih => exact everywhere_of_children (.initialized hi hvalue) rfl ih
  | parameterList hopen hparameters hclose ih =>
    exact everywhere_of_children (.parameterList hopen hparameters hclose) rfl ih
  | parameterNamed htype hname ih =>
    exact everywhere_of_children (.parameterNamed htype hname) rfl ih
  | parameterUnnamed htype hname ih =>
    exact everywhere_of_children (.parameterUnnamed htype hname) rfl ih
  | block hopen hstatements hclose ih =>
    exact everywhere_of_children (.block hopen hstatements hclose) rfl ih
  -- Nodes over the nodes of several phrases.
  | declarationEnded htype hlist ihtype ihlist =>
    exact everywhere_of_children (.declarationEnded htype hlist) rfl
      (List.forall_mem_append.mpr ⟨ihtype, ihlist⟩)
  | declarationSemi htype hlist hsemi ihtype ihlist =>
    exact everywhere_of_children (.declarationSemi htype hlist hsemi) rfl
      (List.forall_mem_append.mpr ⟨ihtype, ihlist⟩)
  | function hi hparameters hbody ihparameters ihbody =>
    exact everywhere_of_children (.function hi hparameters hbody) rfl
      (List.forall_mem_append.mpr ⟨ihparameters, ihbody⟩)
  | ifStatement hi hguard hbody helse ihguard ihbody =>
    exact everywhere_of_children (.ifStatement hi hguard hbody helse) rfl
      (List.forall_mem_append.mpr ⟨ihguard, ihbody⟩)
  | ifElseStatement hi hguard hbody helse hlater ihguard ihbody ihlater =>
    have hguarded := List.forall_mem_append.mpr ⟨ihguard, ihbody⟩
    exact everywhere_of_children (.ifElseStatement hi hguard hbody helse hlater) rfl
      (List.forall_mem_append.mpr ⟨hguarded, ihlater⟩)
  | loopStatement hi hloop hguard hbody ihguard ihbody =>
    exact everywhere_of_children (.loopStatement hi hloop hguard hbody) rfl
      (List.forall_mem_append.mpr ⟨ihguard, ihbody⟩)
  | doWhileStatement hi hbody hwhile hguard hsemi ihbody ihguard =>
    exact everywhere_of_children (.doWhileStatement hi hbody hwhile hguard hsemi) rfl
      (List.forall_mem_append.mpr ⟨ihbody, ihguard⟩)

end Derives

end LooseC
