import LooseC.Proofs.Grammar.Phrase
import LooseC.Proofs.Grammar.Unit
import LooseC.Proofs.Tree.Count

/-!
# Local trees

A local tree is a node with its children and nothing below them, and of that only the kinds.
`LocalTree kind children` lists the local trees of a parse: which kinds of children a node of each
kind has, in order. It is all that a count of nodes needs to know of the grammar.

Each phrase makes nodes of its own kinds (`Derives.kind_makes`), so each rule of the grammar makes
nodes of one of these forms (`IsPhrase.localTree`), and with the unit on top every node of a parse
has one (`localTree_of_parse`).
-/

set_option autoImplicit false

namespace LooseC

/-- The kinds of statements. -/
def NodeKind.isStatement : NodeKind → Bool
  | .block | .statement | .ifStatement | .whileStatement | .forStatement | .doWhileStatement => true
  | _ => false

/-- The kinds of top-level constructs. -/
def NodeKind.isTopLevel : NodeKind → Bool
  | .includeDirective | .defineDirective | .declaration => true
  | _ => false

/-- A node of the given kind may have children of the given kinds, in this order. -/
inductive LocalTree : NodeKind → List NodeKind → Prop where
  | unit {children : List NodeKind} (h : ∀ k ∈ children, k.isTopLevel = true) :
      LocalTree .unit children
  | includeDirective : LocalTree .includeDirective []
  | defineDirective : LocalTree .defineDirective []
  | declaration : LocalTree .declaration [.type, .declaratorList]
  | type : LocalTree .type []
  | declaratorList {later : List NodeKind} (h : ∀ k ∈ later, k = .declarator) :
      LocalTree .declaratorList (.declarator :: later)
  | plainDeclarator : LocalTree .declarator []
  | initialized : LocalTree .declarator [.expression]
  | prototype : LocalTree .declarator [.parameterList]
  | function : LocalTree .declarator [.parameterList, .block]
  | parameterList {children : List NodeKind} (h : ∀ k ∈ children, k = .parameter) :
      LocalTree .parameterList children
  | parameter : LocalTree .parameter [.type]
  | block {children : List NodeKind} (h : ∀ k ∈ children, k.isStatement = true) :
      LocalTree .block children
  | statement : LocalTree .statement []
  | ifStatement {body : NodeKind} (h : body.isStatement = true) :
      LocalTree .ifStatement [.expression, body]
  | ifElseStatement {body otherwise : NodeKind} (h : body.isStatement = true)
      (h' : otherwise.isStatement = true) : LocalTree .ifStatement [.expression, body, otherwise]
  | whileStatement {body : NodeKind} (h : body.isStatement = true) :
      LocalTree .whileStatement [.expression, body]
  | forStatement {body : NodeKind} (h : body.isStatement = true) :
      LocalTree .forStatement [.expression, body]
  | doWhileStatement {body : NodeKind} (h : body.isStatement = true) :
      LocalTree .doWhileStatement [body, .expression]
  | expression : LocalTree .expression []

/-- The kinds of a node's children, in order. -/
def Node.childKinds (n : Node) : List NodeKind := n.children.map Node.kind

variable {ts : List Token} {symbol : Symbol} {i j : Nat} {n : Node} {nodes : List Node}

/-- What holds at every depth holds of every node of the tree. -/
theorem Node.Everywhere.forall_mem_nodes {P : Node → Prop} (h : n.Everywhere P) :
    ∀ m ∈ n.nodes, P m := by
  induction h with
  | node hn _ ih =>
    intro m hm
    rw [Node.nodes_eq, List.mem_cons, List.mem_flatMap] at hm
    rcases hm with rfl | ⟨child, hchild, hm⟩
    · exact hn
    · exact ih child hchild m hm

/-! ### The kinds that a phrase makes -/

/-- The nodes of a phrase may be of this kind. -/
def Symbol.makes : Symbol → NodeKind → Bool
  | .items, k | .item, k => k.isTopLevel
  | .declaration, k => k == .declaration
  | .type, k => k == .type
  | .declaratorList _, k => k == .declaratorList
  | .declarators _, k | .declarator _, k => k == .declarator
  | .parameterList, k => k == .parameterList
  | .parameters, k | .parameter, k => k == .parameter
  | .initializer, k | .guard, k => k == .expression
  | .block, k => k == .block
  | .statements, k | .statement, k => k.isStatement

namespace Derives

/-- The nodes of a phrase are of the kinds that it makes. -/
theorem kind_makes (h : Derives ts symbol i j nodes) :
    ∀ n ∈ nodes, symbol.makes n.kind = true := by
  induction h with
  | itemsNil | parametersNil | statementsNil => simp
  -- Rules that put the nodes of other phrases together.
  | itemsCons _ _ ih ihlater => exact List.forall_mem_append.mpr ⟨ih, ihlater⟩
  | statementsCons _ _ _ ih ihlater => exact List.forall_mem_append.mpr ⟨ih, ihlater⟩
  | parametersNext _ _ _ ih ihlater => exact List.forall_mem_append.mpr ⟨ih, ihlater⟩
  | parametersComma _ _ _ ih ihlater => exact List.forall_mem_append.mpr ⟨ih, ihlater⟩
  | declaratorsComma _ _ _ ih ihlater => exact List.forall_mem_append.mpr ⟨ih, ihlater⟩
  | declaratorsEnded _ ih => exact ih
  | declaratorsLast _ _ ih => exact ih
  -- A declaration is a top-level construct, and a block is a statement.
  | itemDeclaration _ ih =>
    intro n hn
    rw [eq_of_beq (ih n hn)]
    rfl
  | statementBlock _ ih =>
    intro n hn
    rw [eq_of_beq (ih n hn)]
    rfl
  -- Rules that leave a choice of kinds.
  | directive _ hkind =>
    rcases Parse.directiveNode?_eq_some_iff.mp hkind with ⟨-, rfl⟩ | ⟨-, rfl⟩ <;>
      simp [Node.leaf, Symbol.makes, NodeKind.isTopLevel]
  | loopStatement _ hloop =>
    rcases Parse.loopNode?_eq_some_iff.mp hloop with ⟨-, rfl⟩ | ⟨-, rfl⟩ <;>
      simp [Symbol.makes, NodeKind.isStatement]
  | _ => simp [Node.leaf, Symbol.makes, NodeKind.isStatement]

/-- The same for a phrase of one node. -/
theorem makes_node (h : Derives ts symbol i j [n]) : symbol.makes n.kind = true :=
  h.kind_makes n List.mem_cons_self

/-- The kinds of the nodes of a phrase, as the kinds of children. -/
theorem forall_mem_kinds (h : Derives ts symbol i j nodes) :
    ∀ k ∈ nodes.map Node.kind, symbol.makes k = true := by
  intro k hk
  obtain ⟨n, hn, rfl⟩ := List.mem_map.mp hk
  exact h.kind_makes n hn

end Derives

/-! ### The local trees of a parse -/

namespace Derives

/-- A declaration has a type and a list of declarators. -/
theorem localTree_declaration (h : Derives ts .declaration i j [n]) :
    LocalTree n.kind n.childKinds := by
  cases h with
  | @declarationEnded _ _ _ type list htype hlist =>
    show LocalTree .declaration [type.kind, list.kind]
    rw [eq_of_beq htype.makes_node, eq_of_beq hlist.makes_node]
    exact .declaration
  | @declarationSemi _ _ _ type list htype hlist _ =>
    show LocalTree .declaration [type.kind, list.kind]
    rw [eq_of_beq htype.makes_node, eq_of_beq hlist.makes_node]
    exact .declaration

/-- A list of declarators has one declarator or more. -/
theorem localTree_declaratorList {ended : Bool} (h : Derives ts (.declaratorList ended) i j [n]) :
    LocalTree n.kind n.childKinds := by
  cases h with
  | @declaratorList _ _ _ nodes hnodes =>
    show LocalTree .declaratorList (nodes.map Node.kind)
    have hkinds : ∀ k ∈ nodes.map Node.kind, k = .declarator := by
      intro k hk
      exact eq_of_beq (hnodes.forall_mem_kinds k hk)
    -- A list of declarators is never empty.
    cases nodes with
    | nil => cases hnodes
    | cons first later =>
      rw [List.map_cons, List.forall_mem_cons] at hkinds
      rw [List.map_cons, hkinds.1]
      exact .declaratorList hkinds.2

/-- A block has statements. -/
theorem localTree_block (h : Derives ts .block i j [n]) : LocalTree n.kind n.childKinds := by
  cases h with
  | block _ hnodes _ => exact .block hnodes.forall_mem_kinds

end Derives

/-- Whichever rule makes a node, its local tree is in the list. -/
theorem IsPhrase.localTree (h : IsPhrase ts n) : LocalTree n.kind n.childKinds := by
  obtain ⟨symbol, i, j, hnode, h⟩ := h
  cases h with
  | itemsCons | statementsCons | parametersNext | parametersComma => cases hnode
  | declaratorsEnded | declaratorsLast | declaratorsComma => cases hnode
  | itemDeclaration hdeclaration => exact hdeclaration.localTree_declaration
  | declarationEnded htype hlist =>
    exact (Derives.declarationEnded htype hlist).localTree_declaration
  | declarationSemi htype hlist hsemi =>
    exact (Derives.declarationSemi htype hlist hsemi).localTree_declaration
  | declaratorList hnodes => exact (Derives.declaratorList hnodes).localTree_declaratorList
  | statementBlock hblock => exact hblock.localTree_block
  | block hopen hnodes hclose => exact (Derives.block hopen hnodes hclose).localTree_block
  -- Nodes without children.
  | directive _ hkind =>
    rcases Parse.directiveNode?_eq_some_iff.mp hkind with ⟨-, rfl⟩ | ⟨-, rfl⟩
    · exact .includeDirective
    · exact .defineDirective
  | typeWords | typeStruct | typeName => exact .type
  | initializer | guard => exact .expression
  | plainStatement => exact .statement
  | plainDeclarator => exact .plainDeclarator
  -- Declarators and parameters.
  | @prototype _ _ parameters _ hparameters _ =>
    show LocalTree .declarator [parameters.kind]
    rw [eq_of_beq hparameters.makes_node]
    exact .prototype
  | @function _ _ _ parameters body _ hparameters hbody =>
    show LocalTree .declarator [parameters.kind, body.kind]
    rw [eq_of_beq hparameters.makes_node, eq_of_beq hbody.makes_node]
    exact .function
  | @initialized _ _ value _ hvalue =>
    show LocalTree .declarator [value.kind]
    rw [eq_of_beq hvalue.makes_node]
    exact .initialized
  | parameterList _ hnodes _ =>
    exact .parameterList fun k hk => eq_of_beq (hnodes.forall_mem_kinds k hk)
  | @parameterNamed _ _ type htype _ =>
    show LocalTree .parameter [type.kind]
    rw [eq_of_beq htype.makes_node]
    exact .parameter
  | @parameterUnnamed _ _ type htype _ =>
    show LocalTree .parameter [type.kind]
    rw [eq_of_beq htype.makes_node]
    exact .parameter
  -- Control flow.
  | @ifStatement _ _ _ condition body _ hguard hbody _ =>
    show LocalTree .ifStatement [condition.kind, body.kind]
    rw [eq_of_beq hguard.makes_node]
    exact .ifStatement hbody.makes_node
  | @ifElseStatement _ _ _ _ condition body otherwise _ hguard hbody _ hother =>
    show LocalTree .ifStatement [condition.kind, body.kind, otherwise.kind]
    rw [eq_of_beq hguard.makes_node]
    exact .ifElseStatement hbody.makes_node hother.makes_node
  | @loopStatement _ _ _ first kind condition body _ hloop hguard hbody =>
    show LocalTree kind [condition.kind, body.kind]
    rw [eq_of_beq hguard.makes_node]
    rcases Parse.loopNode?_eq_some_iff.mp hloop with ⟨-, rfl⟩ | ⟨-, rfl⟩
    · exact .whileStatement hbody.makes_node
    · exact .forStatement hbody.makes_node
  | @doWhileStatement _ _ _ body condition _ hbody _ hguard _ =>
    show LocalTree .doWhileStatement [body.kind, condition.kind]
    rw [eq_of_beq hguard.makes_node]
    exact .doWhileStatement hbody.makes_node

/-- Every node of a parse has one of these local trees, and the unit is one of them. -/
theorem localTree_of_parse {tree : Node} (h : parse ts = .ok tree) :
    tree.kind = .unit ∧ ∀ n ∈ tree.nodes, LocalTree n.kind n.childKinds := by
  obtain ⟨nodes, hnodes, rfl⟩ := parse_eq_ok_iff_isUnit.mp h
  refine ⟨rfl, Node.Everywhere.forall_mem_nodes (.node (.unit hnodes.forall_mem_kinds) ?_)⟩
  intro n hn
  exact (hnodes.everywhere_isPhrase n hn).imp fun _ hphrase => hphrase.localTree

/-! ### Counting kinds -/

/-- The top-level constructs among some nodes are directives and declarations. -/
theorem countP_isTopLevel (kinds : List NodeKind) : kinds.countP NodeKind.isTopLevel =
    kinds.count .includeDirective + kinds.count .defineDirective + kinds.count .declaration := by
  have hsum := NodeKind.sum_count [.includeDirective, .defineDirective, .declaration]
    NodeKind.isTopLevel (fun k => by cases k <;> rfl) kinds
  rw [← hsum]
  simp [Nat.add_assoc]

/-! ### Counting children

Each statement tells which nodes have children of some kind, and how many. -/

namespace LocalTree

variable {kind : NodeKind} {children : List NodeKind}

/-- No node is a child of the kind of the root. -/
theorem count_unit (h : LocalTree kind children) : children.count .unit = 0 := by
  cases h <;> grind [List.count_eq_zero, NodeKind.isStatement, NodeKind.isTopLevel]

/-- Only a unit has top-level constructs, and it has no other children. -/
theorem count_topLevel (h : LocalTree kind children) :
    children.count .includeDirective + children.count .defineDirective +
      children.count .declaration = if kind = .unit then children.length else 0 := by
  cases h with
  | unit h =>
    rw [if_pos rfl, ← countP_isTopLevel]
    exact List.countP_eq_length.mpr h
  | _ => grind [List.count_eq_zero, NodeKind.isStatement]

/-- A declaration and a parameter have one type each. -/
theorem count_type (h : LocalTree kind children) : children.count .type =
    (if kind = .declaration then 1 else 0) + if kind = .parameter then 1 else 0 := by
  cases h <;> grind [List.count_eq_zero, NodeKind.isStatement, NodeKind.isTopLevel]

/-- A declaration has one list of declarators. -/
theorem count_declaratorList (h : LocalTree kind children) :
    children.count .declaratorList = if kind = .declaration then 1 else 0 := by
  cases h <;> grind [List.count_eq_zero, NodeKind.isStatement, NodeKind.isTopLevel]

/-- A list of declarators has at least one of them. -/
theorem le_count_declarator (h : LocalTree kind children) :
    (if kind = .declaratorList then 1 else 0) ≤ children.count .declarator := by
  cases h <;> grind

/-- A control-flow statement has one expression, and a declarator may have one. -/
theorem count_expression (h : LocalTree kind children) : children.count .expression =
    (if kind = .ifStatement then 1 else 0) + (if kind = .whileStatement then 1 else 0) +
      (if kind = .forStatement then 1 else 0) + (if kind = .doWhileStatement then 1 else 0) +
      if kind = .declarator ∧ .expression ∈ children then 1 else 0 := by
  cases h <;> grind [List.count_eq_zero, NodeKind.isStatement, NodeKind.isTopLevel]

/-- A declarator has a list of parameters or an expression or neither, and no other node has a list
of parameters. -/
theorem count_parameterList_le (h : LocalTree kind children) : children.count .parameterList +
    (if kind = .declarator ∧ .expression ∈ children then 1 else 0) ≤
      if kind = .declarator then 1 else 0 := by
  cases h <;> grind [List.count_eq_zero, NodeKind.isStatement, NodeKind.isTopLevel]

/-- A declarator with a block has a list of parameters. -/
theorem le_count_parameterList (h : LocalTree kind children) :
    (if kind = .declarator ∧ .block ∈ children then 1 else 0) ≤ children.count .parameterList := by
  cases h <;> grind

end LocalTree

end LooseC
