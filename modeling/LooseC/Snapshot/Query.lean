import LooseC.Snapshot.Basic
import LooseC.Tree.ControlFlow
import LooseC.Tree.Walk

/-!
# Questions about a snapshot

How many nodes of each kind the tree has, how deep its control flow is nested, which functions
it defines, and what source text a node covers.
-/

set_option autoImplicit false

namespace LooseC.Snapshot

/-- The lexemes that a node covers, with one space between each two. -/
def text (s : Snapshot) (n : Node) : String := n.text s.tokens

/-- The kinds of all nodes, in the order of the walk. -/
def nodeKinds (s : Snapshot) : List NodeKind := s.tree.walk.map fun v => v.node.kind

/-- The number of nodes of one kind. -/
def nodeCount (s : Snapshot) (kind : NodeKind) : Nat := s.nodeKinds.count kind

/-- The kinds that occur, each with its number of nodes. -/
def nodeCounts (s : Snapshot) : List (NodeKind × Nat) :=
  (NodeKind.all.map fun kind => (kind, s.nodeCount kind)).filter fun p => p.2 ≠ 0

/-- The deepest nesting of control-flow statements, zero if there are none. -/
def controlFlowDepth (s : Snapshot) : Nat := s.tree.controlFlowDepth

/-- The node is the declarator of a function with a body. -/
def isDefinition (n : Node) : Bool :=
  n.kind == .declarator && !(n.childrenOf .block).isEmpty

/-- The names of the functions that are defined and not only declared, in source order. -/
def functionNames (s : Snapshot) : List String :=
  (s.tree.walk.filter fun v => isDefinition v.node).filterMap fun v =>
    (v.node.firstToken? s.tokens).map Token.lexeme

end LooseC.Snapshot
