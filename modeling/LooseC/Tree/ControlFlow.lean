import LooseC.Tree.Node

/-!
# Control-flow depth

How deep the control-flow statements of a tree are nested: the most of them that lie on one
path from the root down.
-/

set_option autoImplicit false

namespace LooseC.Node

mutual
/-- The greatest number of control-flow statements on a path down from the node, the node
included. -/
def controlFlowDepth : Node → Nat
  | ⟨kind, _, children⟩ => controlFlowDepthList children + (if kind.isControlFlow then 1 else 0)
/-- The greatest control-flow depth in a forest, zero if it is empty. -/
def controlFlowDepthList : List Node → Nat
  | [] => 0
  | n :: ns => max n.controlFlowDepth (controlFlowDepthList ns)
end

end LooseC.Node
