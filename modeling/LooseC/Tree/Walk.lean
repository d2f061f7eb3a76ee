import LooseC.Tree.Node

/-!
# Walking a tree

A walk visits the nodes of a tree in pre-order: a node before its children, the children from
left to right, each with its depth below the node where the walk began. `Walk` is the walk in
progress, a stack of subtrees still to be visited; `Node.walk` runs it to its end.
`Node.preorder` is the same order by recursion on the tree.

`ofRows?` goes back: it rebuilds the tree from the depths, kinds and spans of a walk.
-/

set_option autoImplicit false

namespace LooseC

/-- A node and its depth below the node where the walk began. -/
structure Visit where
  depth : Nat
  node : Node
deriving DecidableEq

/-- A walk in progress: the subtrees still to be visited, the next one first. -/
structure Walk where
  pending : List Visit

namespace Walk

/-- The number of nodes still to be visited. -/
def size (w : Walk) : Nat := Node.sizeList (w.pending.map Visit.node)

/-- The next visit and the walk after it, or nothing at the end. The children of the visited
node come before everything else that is pending. -/
def next? : Walk → Option (Visit × Walk)
  | ⟨[]⟩ => none
  | ⟨v :: pending⟩ =>
    some (v, ⟨v.node.children.map (fun child => ⟨v.depth + 1, child⟩) ++ pending⟩)

/-- Each visit leaves one node fewer. -/
theorem size_of_next? {w later : Walk} {v : Visit} (h : w.next? = some (v, later)) :
    w.size = later.size + 1 := by
  match w, h with
  | ⟨⟨depth, ⟨kind, span, children⟩⟩ :: pending⟩, rfl =>
    simp only [size, List.map_append, List.map_cons, List.map_map, Function.comp_def,
      List.map_id', Node.sizeList, Node.sizeList_append, Node.size]
    omega

/-- The visits still to come. -/
def toList (w : Walk) : List Visit :=
  match _h : w.next? with
  | none => []
  | some (v, later) => v :: later.toList
termination_by w.size
decreasing_by
  have := size_of_next? (by assumption)
  omega

end Walk

namespace Node

/-- The walk of a tree before its first visit. -/
def startWalk (n : Node) : Walk := ⟨[⟨0, n⟩]⟩

/-- The visits of a whole tree. -/
def walk (n : Node) : List Visit := n.startWalk.toList

mutual
/-- The nodes of a tree in pre-order, the root at the given depth. -/
def preorder (depth : Nat) : Node → List Visit
  | ⟨kind, span, children⟩ => ⟨depth, ⟨kind, span, children⟩⟩ :: preorderList (depth + 1) children
/-- The nodes of a forest in pre-order, the roots at the given depth. -/
def preorderList (depth : Nat) : List Node → List Visit
  | [] => []
  | n :: ns => n.preorder depth ++ preorderList depth ns
end

/-- The pre-order of a forest is that of its trees, one after the other. -/
theorem preorderList_eq_flatMap (depth : Nat) (ns : List Node) :
    preorderList depth ns = ns.flatMap (preorder depth) := by
  induction ns with
  | nil => rfl
  | cons n ns ih => rw [preorderList, ih, List.flatMap_cons]

/-- The nodes of a tree in pre-order do not depend on the depth that is counted from. -/
theorem map_node_preorder (n : Node) (depth : Nat) :
    (n.preorder depth).map Visit.node =
      n :: n.children.flatMap fun child => (child.preorder 0).map Visit.node := by
  induction n using Node.induction generalizing depth with
  | step n ih =>
    obtain ⟨kind, span, children⟩ := n
    rw [preorder, preorderList_eq_flatMap, List.map_cons, List.map_flatMap]
    refine congrArg (_ :: ·) ?_
    rw [List.flatMap_def, List.flatMap_def]
    refine congrArg List.flatten (List.map_congr_left fun child hchild => ?_)
    rw [ih child hchild, ih child hchild]

/-- What a visit tells of its node without its children. -/
structure Row where
  depth : Nat
  kind : NodeKind
  span : Span
deriving DecidableEq

/-- The row of a visit. -/
def Row.ofVisit (v : Visit) : Row := ⟨v.depth, v.node.kind, v.node.span⟩

/-- The trees that rows in pre-order describe, each with its depth. A row takes for its
children the trees behind it that are deeper. -/
def forestOfRows (rows : List Row) : List Visit :=
  rows.foldr (fun row later =>
    ⟨row.depth, ⟨row.kind, row.span, (later.takeWhile (row.depth < ·.depth)).map Visit.node⟩⟩ ::
      later.dropWhile (row.depth < ·.depth)) []

/-- The one tree that rows in pre-order describe, if they describe one. -/
def ofRows? (rows : List Row) : Option Node :=
  match forestOfRows rows with
  | [v] => some v.node
  | _ => none

end Node

end LooseC
