import LooseC.Proofs.Tree.Address

/-!
# Walks are pre-order

A walk can be kept on a stack that grows at its end: a call takes the last visit off and pushes the
children of its node, the last child first. `VisitStack.remaining` is the invariant of this loop.
The trees on the stack, from the last one on and each in pre-order, are what is still to come, and
one call takes the first visit of that list off (`VisitStack.next_eq`). So the calls answer the
nodes in pre-order and then nothing (`VisitStack.answer_eq`).

The depths, kinds and spans of a walk tell the tree: `ofRows?_walk` says that it is rebuilt from
them. `walk_preorder` puts the two together, with the addresses that say where each visit stands.
-/

set_option autoImplicit false

namespace LooseC

/-! ### The walk on a stack -/

/-- A walk in progress on a stack that grows at its end, so that the next visit is the last one. -/
structure VisitStack where
  visits : List Visit

namespace VisitStack

/-- The stack of a walk before its first visit. -/
def start (n : Node) : VisitStack := ⟨[⟨0, n⟩]⟩

/-- The stack with one more visit at its end. -/
def push (s : VisitStack) (v : Visit) : VisitStack := ⟨s.visits ++ [v]⟩

/-- One call, with its answer and the stack after it. The children are pushed one by one, the last
child first. An empty stack stays as it is. -/
def next (s : VisitStack) : Option Visit × VisitStack :=
  match s.visits.getLast? with
  | none => (none, s)
  | some v =>
    (some v, v.node.children.reverse.foldl (fun stack child => stack.push ⟨v.depth + 1, child⟩)
      ⟨s.visits.dropLast⟩)

/-- The answer to the call with the given number, counted from zero. -/
def answer : VisitStack → Nat → Option Visit
  | s, 0 => s.next.1
  | s, i + 1 => s.next.2.answer i

/-- What is still to come: the trees on the stack in pre-order, the last one first. -/
def remaining (s : VisitStack) : List Visit :=
  s.visits.reverse.flatMap fun v => v.node.preorder v.depth

/-- Children that are pushed one by one stand at the end in that order. -/
theorem foldl_push (depth : Nat) (ns : List Node) (s : VisitStack) :
    ns.foldl (fun stack child => stack.push ⟨depth, child⟩) s =
      ⟨s.visits ++ ns.map fun child => ⟨depth, child⟩⟩ := by
  induction ns generalizing s with
  | nil => simp
  | cons n ns ih =>
    rw [List.foldl_cons, ih]
    simp [push]

/-- A call answers the first of the visits to come and leaves the others. -/
theorem next_eq (s : VisitStack) :
    s.next.1 = s.remaining.head? ∧ s.next.2.remaining = s.remaining.tail := by
  obtain ⟨visits⟩ := s
  cases hlast : visits.getLast? with
  | none =>
    rw [List.getLast?_eq_none_iff] at hlast
    subst hlast
    exact ⟨rfl, rfl⟩
  | some v =>
    obtain ⟨visits, rfl⟩ := List.getLast?_eq_some_iff.mp hlast
    have hnext : next ⟨visits ++ [v]⟩ = (some v, ⟨visits ++
        v.node.children.reverse.map fun child => ⟨v.depth + 1, child⟩⟩) := by
      simp only [next, List.getLast?_concat, List.dropLast_concat, foldl_push]
    have hremaining : remaining ⟨visits ++ [v]⟩ =
        v :: Node.preorderList (v.depth + 1) v.node.children ++ remaining ⟨visits⟩ := by
      obtain ⟨depth, ⟨kind, span, children⟩⟩ := v
      simp [remaining, Node.preorder]
    rw [hnext, hremaining]
    refine ⟨rfl, ?_⟩
    -- Pushed in reverse, the children come off the stack in order.
    simp [remaining, Node.preorderList_eq_flatMap, List.flatMap_map, ← List.map_reverse]

/-- The calls answer the visits to come one by one, and then nothing. -/
theorem answer_eq (s : VisitStack) (i : Nat) : s.answer i = s.remaining[i]? := by
  -- On the number of the call: the first one answers, and it leaves a stack with one visit less.
  induction i generalizing s with
  | zero => rw [answer, (next_eq s).1, List.head?_eq_getElem?]
  | succ i ih => rw [answer, ih, (next_eq s).2, List.getElem?_tail]

/-- Before the first visit the whole tree is to come. -/
theorem remaining_start (n : Node) : (start n).remaining = n.preorder 0 := by
  simp [start, remaining]

end VisitStack

/-! ### The tree of a walk -/

namespace Outline

mutual
/-- The tree with the given kinds and spans. -/
def toNode : Outline (NodeKind × Span) → Node
  | node label children => ⟨label.1, label.2, toNodes children⟩
/-- The forest with the given kinds and spans. -/
def toNodes : List (Outline (NodeKind × Span)) → List Node
  | [] => []
  | o :: os => o.toNode :: toNodes os
end

/-- A forest is made tree by tree. -/
theorem toNodes_eq_map (os : List (Outline (NodeKind × Span))) : toNodes os = os.map toNode := by
  induction os with
  | nil => rfl
  | cons o os ih => rw [toNodes, ih, List.map_cons]

end Outline

namespace Node

/-- What a row tells of its node. -/
def shape (n : Node) : NodeKind × Span := (n.kind, n.span)

/-- Kinds and spans are all that a tree holds. -/
theorem toNode_outline (n : Node) : (n.outline shape).toNode = n := by
  induction n using Node.induction with
  | step n ih =>
    obtain ⟨kind, span, children⟩ := n
    -- The children come back one by one, and the label holds the rest of the node.
    have hchildren : (children.map (outline shape)).map Outline.toNode = children := by
      rw [List.map_map]
      exact (List.map_congr_left ih).trans (List.map_id children)
    rw [outline, Outline.toNode, Outline.toNodes_eq_map, outlineList_eq_map, hchildren]
    rfl

/-- The forest of the rows is the one that the outline of the rows describes. -/
theorem forestOfRows_eq (vs : List Visit) : forestOfRows (vs.map Row.ofVisit) =
    (Outline.forest (vs.map (Visit.row shape))).map fun t => ⟨t.1, t.2.toNode⟩ := by
  induction vs with
  | nil => rfl
  | cons v vs ih =>
    have hrows : forestOfRows ((v :: vs).map Row.ofVisit) =
        ⟨v.depth, ⟨v.node.kind, v.node.span,
          ((forestOfRows (vs.map Row.ofVisit)).takeWhile (v.depth < ·.depth)).map Visit.node⟩⟩ ::
          (forestOfRows (vs.map Row.ofVisit)).dropWhile (v.depth < ·.depth) := rfl
    rw [hrows, ih, List.map_cons, Visit.row, Outline.forest_cons, List.map_cons,
      List.takeWhile_map, List.dropWhile_map, List.map_map, Outline.toNode,
      Outline.toNodes_eq_map, List.map_map]
    rfl

/-- The rows of a walk describe the tree that was walked. -/
theorem ofRows?_walk (n : Node) : ofRows? (n.walk.map Row.ofVisit) = some n := by
  rw [ofRows?, forestOfRows_eq, forest_walk, List.map_cons, List.map_nil, toNode_outline]

/-- A walk visits the nodes of a tree in pre-order: the root at depth zero, and behind each node
the nodes below its children, from left to right and one level deeper. Kept on a stack, it answers
these visits call by call and then nothing. Its visits are those of the addresses in the tree, each
once, in lexicographic order, so a node comes before the nodes below it and a child before its later
siblings. The tree can be rebuilt from the depths, kinds and spans of the walk, so trees with the
same rows are equal. -/
theorem walk_preorder (n : Node) :
    n.walk = n.preorder 0 ∧
    (∀ i, (VisitStack.start n).answer i = (n.preorder 0)[i]?) ∧
    (n.walk.map some = n.addresses.map (n.visitAt? 0) ∧ n.addresses.Pairwise (· < ·) ∧
      ∀ a, a ∈ n.addresses ↔ (n.nodeAt? a).isSome = true) ∧
    ofRows? (n.walk.map Row.ofVisit) = some n ∧
    ∀ m : Node, m.walk.map Row.ofVisit = n.walk.map Row.ofVisit ↔ m = n := by
  refine ⟨walk_eq_preorder n, ?_, ?_, ofRows?_walk n, ?_⟩
  · intro i
    rw [VisitStack.answer_eq, VisitStack.remaining_start]
  · exact ⟨walk_eq_addresses n, addresses_sorted n, fun a => mem_addresses_iff⟩
  · intro m
    constructor
    · intro hrows
      have hread := ofRows?_walk m
      rw [hrows, ofRows?_walk] at hread
      exact (Option.some.inj hread).symm
    · intro heq
      rw [heq]

end Node

end LooseC
