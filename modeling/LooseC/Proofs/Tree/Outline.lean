import LooseC.Tree.Walk

/-!
# The outline of a tree

A walk tells each node with its depth, and the depths alone tell how the nodes hang together: the
nodes below a node are those behind it that are deeper, up to the first that is not. So whatever is
told of each node, its `label`, a walk of the tree tells of the whole tree.

`Node.outline` is the tree with the labels in place of the nodes. `Outline.forest` reads outlines
from depths and labels in pre-order, and `forest_walk` says that it finds the outline of the tree
that was walked.
-/

set_option autoImplicit false

namespace LooseC

/-- A tree of labels. -/
inductive Outline (β : Type) where
  | node (label : β) (children : List (Outline β))

/-- A list is cut where a property fails for the first time. -/
theorem cut_append {α : Type} {p : α → Bool} {xs ys : List α} (hxs : ∀ a ∈ xs, p a = true)
    (hys : ∀ a ∈ ys.head?, p a = false) :
    (xs ++ ys).takeWhile p = xs ∧ (xs ++ ys).dropWhile p = ys := by
  rw [List.takeWhile_append_of_pos hxs, List.dropWhile_append_of_pos hxs]
  cases ys with
  | nil => simp
  | cons a ys => simp [hys a rfl]

variable {β : Type}

namespace Outline

/-- The trees that depths and labels in pre-order describe, each with its depth. A label takes for
its children the trees behind it that are deeper. -/
def forest (rows : List (Nat × β)) : List (Nat × Outline β) :=
  rows.foldr (fun row later =>
    (row.1, node row.2 ((later.takeWhile (row.1 < ·.1)).map Prod.snd)) ::
      later.dropWhile (row.1 < ·.1)) []

/-- One row in front: the deeper trees behind it become its children. -/
theorem forest_cons (depth : Nat) (label : β) (rows : List (Nat × β)) :
    forest ((depth, label) :: rows) =
      (depth, node label (((forest rows).takeWhile (depth < ·.1)).map Prod.snd)) ::
        (forest rows).dropWhile (depth < ·.1) := rfl

end Outline

/-- What a walk tells of a visit: the depth and the label of the node. -/
def Visit.row (label : Node → β) (v : Visit) : Nat × β := (v.depth, label v.node)

namespace Node

mutual
/-- The tree with the labels in place of the nodes. -/
def outline (label : Node → β) : Node → Outline β
  | ⟨kind, span, children⟩ => .node (label ⟨kind, span, children⟩) (outlineList label children)
/-- The forest with the labels in place of the nodes. -/
def outlineList (label : Node → β) : List Node → List (Outline β)
  | [] => []
  | n :: ns => n.outline label :: outlineList label ns
end

/-- A forest is outlined tree by tree. -/
theorem outlineList_eq_map (label : Node → β) (ns : List Node) :
    outlineList label ns = ns.map (outline label) := by
  induction ns with
  | nil => rfl
  | cons n ns ih => rw [outlineList, ih, List.map_cons]

/-! ### Reading the outline -/

variable (label : Node → β)

/-- In front of rows that are no deeper, the rows of a tree are read as its outline. -/
def ReadsBack (n : Node) : Prop :=
  ∀ (depth : Nat) (later : List (Nat × β)),
    (∀ t ∈ (Outline.forest later).head?, t.1 ≤ depth) →
    Outline.forest ((n.preorder depth).map (Visit.row label) ++ later) =
      (depth, n.outline label) :: Outline.forest later

variable {label}

/-- So the rows of a forest are read as the outlines of its trees. -/
theorem forest_preorderList {ns : List Node} (hreads : ∀ n ∈ ns, ReadsBack label n) {depth : Nat}
    {later : List (Nat × β)} (hlater : ∀ t ∈ (Outline.forest later).head?, t.1 ≤ depth) :
    Outline.forest ((preorderList depth ns).map (Visit.row label) ++ later) =
      ns.map (fun n => (depth, n.outline label)) ++ Outline.forest later := by
  induction ns with
  | nil => rfl
  | cons n ns ih =>
    -- The other trees are read as they stand, and so the first one is in front of no deeper row.
    have hrest := ih fun m hm => hreads m (List.mem_cons_of_mem n hm)
    rw [preorderList, List.map_append, List.append_assoc, hreads n List.mem_cons_self, hrest]
    · rfl
    · -- The next tree is a sibling, or what follows the forest.
      intro t ht
      rw [hrest] at ht
      cases ns with
      | nil => exact hlater t ht
      | cons m ms =>
        cases ht
        exact Nat.le_refl depth

/-- The rows of every tree are read back as its outline. -/
theorem readsBack (n : Node) : ReadsBack label n := by
  induction n using Node.induction with
  | step n ih =>
    intro depth later hlater
    obtain ⟨kind, span, children⟩ := n
    have hchildren := forest_preorderList ih fun t ht => Nat.le_succ_of_le (hlater t ht)
    -- The trees behind the node that are deeper are its children.
    have hdeeper : ∀ t ∈ children.map (fun child => (depth + 1, child.outline label)),
        decide (depth < t.1) = true := by
      intro t ht
      obtain ⟨child, -, rfl⟩ := List.mem_map.mp ht
      exact decide_eq_true (Nat.lt_succ_self depth)
    have hcut := cut_append hdeeper fun t ht => decide_eq_false (Nat.not_lt.mpr (hlater t ht))
    rw [preorder, List.map_cons, List.cons_append, Visit.row, Outline.forest_cons, hchildren,
      hcut.1, hcut.2, List.map_map, outline, outlineList_eq_map]
    rfl

end Node

/-! ### Walks -/

/-- What is left of a walk are the pending trees in pre-order. -/
theorem Walk.toList_eq_flatMap (w : Walk) :
    w.toList = w.pending.flatMap fun v => v.node.preorder v.depth := by
  -- On the number of visits that are left, since the children of a visit are pending trees of their
  -- own.
  induction hsize : w.size generalizing w with
  | zero =>
    obtain ⟨pending⟩ := w
    cases pending with
    | nil =>
      rw [toList]
      rfl
    | cons v pending => cases (size_of_next? rfl).symm.trans hsize
  | succ size ih =>
    obtain ⟨pending⟩ := w
    cases pending with
    | nil => cases hsize
    | cons v pending =>
      obtain ⟨depth, ⟨kind, span, children⟩⟩ := v
      have hlater := Nat.succ.inj ((size_of_next? rfl).symm.trans hsize)
      rw [toList]
      simp only [next?]
      rw [ih _ hlater, List.flatMap_cons, List.flatMap_append, List.flatMap_map, Node.preorder,
        Node.preorderList_eq_flatMap]
      rfl

namespace Node

/-- A walk visits the nodes in pre-order. -/
theorem walk_eq_preorder (n : Node) : n.walk = n.preorder 0 := by
  rw [walk, Walk.toList_eq_flatMap]
  exact List.append_nil _

/-- The outline is read from the walk. -/
theorem forest_walk (label : Node → β) (n : Node) :
    Outline.forest (n.walk.map (Visit.row label)) = [(0, n.outline label)] := by
  have hreads : ReadsBack label n := readsBack n
  have hread := hreads 0 [] (fun _ h => by cases h)
  rw [List.append_nil] at hread
  rw [walk_eq_preorder, hread]
  rfl

/-- Walks that tell the same of their trees are walks of trees with the same outline. -/
theorem outline_eq_of_walk {f g : Node → β} {m n : Node}
    (h : m.walk.map (Visit.row f) = n.walk.map (Visit.row g)) : m.outline f = n.outline g := by
  have hforest := congrArg Outline.forest h
  rw [forest_walk, forest_walk] at hforest
  simpa using hforest

end Node

end LooseC
