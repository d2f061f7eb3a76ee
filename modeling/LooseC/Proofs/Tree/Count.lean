import LooseC.Proofs.Tree.Outline
import Mathlib.Algebra.Order.BigOperators.Group.List
import Mathlib.Algebra.Order.Ring.Nat
import Mathlib.Data.List.Perm.Basic

/-!
# Counting the nodes of a tree

Every node of a tree but the root is a child of one node. So the nodes of a tree are, up to their
order, the root and the children of all nodes (`Node.nodes_perm`), and the nodes with a property can
be counted at their parents (`Node.countP_nodes`). A quantity is summed over a tree by `Node.total`:
a bound for each node gives a bound for the tree.
-/

set_option autoImplicit false

namespace LooseC

/-- To count the members with a property is to sum one for each of them. -/
theorem sum_map_ite {α : Type} (p : α → Bool) (xs : List α) :
    (xs.map fun x => if p x = true then 1 else 0).sum = xs.countP p := by
  induction xs with
  | nil => rfl
  | cons x xs ih => rw [List.map_cons, List.sum_cons, ih, List.countP_cons, Nat.add_comm]

/-- The kinds with a property are counted kind by kind, along a list that holds each of them
once. -/
theorem NodeKind.sum_count (these : List NodeKind) (p : NodeKind → Bool)
    (h : ∀ k, these.count k = if p k = true then 1 else 0) (kinds : List NodeKind) :
    (these.map fun k => kinds.count k).sum = kinds.countP p := by
  induction kinds with
  | nil => simp
  | cons kind kinds ih =>
    -- One more node adds one to the count of its own kind.
    have hone : (these.map fun k => if (kind == k) = true then 1 else 0).sum =
        these.count kind := by
      rw [sum_map_ite, List.count]
      exact congrArg (List.countP · these) (funext fun k => BEq.comm)
    simp only [List.count_cons]
    rw [List.sum_map_add, ih, hone, h, List.countP_cons]

namespace Node

open scoped List

variable {f g : Node → Nat} {n : Node}

/-- The nodes of a tree in the order of a walk. -/
def nodes (n : Node) : List Node := n.walk.map Visit.node

/-- The nodes of a tree are its root and then those of its children. -/
theorem nodes_eq (n : Node) : n.nodes = n :: n.children.flatMap nodes := by
  have hnodes (m : Node) : m.nodes = (m.preorder 0).map Visit.node := by
    rw [nodes, walk_eq_preorder]
  rw [hnodes, map_node_preorder, funext hnodes]

/-- The nodes of a tree are as many as its size. -/
theorem length_nodes (n : Node) : n.nodes.length = n.size := by
  have hforest (ns : List Node) (h : ∀ m ∈ ns, m.nodes.length = m.size) :
      (ns.flatMap nodes).length = sizeList ns := by
    induction ns with
    | nil => rfl
    | cons m ns ih =>
      rw [List.forall_mem_cons] at h
      rw [List.flatMap_cons, List.length_append, sizeList, h.1, ih h.2]
  induction n using Node.induction with
  | step n ih =>
    rw [nodes_eq, List.length_cons, hforest n.children ih, Nat.add_comm]
    obtain ⟨kind, span, children⟩ := n
    rfl

/-- The nodes of a tree are its root and the children of its nodes, each once. -/
theorem nodes_perm (n : Node) : n.nodes ~ n :: n.nodes.flatMap children := by
  induction n using Node.induction with
  | step n ih =>
    rw [nodes_eq, List.flatMap_cons, List.flatMap_assoc]
    refine List.Perm.cons n ?_
    calc n.children.flatMap nodes
      _ ~ n.children.flatMap fun c => c :: c.nodes.flatMap children := List.Perm.flatMap_left _ ih
      _ ~ n.children ++ n.children.flatMap fun c => c.nodes.flatMap children := by
        simpa using (List.map_append_flatMap_perm n.children id fun c =>
          c.nodes.flatMap children).symm

/-! ### Sums over a tree -/

/-- A quantity summed over all nodes of a tree. -/
def total (f : Node → Nat) (n : Node) : Nat := (n.nodes.map f).sum

/-- Equal quantities at every node have equal sums. -/
theorem total_congr (h : ∀ m ∈ n.nodes, f m = g m) : n.total f = n.total g := by
  rw [total, total, List.map_congr_left h]

/-- A bound at every node is a bound of the sum. -/
theorem total_le (h : ∀ m ∈ n.nodes, f m ≤ g m) : n.total f ≤ n.total g :=
  List.sum_le_sum h

/-- Sums are added node by node. -/
theorem total_add (f g : Node → Nat) (n : Node) :
    n.total (fun m => f m + g m) = n.total f + n.total g := by
  rw [total, total, total]
  exact List.sum_map_add

/-- To count the nodes with a property is to sum one for each of them. -/
theorem total_ite (p : Node → Bool) (n : Node) :
    n.total (fun m => if p m = true then 1 else 0) = n.nodes.countP p :=
  sum_map_ite p n.nodes

/-- The nodes with a property are counted at their parents, the root apart. -/
theorem countP_nodes (p : Node → Bool) (n : Node) :
    n.nodes.countP p = n.total (fun m => m.children.countP p) + if p n = true then 1 else 0 := by
  rw [n.nodes_perm.countP_eq, List.countP_cons, List.countP_flatMap]
  rfl

end Node

end LooseC
