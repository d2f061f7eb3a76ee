import LooseC.Proofs.Tree.Outline

/-!
# Addresses in a tree

Equal subtrees may stand at several places of a tree, so a place is told by its address: the numbers
of the children to go down to, from the root on. `Node.nodeAt?` follows an address, and
`Node.addresses` lists the addresses of a tree.

* `mem_addresses_iff`: the list holds every address that leads to a node, and no others.
* `addresses_sorted`: it is in lexicographic order, strictly, so it holds each address once. A node
  comes before the nodes below it and a child before its later siblings.
* `walk_eq_addresses`: a walk goes through the tree by this list, and the depth of a visit is the
  length of its address.
-/

set_option autoImplicit false

namespace LooseC.Node

/-- The node at an address, if the address does not leave the tree. -/
def nodeAt? : Node → List Nat → Option Node
  | n, [] => some n
  | n, i :: a => n.children[i]?.bind fun child => child.nodeAt? a

/-- The visit at an address, if the walk gives the root this depth. -/
def visitAt? (depth : Nat) (n : Node) (a : List Nat) : Option Visit :=
  (n.nodeAt? a).map fun m => ⟨depth + a.length, m⟩

mutual
/-- The addresses of a tree in pre-order. -/
def addresses : Node → List (List Nat)
  | ⟨_, _, children⟩ => [] :: addressesList 0 children
/-- The addresses of a forest in pre-order, the trees numbered from `first` on. -/
def addressesList (first : Nat) : List Node → List (List Nat)
  | [] => []
  | n :: ns => n.addresses.map (first :: ·) ++ addressesList (first + 1) ns
end

variable {n : Node} {ns : List Node} {a : List Nat} {first : Nat}

/-- The addresses in a tree are that of the root and those that lead into a child. -/
theorem addresses_eq (n : Node) : n.addresses = [] :: addressesList 0 n.children := by
  obtain ⟨kind, span, children⟩ := n
  rfl

/-! ### All addresses -/

/-- An address in a forest is the number of a tree and an address in that tree. -/
theorem mem_addressesList_iff : a ∈ addressesList first ns ↔
    ∃ i n b, ns[i]? = some n ∧ a = (first + i) :: b ∧ b ∈ n.addresses := by
  -- The number of the first tree is general: behind it the trees are counted from one further.
  induction ns generalizing first with
  | nil => simp [addressesList]
  | cons m ns ih =>
    rw [addressesList, List.mem_append, List.mem_map, ih]
    constructor
    · rintro (⟨b, hb, rfl⟩ | ⟨i, n, b, hn, rfl, hb⟩)
      · exact ⟨0, m, b, rfl, rfl, hb⟩
      · exact ⟨i + 1, n, b, hn, by rw [Nat.add_assoc, Nat.add_comm 1 i], hb⟩
    · rintro ⟨i, n, b, hn, rfl, hb⟩
      cases i with
      | zero =>
        cases hn
        exact .inl ⟨b, hb, rfl⟩
      | succ i =>
        exact .inr ⟨i, n, b, hn, by rw [Nat.add_assoc, Nat.add_comm 1 i], hb⟩

/-- An address below the root is the number of a child and an address in that child. -/
theorem cons_mem_addresses_iff {i : Nat} :
    i :: a ∈ n.addresses ↔ ∃ child, n.children[i]? = some child ∧ a ∈ child.addresses := by
  rw [addresses_eq, List.mem_cons, mem_addressesList_iff]
  constructor
  · rintro (heq | ⟨j, child, b, hchild, heq, hb⟩)
    · cases heq
    · obtain ⟨rfl, rfl⟩ : i = j ∧ a = b := by simpa using heq
      exact ⟨child, hchild, hb⟩
  · rintro ⟨child, hchild, ha⟩
    exact .inr ⟨i, child, a, hchild, by rw [Nat.zero_add], ha⟩

/-- The listed addresses are those that lead to a node. -/
theorem mem_addresses_iff : a ∈ n.addresses ↔ (n.nodeAt? a).isSome = true := by
  -- Index by index, down from the root.
  induction a generalizing n with
  | nil => simp [addresses_eq, nodeAt?]
  | cons i a ih =>
    rw [cons_mem_addresses_iff, nodeAt?]
    cases hchild : n.children[i]? with
    | none => simp
    | some child => simp [ih]

/-! ### Their order -/

/-- The addresses of a forest are sorted if those of its trees are. -/
theorem addressesList_sorted (h : ∀ n ∈ ns, n.addresses.Pairwise (· < ·)) :
    (addressesList first ns).Pairwise (· < ·) := by
  induction ns generalizing first with
  | nil => exact List.Pairwise.nil
  | cons n ns ih =>
    rw [addressesList, List.pairwise_append]
    refine ⟨?_, ih fun m hm => h m (List.mem_cons_of_mem n hm), ?_⟩
    · rw [List.pairwise_map]
      exact (h n List.mem_cons_self).imp fun hlt => List.cons_lt_cons_iff.mpr (.inr ⟨rfl, hlt⟩)
    · -- The trees behind the first one have greater numbers.
      intro a ha b hb
      obtain ⟨a, -, rfl⟩ := List.mem_map.mp ha
      obtain ⟨i, m, b, -, rfl, -⟩ := mem_addressesList_iff.mp hb
      exact List.cons_lt_cons_iff.mpr (.inl (by omega))

/-- The addresses of a tree ascend in lexicographic order. -/
theorem addresses_sorted (n : Node) : n.addresses.Pairwise (· < ·) := by
  induction n using Node.induction with
  | step n ih =>
    rw [addresses_eq, List.pairwise_cons]
    refine ⟨?_, addressesList_sorted ih⟩
    intro a ha
    obtain ⟨i, m, b, -, rfl, -⟩ := mem_addressesList_iff.mp ha
    exact List.nil_lt_cons _ _

/-! ### The walk by addresses -/

/-- A child is visited by its own addresses, one level further down. -/
theorem visitAt?_cons {child : Node} {i : Nat} (h : n.children[i]? = some child) (depth : Nat)
    (a : List Nat) : n.visitAt? depth (i :: a) = child.visitAt? (depth + 1) a := by
  rw [visitAt?, nodeAt?, h, Option.bind_some, visitAt?, List.length_cons]
  simp only [Nat.add_comm a.length 1, Nat.add_assoc]

/-- The children of a node, from one of them on, are visited by its addresses. -/
theorem preorderList_eq_addressesList (depth : Nat)
    (h : ∀ child ∈ ns, ∀ depth,
      (child.preorder depth).map some = child.addresses.map (child.visitAt? depth))
    (hns : n.children.drop first = ns) :
    (preorderList (depth + 1) ns).map some = (addressesList first ns).map (n.visitAt? depth) := by
  induction ns generalizing first with
  | nil => rfl
  | cons child ns ih =>
    have hchild : n.children[first]? = some child := by
      rw [← List.head?_drop, hns, List.head?_cons]
    have htail : n.children.drop (first + 1) = ns := by
      rw [← List.tail_drop, hns, List.tail_cons]
    rw [preorderList, addressesList, List.map_append, List.map_append, List.map_map,
      h child List.mem_cons_self, ih (fun m hm => h m (List.mem_cons_of_mem child hm)) htail]
    refine congrArg (· ++ _) (List.map_congr_left fun a _ => ?_)
    exact (visitAt?_cons hchild depth a).symm

/-- The visits of a tree in pre-order are those of its addresses in order. -/
theorem preorder_eq_addresses (n : Node) (depth : Nat) :
    (n.preorder depth).map some = n.addresses.map (n.visitAt? depth) := by
  induction n using Node.induction generalizing depth with
  | step n ih =>
    have hchildren := @preorderList_eq_addressesList n n.children 0 depth ih rfl
    obtain ⟨kind, span, children⟩ := n
    rw [preorder, addresses, List.map_cons, List.map_cons]
    exact congrArg (_ :: ·) hchildren

/-- A walk visits the nodes by their addresses, and the depth is the length of the address. -/
theorem walk_eq_addresses (n : Node) : n.walk.map some = n.addresses.map (n.visitAt? 0) := by
  rw [walk_eq_preorder, preorder_eq_addresses]

end LooseC.Node
