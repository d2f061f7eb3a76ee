import LooseC.Proofs.Grammar.Append
import LooseC.Proofs.Grammar.Spans
import LooseC.Proofs.Snapshot.Counts
import LooseC.Proofs.Tree.Address
import Mathlib.Data.List.Infix

/-!
# The longest chain of control-flow statements

The control-flow depth is computed from the leaves up. Here it is told from the root down: it is the
greatest number of control-flow statements on the path to a visited node, and the path to an address
are the nodes at its beginnings (`Node.path`).

* `Node.controlFlowTo_le` and `Node.exists_controlFlowTo_eq`: no path holds more such statements
  than the depth says, and one holds as many.
* `Node.controlFlowDepth_eq_zero_iff` and `Node.controlFlowDepth_le_countP`: what the number of such
  statements in the whole tree says of the depth.
* `Node.controlFlowDepth_shift` and `Node.controlFlowDepthList_append`: a tree that is moved keeps
  its depth, and a forest is as deep as the deeper one of its parts.

`Snapshot.controlFlowDepth_longest` puts them together. For two token lists it needs that the second
one does not go on with a row of the first (`RowsApart.rowEnds`).
-/

set_option autoImplicit false

namespace LooseC

/-- The kinds of the statements that control the flow. -/
def NodeKind.controlFlow : List NodeKind :=
  [.ifStatement, .whileStatement, .forStatement, .doWhileStatement]

namespace Node

variable {n : Node} {ns : List Node} {a : List Nat}

/-- The node is a control-flow statement. -/
def isControlFlow (n : Node) : Bool := n.kind.isControlFlow

/-- The nodes on the path to an address, which are those at its beginnings, from the root on. -/
def path (n : Node) (a : List Nat) : List Node := a.inits.filterMap n.nodeAt?

/-- The nodes lead from one node down to another, each to a child of its own. -/
structure IsPath (n m : Node) (path : List Node) : Prop where
  head : path.head? = some n
  last : path.getLast? = some m
  chain : path.IsChain fun parent child => child ∈ parent.children

/-- The number of control-flow statements on the path to an address, the node there included. -/
def controlFlowTo (n : Node) (a : List Nat) : Nat := (n.path a).countP isControlFlow

/-! ### From the root down -/

/-- The path to the root is the root. -/
theorem path_nil (n : Node) : n.path [] = [n] := rfl

/-- The path to a node below a child begins at the root and goes on as in the child. -/
theorem path_cons {child : Node} {i : Nat} (h : n.children[i]? = some child) (a : List Nat) :
    n.path (i :: a) = n :: child.path a := by
  have hbelow (b : List Nat) : n.nodeAt? (i :: b) = child.nodeAt? b := by
    rw [nodeAt?, h, Option.bind_some]
  rw [path, List.inits_cons, List.filterMap_cons, nodeAt?, List.filterMap_map]
  exact congrArg (n :: ·) (List.filterMap_congr fun b _ => hbelow b)

/-- The nodes on the path to an address do lead there. -/
theorem isPath_path {m : Node} (h : n.nodeAt? a = some m) : IsPath n m (n.path a) := by
  -- On the address: each index leads from the root to one of its children.
  induction a generalizing n with
  | nil =>
    cases h
    exact ⟨rfl, rfl, .singleton _⟩
  | cons i a ih =>
    rw [nodeAt?, Option.bind_eq_some_iff] at h
    obtain ⟨child, hchild, hm⟩ := h
    obtain ⟨hhead, hlast, hchain⟩ := ih hm
    obtain ⟨later, hlater⟩ := List.head?_eq_some_iff.mp hhead
    rw [hlater] at hlast hchain
    rw [path_cons hchild, hlater]
    exact ⟨rfl, hlast, .cons_cons (List.mem_of_getElem? hchild) hchain⟩

/-- On the path to the root there is the root only. -/
theorem controlFlowTo_nil (n : Node) : n.controlFlowTo [] = if n.isControlFlow then 1 else 0 := by
  rw [controlFlowTo, path_nil, List.countP_singleton]

/-- The root counts on the path to every address below it. -/
theorem controlFlowTo_cons {child : Node} {i : Nat} (h : n.children[i]? = some child)
    (a : List Nat) :
    n.controlFlowTo (i :: a) = child.controlFlowTo a + if n.isControlFlow then 1 else 0 := by
  rw [controlFlowTo, path_cons h, List.countP_cons, ← controlFlowTo]

/-! ### From the leaves up -/

/-- A tree is as deep as the forest below its root, and one deeper if the root counts. -/
theorem controlFlowDepth_eq (n : Node) : n.controlFlowDepth =
    controlFlowDepthList n.children + if n.isControlFlow then 1 else 0 := by
  obtain ⟨kind, span, children⟩ := n
  rw [controlFlowDepth, isControlFlow]

/-- The depth of a forest as a maximum over the depths of its trees. -/
theorem controlFlowDepthList_eq_foldr (ns : List Node) :
    controlFlowDepthList ns = (ns.map controlFlowDepth).foldr max 0 := by
  induction ns with
  | nil => rfl
  | cons n ns ih => rw [controlFlowDepthList, ih, List.map_cons, List.foldr_cons]

/-- A forest is at least as deep as each of its trees. -/
theorem le_controlFlowDepthList (h : n ∈ ns) : n.controlFlowDepth ≤ controlFlowDepthList ns := by
  induction ns with
  | nil => cases h
  | cons m ns ih =>
    rw [controlFlowDepthList]
    cases h with
    | head => exact Nat.le_max_left _ _
    | tail _ h => exact Nat.le_trans (ih h) (Nat.le_max_right _ _)

/-- A forest is as deep as one of its trees, if it has any. -/
theorem exists_controlFlowDepthList_eq (h : ns ≠ []) :
    ∃ n ∈ ns, n.controlFlowDepth = controlFlowDepthList ns := by
  induction ns with
  | nil => exact absurd rfl h
  | cons m ns ih =>
    rw [controlFlowDepthList]
    by_cases hle : controlFlowDepthList ns ≤ m.controlFlowDepth
    · exact ⟨m, List.mem_cons_self, (Nat.max_eq_left hle).symm⟩
    · -- The deeper tree is further on, so the rest of the forest is not empty.
      have hne : ns ≠ [] := by
        rintro rfl
        exact hle (Nat.zero_le _)
      obtain ⟨n, hn, heq⟩ := ih hne
      exact ⟨n, List.mem_cons_of_mem m hn, by omega⟩

/-! ### Both are the same -/

/-- No path holds more control-flow statements than the depth says, by induction on the address. -/
theorem controlFlowTo_le (h : a ∈ n.addresses) : n.controlFlowTo a ≤ n.controlFlowDepth := by
  -- Each step down adds one to both sides if the root counts, and the child is no deeper than the
  -- forest.
  induction a generalizing n with
  | nil =>
    rw [controlFlowTo_nil, controlFlowDepth_eq]
    exact Nat.le_add_left _ _
  | cons i a ih =>
    obtain ⟨child, hchild, ha⟩ := cons_mem_addresses_iff.mp h
    have hle := le_controlFlowDepthList (List.mem_of_getElem? hchild)
    rw [controlFlowTo_cons hchild, controlFlowDepth_eq]
    exact Nat.add_le_add_right (Nat.le_trans (ih ha) hle) _

/-- Some path holds as many as the depth says: it goes down the deepest child each time. -/
theorem exists_controlFlowTo_eq (n : Node) :
    ∃ a ∈ n.addresses, n.controlFlowTo a = n.controlFlowDepth := by
  induction n using Node.induction with
  | step n ih =>
    by_cases hleaf : n.children = []
    · refine ⟨[], by simp [addresses_eq], ?_⟩
      rw [controlFlowTo_nil, controlFlowDepth_eq, hleaf, controlFlowDepthList, Nat.zero_add]
    · -- The path goes on in a child that is as deep as all of them.
      obtain ⟨child, hmem, hdeepest⟩ := exists_controlFlowDepthList_eq hleaf
      obtain ⟨i, hchild⟩ := List.getElem?_of_mem hmem
      obtain ⟨a, ha, heq⟩ := ih child hmem
      refine ⟨i :: a, cons_mem_addresses_iff.mpr ⟨child, hchild, ha⟩, ?_⟩
      rw [controlFlowTo_cons hchild, controlFlowDepth_eq, heq, hdeepest]

/-- The control-flow depth is the maximum over all addresses. -/
theorem max?_controlFlowTo (n : Node) :
    (n.addresses.map n.controlFlowTo).max? = some n.controlFlowDepth := by
  rw [List.max?_eq_some_iff]
  obtain ⟨a, ha, heq⟩ := exists_controlFlowTo_eq n
  refine ⟨List.mem_map.mpr ⟨a, ha, heq⟩, ?_⟩
  intro count hcount
  obtain ⟨b, hb, rfl⟩ := List.mem_map.mp hcount
  exact controlFlowTo_le hb

/-! ### The statements of the whole tree -/

/-- A forest has depth zero exactly if all of its trees have. -/
theorem controlFlowDepthList_eq_zero_iff :
    controlFlowDepthList ns = 0 ↔ ∀ n ∈ ns, n.controlFlowDepth = 0 := by
  induction ns with
  | nil => simp [controlFlowDepthList]
  | cons n ns ih =>
    rw [controlFlowDepthList, List.forall_mem_cons, ← ih]
    omega

/-- A tree has depth zero exactly if there is no control-flow statement in it. -/
theorem controlFlowDepth_eq_zero_iff (n : Node) :
    n.controlFlowDepth = 0 ↔ n.nodes.countP isControlFlow = 0 := by
  induction n using Node.induction with
  | step n ih =>
    rw [controlFlowDepth_eq, nodes_eq, List.countP_cons, List.countP_flatMap, Nat.add_eq_zero_iff,
      Nat.add_eq_zero_iff, controlFlowDepthList_eq_zero_iff, List.sum_eq_zero_iff,
      List.forall_mem_map]
    -- In each child the one is zero if the other is.
    simp +contextual [ih]

/-- A tree is no deeper than it has control-flow statements. -/
theorem controlFlowDepth_le_countP (n : Node) :
    n.controlFlowDepth ≤ n.nodes.countP isControlFlow := by
  induction n using Node.induction with
  | step n ih =>
    rw [controlFlowDepth_eq, nodes_eq, List.countP_cons, List.countP_flatMap]
    refine Nat.add_le_add_right ?_ _
    -- The deepest child alone has enough such statements below it.
    by_cases hleaf : n.children = []
    · rw [hleaf]
      exact Nat.zero_le _
    · obtain ⟨child, hmem, hdeepest⟩ := exists_controlFlowDepthList_eq hleaf
      rw [← hdeepest]
      exact Nat.le_trans (ih child hmem) (List.le_sum_of_mem (List.mem_map_of_mem hmem))

/-! ### Forests put together -/

/-- Two forests side by side are as deep as the deeper one. -/
theorem controlFlowDepthList_append (ns ms : List Node) : controlFlowDepthList (ns ++ ms) =
    max (controlFlowDepthList ns) (controlFlowDepthList ms) := by
  induction ns with
  | nil => simp [controlFlowDepthList]
  | cons n ns ih =>
    rw [List.cons_append, controlFlowDepthList, ih, controlFlowDepthList, Nat.max_assoc]

/-- A forest is moved tree by tree. -/
theorem controlFlowDepthList_map_shift {d : Nat}
    (h : ∀ n ∈ ns, (n.shift d).controlFlowDepth = n.controlFlowDepth) :
    controlFlowDepthList (ns.map (shift d)) = controlFlowDepthList ns := by
  rw [controlFlowDepthList_eq_foldr, List.map_map, controlFlowDepthList_eq_foldr]
  exact congrArg (List.foldr max 0) (List.map_congr_left h)

/-- A tree that is moved is as deep as before. -/
theorem controlFlowDepth_shift (d : Nat) (n : Node) :
    (n.shift d).controlFlowDepth = n.controlFlowDepth := by
  induction n using Node.induction with
  | step n ih =>
    obtain ⟨kind, span, children⟩ := n
    rw [shift_mk, controlFlowDepth, controlFlowDepth, controlFlowDepthList_map_shift ih]

/-- A unit is as deep as the forest of its children. -/
theorem controlFlowDepth_unit (span : Span) (children : List Node) :
    (Node.mk .unit span children).controlFlowDepth = controlFlowDepthList children := by
  rw [controlFlowDepth_eq]
  rfl

end Node

/-! ### Rows -/

/-- The two lists have no row in common. -/
def RowsApart (ts us : List Token) : Prop :=
  ∀ t ∈ ts, ∀ u ∈ us, t.position.row ≠ u.position.row

/-- Two lists are gone through token by token. -/
instance (ts us : List Token) : Decidable (RowsApart ts us) :=
  inferInstanceAs (Decidable (∀ t ∈ ts, ∀ u ∈ us, t.position.row ≠ u.position.row))

/-- A list that has no row in common with the one before does not go on with the row of a directive
at its end. -/
theorem RowsApart.rowEnds {ts us : List Token} {nodes : List Node} {i j : Nat}
    (h : RowsApart ts us) (hnodes : Derives ts .items i j nodes) : RowEnds ts nodes us := by
  intro n hn _ hrow
  have hitem := hnodes.item_of_mem (List.mem_of_getLast? hn)
  have hlt : n.span.start < ts.length := Nat.lt_of_lt_of_le (hitem.lt rfl) hitem.le_length
  rw [rowAt?, rowAt?, List.getElem?_eq_getElem hlt, Option.map_some,
    Option.map_eq_some_iff] at hrow
  obtain ⟨u, hu, hrow⟩ := hrow
  exact h _ (List.getElem_mem hlt) u (List.mem_of_getElem? hu) hrow.symm

namespace Snapshot

/-- The control-flow statements of the tree are counted by the entries of their kinds. -/
theorem sum_entry_controlFlow (s : Snapshot) :
    (NodeKind.controlFlow.map s.entry).sum = s.tree.nodes.countP Node.isControlFlow := by
  have hsum := NodeKind.sum_count NodeKind.controlFlow NodeKind.isControlFlow
    (fun k => by cases k <;> rfl) s.tree.kinds
  rw [funext s.entry_eq, hsum, Node.kinds, List.countP_map]
  rfl

/-- A kind has no entry exactly if its entry would be zero. -/
theorem lookup_nodeCounts_eq_none_iff (s : Snapshot) (kind : NodeKind) :
    s.nodeCounts.lookup kind = none ↔ s.entry kind = 0 := by
  rw [entry_eq, lookup_nodeCounts]
  simp

/-- The control-flow depth is the greatest number of control-flow statements on the path to a
visited node. It is zero exactly if the table has no entry for any of their kinds, and never more
than these entries together. Two token lists without a common row make, one after the other, a tree
as deep as the deeper one of their two trees. -/
theorem controlFlowDepth_longest (s : Snapshot) :
    (s.tree.walk.map some = s.tree.addresses.map (s.tree.visitAt? 0) ∧
      (∀ a n, s.tree.nodeAt? a = some n → Node.IsPath s.tree n (s.tree.path a)) ∧
      (s.tree.addresses.map s.tree.controlFlowTo).max? = some s.controlFlowDepth) ∧
    (s.controlFlowDepth = 0 ↔ ∀ kind ∈ NodeKind.controlFlow, s.nodeCounts.lookup kind = none) ∧
    s.controlFlowDepth ≤ (NodeKind.controlFlow.map s.entry).sum ∧
    ∀ ts us t u, parse ts = .ok t → parse us = .ok u → RowsApart ts us →
      ∃ v, parse (ts ++ us) = .ok v ∧
        v.controlFlowDepth = max t.controlFlowDepth u.controlFlowDepth := by
  refine ⟨⟨s.tree.walk_eq_addresses, fun a n => Node.isPath_path, s.tree.max?_controlFlowTo⟩,
    ?_, ?_, ?_⟩
  · rw [controlFlowDepth, Node.controlFlowDepth_eq_zero_iff, ← sum_entry_controlFlow,
      List.sum_eq_zero_iff, List.forall_mem_map]
    simp only [lookup_nodeCounts_eq_none_iff]
  · rw [sum_entry_controlFlow]
    exact s.tree.controlFlowDepth_le_countP
  · intro ts us t u ht hu hrows
    obtain ⟨nodes, hnodes, rfl⟩ := parse_eq_ok_iff_isUnit.mp ht
    obtain ⟨later, hlater, rfl⟩ := parse_eq_ok_iff_isUnit.mp hu
    -- The second list is read behind the first with its tree moved, and a moved tree is as deep.
    have hboth := hnodes.items_append hlater (hrows.rowEnds hnodes)
    refine ⟨_, parse_eq_ok_iff_isUnit.mpr ⟨_, hboth, rfl⟩, ?_⟩
    rw [Node.controlFlowDepth_unit, Node.controlFlowDepth_unit, Node.controlFlowDepth_unit,
      Node.controlFlowDepthList_append,
      Node.controlFlowDepthList_map_shift fun n _ => n.controlFlowDepth_shift ts.length]

/-- A directive on row 0, and on row 1 a function with one loop in another. -/
theorem controlFlowDepth_longest_loops : ∃ u v,
    parse (tokensOnRow 1 [.tyInt, .identifier, .lparen, .rparen, .lbrace, .kwWhile, .lparen,
      .identifier, .rparen, .kwFor, .lparen, .rparen, .semi, .rbrace]) = .ok u ∧
    (u.addresses.map u.controlFlowTo).max? = some 2 ∧
    parse (tokensOnRow 0 [.includeDirective, .stringLiteral] ++
      tokensOnRow 1 [.tyInt, .identifier, .lparen, .rparen, .lbrace, .kwWhile, .lparen,
        .identifier, .rparen, .kwFor, .lparen, .rparen, .semi, .rbrace]) = .ok v ∧
    v.controlFlowDepth = 2 := by
  have hdirective : (parse (tokensOnRow 0 [.includeDirective, .stringLiteral])).toOption.map
      Node.controlFlowDepth = some 0 := by
    decide +kernel
  have hloops : (parse (tokensOnRow 1 [.tyInt, .identifier, .lparen, .rparen, .lbrace, .kwWhile,
      .lparen, .identifier, .rparen, .kwFor, .lparen, .rparen, .semi, .rbrace])).toOption.map
      Node.controlFlowDepth = some 2 := by
    decide +kernel
  obtain ⟨t, ht, hnone⟩ := Option.map_eq_some_iff.mp hdirective
  obtain ⟨u, hsome, htwo⟩ := Option.map_eq_some_iff.mp hloops
  have hu := parse_eq_ok_of_toOption hsome
  obtain ⟨⟨-, -, hmax⟩, -, -, happend⟩ := controlFlowDepth_longest ⟨"m", [], u⟩
  obtain ⟨v, hv, hdepth⟩ := happend _ _ _ _ (parse_eq_ok_of_toOption ht) hu (by decide)
  rw [hnone, htwo] at hdepth
  refine ⟨u, v, hu, ?_, hv, hdepth⟩
  rw [← htwo]
  exact hmax

end Snapshot

end LooseC
