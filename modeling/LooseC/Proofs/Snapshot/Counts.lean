import LooseC.Proofs.Grammar.LocalTree
import LooseC.Snapshot.Query

/-!
# The node counts of a snapshot

The counts of a snapshot obey the grammar. Every node but the unit is counted at its parent, and the
local trees say how many children of each kind a parent has. So each law is one line for a node
(`LocalTree.count_type` and the like) and a sum over the tree: equal numbers at every node make
equal counts, and a bound at every node makes a bound of the counts.

`Snapshot.Bookkeeping` lists the laws, with what makes the counts a table of the tree: it is the one
that a walk fills in node by node (`foldl_countOne`). `analyze_bookkeeping` is the main statement.
-/

set_option autoImplicit false

namespace LooseC

/-! ### Kinds counted at their parents -/

namespace Node

/-- The kinds of the nodes of a tree, in the order of a walk. -/
def kinds (n : Node) : List NodeKind := n.nodes.map Node.kind

/-- The nodes of a kind are counted at their parents, the root apart. -/
theorem count_kinds (n : Node) (kind : NodeKind) : n.kinds.count kind =
    n.total (fun m => m.childKinds.count kind) + if n.kind = kind then 1 else 0 := by
  have hcount (ns : List Node) :
      (ns.map Node.kind).count kind = ns.countP fun m => m.kind == kind := by
    rw [List.count, List.countP_map]
    rfl
  rw [kinds, hcount, countP_nodes]
  simp only [childKinds, hcount, beq_iff_eq]

/-- To count the nodes of a kind is to sum one for each of them. -/
theorem total_kind (n : Node) (kind : NodeKind) :
    n.total (fun m => if m.kind = kind then 1 else 0) = n.kinds.count kind := by
  have hite := total_ite (fun m => m.kind == kind) n
  simp only [beq_iff_eq] at hite
  rw [hite, kinds, List.count, List.countP_map]
  rfl

/-- A kind occurs among the children exactly if there are children of that kind. -/
theorem mem_childKinds_iff {n : Node} {kind : NodeKind} :
    kind ∈ n.childKinds ↔ (n.childrenOf kind).isEmpty = false := by
  simp [childKinds, childrenOf]

end Node

namespace Snapshot

/-- The node is a declarator with an expression, the value that it is initialized with. -/
def isInitialized (n : Node) : Bool :=
  n.kind == .declarator && !(n.childrenOf .expression).isEmpty

/-- The same in terms of the kinds of the children only, which is what a local tree knows. -/
theorem isInitialized_iff {n : Node} :
    isInitialized n = true ↔ n.kind = .declarator ∧ .expression ∈ n.childKinds := by
  simp [isInitialized, Node.mem_childKinds_iff]

/-- A definition in terms of the kinds of the children only. -/
theorem isDefinition_iff {n : Node} :
    isDefinition n = true ↔ n.kind = .declarator ∧ .block ∈ n.childKinds := by
  simp [isDefinition, Node.mem_childKinds_iff]

end Snapshot

/-! ### The laws of a tree -/

namespace Node

/-- The declarators that are initialized, as a sum over the tree. -/
theorem total_initialized (n : Node) : n.total (fun m =>
    if m.kind = .declarator ∧ .expression ∈ m.childKinds then 1 else 0) =
      n.nodes.countP Snapshot.isInitialized := by
  have hite := total_ite Snapshot.isInitialized n
  simpa only [Snapshot.isInitialized_iff] using hite

variable {tree : Node} (hunit : tree.kind = .unit)

include hunit

/-- Below a unit, the nodes of any other kind are all counted at their parents. -/
theorem count_below (kind : NodeKind) (hkind : kind ≠ .unit) :
    tree.kinds.count kind = tree.total fun m => m.childKinds.count kind := by
  rw [count_kinds, hunit, if_neg (Ne.symm hkind), Nat.add_zero]

variable (h : ∀ n ∈ tree.nodes, LocalTree n.kind n.childKinds)

include h

/-- The unit is no child, so it is the only one. -/
theorem count_unit : tree.kinds.count .unit = 1 := by
  have hnone : tree.total (fun m => m.childKinds.count .unit) = tree.total fun _ => 0 :=
    total_congr fun m hm => (h m hm).count_unit
  rw [count_kinds, hnone, hunit, if_pos rfl]
  simp [total]

/-- The directives and declarations are the children of the unit. -/
theorem count_topLevel : tree.kinds.count .includeDirective + tree.kinds.count .defineDirective +
    tree.kinds.count .declaration = tree.children.length := by
  have hone := count_unit hunit h
  -- The three kinds are children of a unit only, and are all of its children.
  have hsum : tree.kinds.count .includeDirective + tree.kinds.count .defineDirective +
      tree.kinds.count .declaration =
      tree.total fun m => if m.kind = .unit then m.childKinds.length else 0 := by
    rw [count_below hunit .includeDirective nofun, count_below hunit .defineDirective nofun,
      count_below hunit .declaration nofun, ← total_add, ← total_add]
    exact total_congr fun m hm => (h m hm).count_topLevel
  -- There is no unit behind the first node.
  rw [kinds, nodes_eq, List.map_cons, hunit, List.count_cons_self, Nat.add_eq_right,
    List.count_eq_zero] at hone
  rw [hsum, total, nodes_eq, List.map_cons, List.sum_cons, hunit, if_pos rfl, childKinds,
    List.length_map, Nat.add_eq_left]
  apply List.sum_eq_zero
  intro count hcount
  obtain ⟨m, hm, rfl⟩ := List.mem_map.mp hcount
  refine if_neg fun hkind => hone ?_
  rw [← hkind]
  exact List.mem_map_of_mem hm

/-- Each declaration has one list of declarators, and no other node has any. -/
theorem count_declaratorList :
    tree.kinds.count .declaratorList = tree.kinds.count .declaration := by
  rw [count_below hunit .declaratorList nofun,
    total_congr fun m hm => (h m hm).count_declaratorList, total_kind]

/-- Each list of declarators has one declarator at least. -/
theorem count_declaratorList_le :
    tree.kinds.count .declaratorList ≤ tree.kinds.count .declarator := by
  rw [← total_kind, count_below hunit .declarator nofun]
  exact total_le fun m hm => (h m hm).le_count_declarator

/-- Each declaration and each parameter has one type. -/
theorem count_type :
    tree.kinds.count .type = tree.kinds.count .declaration + tree.kinds.count .parameter := by
  rw [count_below hunit .type nofun, total_congr fun m hm => (h m hm).count_type, total_add,
    total_kind, total_kind]

/-- An expression is the guard of a statement or the value of a declarator. -/
theorem count_expression : tree.kinds.count .expression =
    tree.kinds.count .ifStatement + tree.kinds.count .whileStatement +
      tree.kinds.count .forStatement + tree.kinds.count .doWhileStatement +
      tree.nodes.countP Snapshot.isInitialized := by
  rw [count_below hunit .expression nofun,
    total_congr fun m hm => (h m hm).count_expression]
  simp only [total_add, total_kind, total_initialized]

/-- A declarator has parameters or a value, and not both. -/
theorem count_parameterList_le : tree.kinds.count .parameterList +
    tree.nodes.countP Snapshot.isInitialized ≤ tree.kinds.count .declarator := by
  rw [count_below hunit .parameterList nofun, ← total_initialized, ← total_add, ← total_kind]
  exact total_le fun m hm => (h m hm).count_parameterList_le

/-- A declarator with a body has parameters. -/
theorem countP_isDefinition_le :
    tree.nodes.countP Snapshot.isDefinition ≤ tree.kinds.count .parameterList := by
  rw [← total_ite, count_below hunit .parameterList nofun]
  apply total_le
  intro m hm
  simpa only [Snapshot.isDefinition_iff] using (h m hm).le_count_parameterList

end Node

/-! ### The table -/

namespace Snapshot

/-- The number that the table gives for a kind, zero if it has no entry. -/
def entry (s : Snapshot) (kind : NodeKind) : Nat := (s.nodeCounts.lookup kind).getD 0

/-- The number of declarators with an expression. -/
def initializedCount (s : Snapshot) : Nat := s.tree.nodes.countP isInitialized

/-- A table after one more node, of the given kind. -/
def countOne (table : NodeKind → Option Nat) (kind : NodeKind) : NodeKind → Option Nat :=
  fun k => if k = kind then some ((table k).getD 0 + 1) else table k

/-- The table that is filled in node by node gives the number of each kind that occurs. -/
theorem foldl_countOne (kinds : List NodeKind) (table : NodeKind → Option Nat) (kind : NodeKind) :
    kinds.foldl countOne table kind = if kinds.count kind = 0 then table kind
      else some ((table kind).getD 0 + kinds.count kind) := by
  -- The table is general, since each kind changes it for those after it.
  induction kinds generalizing table with
  | nil => rfl
  | cons k kinds ih =>
    rw [List.foldl_cons, ih, List.count_cons]
    by_cases hk : kind = k
    · subst hk
      by_cases hnone : kinds.count kind = 0
      · simp [countOne, hnone]
      · simp [countOne, hnone]
        omega
    · have hne : k ≠ kind := Ne.symm hk
      simp [countOne, hk, hne]

/-- A table of the keys with a value other than zero gives the value of each such key. -/
theorem lookup_filter_ne_zero (f : NodeKind → Nat) (kinds : List NodeKind) (kind : NodeKind) :
    ((kinds.map fun k => (k, f k)).filter fun p => p.2 ≠ 0).lookup kind =
      if kind ∈ kinds ∧ f kind ≠ 0 then some (f kind) else none := by
  -- Key by key: a key with value zero is left out, and the key asked for is found first.
  induction kinds with
  | nil => simp
  | cons k kinds ih =>
    rw [List.map_cons, List.filter_cons]
    by_cases hzero : f k = 0
    · -- The key has no place in the table, and its value is zero.
      have hiff : kind ∈ k :: kinds ∧ f kind ≠ 0 ↔ kind ∈ kinds ∧ f kind ≠ 0 := by grind
      simp only [hzero, hiff, ← ih]
      simp
    · by_cases hk : kind = k
      · subst hk
        simp [hzero]
      · have hbeq : (kind == k) = false := beq_false_of_ne hk
        simp only [ne_eq, hzero, not_false_eq_true, decide_true, if_true, List.lookup_cons, hbeq,
          ih, List.mem_cons, hk, false_or]

variable (s : Snapshot)

/-- The kinds that a walk visits are those of the nodes of the tree. -/
theorem nodeKinds_eq_kinds : s.nodeKinds = s.tree.kinds := by
  rw [nodeKinds, Node.kinds, Node.nodes, List.map_map]
  rfl

/-- The table gives the number of nodes of a kind, and has no entry where that is zero. -/
theorem lookup_nodeCounts (kind : NodeKind) : s.nodeCounts.lookup kind =
    if s.tree.kinds.count kind = 0 then none else some (s.tree.kinds.count kind) := by
  rw [nodeCounts, lookup_filter_ne_zero s.nodeCount, nodeCount, nodeKinds_eq_kinds]
  simp [NodeKind.mem_all]

/-- An entry is the number of nodes of its kind. -/
theorem entry_eq (kind : NodeKind) : s.entry kind = s.tree.kinds.count kind := by
  rw [entry, lookup_nodeCounts]
  split <;> simp_all

/-- Together the entries count every node once. -/
theorem sum_nodeCounts : (s.nodeCounts.map Prod.snd).sum = s.tree.size := by
  -- The entries left out of the table are zeros.
  have hzeros (ps : List (NodeKind × Nat)) :
      ((ps.filter fun p => p.2 ≠ 0).map Prod.snd).sum = (ps.map Prod.snd).sum := by
    induction ps with
    | nil => rfl
    | cons p ps ih =>
      rw [List.filter_cons]
      split <;> simp_all
  rw [nodeCounts, hzeros, List.map_map]
  -- Each node is counted under one kind.
  have hsum := NodeKind.sum_count NodeKind.all (fun _ => true) (fun k => by cases k <;> rfl)
    s.nodeKinds
  show (NodeKind.all.map fun kind => s.nodeKinds.count kind).sum = s.tree.size
  rw [hsum, List.countP_true, nodeKinds_eq_kinds, Node.kinds, List.length_map, Node.length_nodes]

/-- A name of a function stands for one definition at most. -/
theorem length_functionNames_le : s.functionNames.length ≤ s.tree.nodes.countP isDefinition := by
  rw [functionNames, Node.nodes, List.countP_map, List.countP_eq_length_filter]
  exact List.length_filterMap_le _ _

/-- The laws that the node counts of a snapshot obey. -/
structure Bookkeeping (s : Snapshot) : Prop where
  /-- The table is what a walk makes of an empty one. -/
  lookup_eq : ∀ kind, s.nodeCounts.lookup kind = s.nodeKinds.foldl countOne (fun _ => none) kind
  nodup : (s.nodeCounts.map Prod.fst).Nodup
  ne_zero : ∀ p ∈ s.nodeCounts, p.2 ≠ 0
  sum : (s.nodeCounts.map Prod.snd).sum = s.tree.size
  unit : s.entry .unit = 1
  topLevel : s.entry .includeDirective + s.entry .defineDirective + s.entry .declaration =
    s.tree.children.length
  declaratorList : s.entry .declaratorList = s.entry .declaration
  declaration_le : s.entry .declaration ≤ s.entry .declarator
  type : s.entry .type = s.entry .declaration + s.entry .parameter
  expression : s.entry .expression = s.entry .ifStatement + s.entry .whileStatement +
    s.entry .forStatement + s.entry .doWhileStatement + s.initializedCount
  parameterList_le : s.entry .parameterList + s.initializedCount ≤ s.entry .declarator
  functionNames_le : s.functionNames.length ≤ s.entry .parameterList

variable {s} {name source : String}

/-- The node counts of every analysed source obey the laws. -/
theorem analyze_bookkeeping (h : analyze name source = .ok s) : s.Bookkeeping := by
  obtain ⟨-, htree, -⟩ := analyze_eq_ok_iff.mp h
  obtain ⟨hunit, hlocal⟩ := localTree_of_parse htree
  have hlists := Node.count_declaratorList hunit hlocal
  constructor
  case lookup_eq =>
    intro kind
    rw [lookup_nodeCounts, foldl_countOne, nodeKinds_eq_kinds]
    simp
  case nodup =>
    have hsub : (s.nodeCounts.map Prod.fst).Sublist
        ((NodeKind.all.map fun kind => (kind, s.nodeCount kind)).map Prod.fst) :=
      List.filter_sublist.map Prod.fst
    rw [List.map_map] at hsub
    have hall : (NodeKind.all.map id).Nodup := by decide
    exact hall.sublist hsub
  case ne_zero =>
    intro p hp
    simpa using (List.mem_filter.mp hp).2
  case sum => exact sum_nodeCounts s
  -- The other laws are about entries, so they are those of the tree.
  all_goals simp only [entry_eq, initializedCount]
  case unit => exact Node.count_unit hunit hlocal
  case topLevel => exact Node.count_topLevel hunit hlocal
  case declaratorList => exact hlists
  case declaration_le =>
    rw [← hlists]
    exact Node.count_declaratorList_le hunit hlocal
  case type => exact Node.count_type hunit hlocal
  case expression => exact Node.count_expression hunit hlocal
  case parameterList_le => exact Node.count_parameterList_le hunit hlocal
  case functionNames_le =>
    exact Nat.le_trans (length_functionNames_le s) (Node.countP_isDefinition_le hunit hlocal)

/-- A directive, a variable with a value, and a function with two statements, one in the other. -/
theorem analyze_bookkeeping_nested : ∃ s,
    analyze "m" "#define N 4\nint n = 1, f(int a, char) { if (a) while (b) c; }" = .ok s ∧
      s.nodeCounts = [(.unit, 1), (.defineDirective, 1), (.declaration, 1), (.type, 3),
        (.declaratorList, 1), (.declarator, 2), (.parameterList, 1), (.parameter, 2), (.block, 1),
        (.statement, 1), (.ifStatement, 1), (.whileStatement, 1), (.expression, 3)] ∧
      s.Bookkeeping := by
  have hcounts : (analyze "m"
      "#define N 4\nint n = 1, f(int a, char) { if (a) while (b) c; }").toOption.map nodeCounts =
      some [(.unit, 1), (.defineDirective, 1), (.declaration, 1), (.type, 3),
        (.declaratorList, 1), (.declarator, 2), (.parameterList, 1), (.parameter, 2), (.block, 1),
        (.statement, 1), (.ifStatement, 1), (.whileStatement, 1), (.expression, 3)] := by
    decide +kernel
  obtain ⟨s, hsnap, hcounts⟩ := exists_analyze_eq_ok hcounts
  exact ⟨s, hsnap, hcounts, analyze_bookkeeping hsnap⟩

end Snapshot

end LooseC
