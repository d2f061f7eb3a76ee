import LooseC.Proofs.Grammar.Append

/-!
# What the parser looks at

The parser looks at the kinds of the tokens and at which of them stand on one row, and at nothing
else. Two lists that do not differ in that (`SameLayout`) are parsed alike: both give the same
tree, or both give the same fault, each at its own token of one index (`parse_congr`). What the
lexemes are, the columns and the rows themselves, makes no difference.

The lists are like each other from their fronts on, so this is the case of no shift of what
`Parse.sim_many_topLevel` says. What is new here is where the error is placed.
-/

set_option autoImplicit false

namespace LooseC

variable {ts us : List Token}

/-- Two lists with the same kinds in order, and with two tokens on one row in one list where they
are in the other. -/
structure SameLayout (ts us : List Token) : Prop where
  kinds : us.map Token.kind = ts.map Token.kind
  rows : ∀ i < ts.length, ∀ j < ts.length,
    rowAt? us i = rowAt? us j ↔ rowAt? ts i = rowAt? ts j

namespace SameLayout

variable (h : SameLayout ts us)
include h

/-- Lists of the same layout are of the same length. -/
theorem length : us.length = ts.length := by
  have hlength := congrArg List.length h.kinds
  rwa [List.length_map, List.length_map] at hlength

/-- The same layout is likeness from the front on. -/
theorem alike : Alike 0 ts us where
  length := by rw [Nat.zero_add, h.length]
  kind i := by
    rw [Nat.zero_add, kindAt?, kindAt?, ← List.getElem?_map, ← List.getElem?_map, h.kinds]
  row i j := by
    rw [Nat.zero_add, Nat.zero_add]
    -- What is past the end of one list is past the end of the other.
    have hend {i j : Nat} (hi : ¬ i < ts.length) :
        rowAt? us i = rowAt? us j ↔ rowAt? ts i = rowAt? ts j := by
      rw [rowAt?_eq_none_iff.mpr (Nat.le_of_not_lt hi),
        rowAt?_eq_none_iff.mpr (h.length ▸ Nat.le_of_not_lt hi), eq_comm, rowAt?_eq_none_iff,
        h.length, eq_comm, rowAt?_eq_none_iff]
    by_cases hi : i < ts.length
    · by_cases hj : j < ts.length
      · exact h.rows i hi j hj
      · rw [eq_comm, hend hj, eq_comm]
    · exact hend hi

end SameLayout

/-! ### Where errors are placed -/

/-- The token that an error at an index is located at: the one at the index, or the last one once
the list has ended. -/
theorem Cursor.whereToken?_eq (ts : List Token) (i : Nat) :
    (Cursor.mk ts i).whereToken? = ts[min i (ts.length - 1)]? := by
  show ts[i]?.or ts.getLast? = _
  rw [List.getLast?_eq_getElem?]
  by_cases hi : i < ts.length
  · rw [List.getElem?_eq_getElem hi, Option.some_or, Nat.min_eq_left (by omega)]
    exact (List.getElem?_eq_getElem hi).symm
  · rw [List.getElem?_eq_none (by omega), Option.none_or, Nat.min_eq_right (by omega)]

/-- An error is placed at the token where the run gave up, or at the last one. -/
theorem parse_eq_error {fault : SyntaxFault} {i : Nat} {t : Token}
    (hrun : (Parse.many Parse.inUnit Parse.topLevel).result ⟨ts, 0⟩ = .error ⟨fault, i⟩)
    (ht : ts[min i (ts.length - 1)]? = some t) :
    parse ts = .error ⟨fault, some t.position, some t.kind⟩ := by
  rw [parse_eq, hrun]
  show Except.error (Failure.locate ⟨fault, i⟩ ts) = _
  rw [Failure.locate, Cursor.error, Cursor.whereToken?_eq, ht, Option.map_some, Option.map_some]

/-- An empty list has no error. -/
theorem length_pos_of_run_eq_error {failure : Failure}
    (hrun : (Parse.many Parse.inUnit Parse.topLevel).result ⟨ts, 0⟩ = .error failure) :
    0 < ts.length := by
  rw [List.length_pos_iff]
  rintro rfl
  have hnil : (Parse.many Parse.inUnit Parse.topLevel).result ⟨[], 0⟩ = .ok ([], 0) :=
    Parse.reads_many_iff.mpr (.inl ⟨rfl, rfl, rfl⟩)
  rw [hnil] at hrun
  cases hrun

/-- The parser looks at kinds and at rows alone. Two lists of the same layout have the same tree,
or the same fault at a token of the same kind, and that is the token of one index in both. -/
theorem parse_congr (h : SameLayout ts us) :
    (∃ tree, parse ts = .ok tree ∧ parse us = .ok tree) ∨
      ∃ fault, ∃ k : Nat, ∃ t u, ts[k]? = some t ∧ us[k]? = some u ∧ u.kind = t.kind ∧
        parse ts = .error ⟨fault, some t.position, some t.kind⟩ ∧
        parse us = .error ⟨fault, some u.position, some u.kind⟩ := by
  obtain ⟨nodes, moved, i, hts, hus, rfl⟩ | ⟨fault, i, hts, hus⟩ :=
    (Parse.sim_many_topLevel h.alike 0).outcomes
  · refine .inl ⟨⟨.unit, ⟨0, ts.length⟩, nodes⟩, by rw [parse_eq, hts], ?_⟩
    rw [parse_eq, hus, h.length, List.map_congr_left fun n _ => n.shift_zero, List.map_id']
  -- Both fail with one fault at one index, and the error is made of the token there or the last.
  · rw [Nat.zero_add, Nat.zero_add] at hus
    have hlt := length_pos_of_run_eq_error hts
    obtain ⟨ht, -⟩ | ⟨t, u, ht, hu, hkind⟩ := h.alike.getElem? (min i (ts.length - 1))
    · rw [List.getElem?_eq_none_iff] at ht
      omega
    · rw [Nat.zero_add] at hu
      refine .inr ⟨fault, _, t, u, ht, hu, hkind, parse_eq_error hts ht, parse_eq_error hus ?_⟩
      rw [h.length]
      exact hu

/-- A directive on row 0 and a declaration on row 1 have the tree that they have on rows 7
and 2. -/
theorem parse_congr_rows : ∃ tree,
    parse (tokensOnRow 0 [.includeDirective, .stringLiteral] ++
      tokensOnRow 1 [.tyInt, .identifier, .semi]) = .ok tree ∧
    parse (tokensOnRow 7 [.includeDirective, .stringLiteral] ++
      tokensOnRow 2 [.tyInt, .identifier, .semi]) = .ok tree := by
  have hlayout : SameLayout (tokensOnRow 0 [.includeDirective, .stringLiteral] ++
      tokensOnRow 1 [.tyInt, .identifier, .semi])
      (tokensOnRow 7 [.includeDirective, .stringLiteral] ++
        tokensOnRow 2 [.tyInt, .identifier, .semi]) := ⟨rfl, by decide⟩
  obtain htree | ⟨fault, k, t, u, -, -, -, herror, -⟩ := parse_congr hlayout
  · exact htree
  · -- The first of the two has a tree.
    have hgood : (parse (tokensOnRow 0 [.includeDirective, .stringLiteral] ++
        tokensOnRow 1 [.tyInt, .identifier, .semi])).toOption.isSome = true := by decide +kernel
    rw [herror] at hgood
    cases hgood

end LooseC
