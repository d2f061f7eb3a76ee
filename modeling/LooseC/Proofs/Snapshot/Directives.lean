import LooseC.Proofs.Grammar.Spans
import LooseC.Proofs.Lexing.Tiling
import LooseC.Snapshot.Basic

/-!
# Directives and rows

A directive takes the tokens behind it for as long as they stand on its row, and ends at the first
token that does not. That it has then taken all of its row is due to the lexer: the rows of the
tokens of a source never decrease, so no token comes back to a row that was left
(`row_eq_iff_of_sorted`). A comment or a literal over several rows makes no difference, for a token
stands on the row where it starts.

`analyze_directive` says so for a snapshot. The rest of the row belongs to no other node either,
because the top-level constructs do not overlap and a node lies inside the one above it.
-/

set_option autoImplicit false

namespace LooseC

variable {ts : List Token} {i j m : Nat} {d : Node}

/-- Where the rows never decrease, the tokens of a row from `i` on are those in front of the first
token on another row. -/
theorem row_eq_iff_of_sorted (hsorted : RowsSorted ts)
    (hfirst : FirstFrom (fun m => rowAt? ts m ≠ rowAt? ts i) (i + 1) j) {first t : Token}
    (hi : ts[i]? = some first) (him : i ≤ m) (hm : ts[m]? = some t) :
    m < j ↔ t.position.row = first.position.row := by
  have hrow {k : Nat} {u : Token} (hu : ts[k]? = some u) :
      rowAt? ts k = rowAt? ts i ↔ u.position.row = first.position.row := by
    simp [rowAt?, hu, hi]
  constructor
  · intro hmj
    rcases Nat.eq_or_lt_of_le him with rfl | hlt
    · exact (hrow hm).mp rfl
    · exact (hrow hm).mp (Decidable.not_not.mp (hfirst.least m hlt hmj))
  · intro heq
    refine Nat.lt_of_not_le fun hjm => ?_
    -- The token that ends the run stands between two tokens of one row.
    have hj : j < ts.length := Nat.lt_of_le_of_lt hjm (List.getElem?_eq_some_iff.mp hm).1
    have hu := List.getElem?_eq_getElem hj
    have hle := hsorted.row_le (Nat.le_of_lt hfirst.le) hi hu
    have hge := hsorted.row_le hjm hu hm
    exact hfirst.holds ((hrow hu).mpr (by omega))

/-- A directive is one node without children, up to the first token on another row. -/
theorem Derives.directive_of_kind (h : Derives ts .item i j [d])
    (hkind : d.kind = .includeDirective ∨ d.kind = .defineDirective) :
    d.children = [] ∧ FirstFrom (fun m => rowAt? ts m ≠ rowAt? ts i) (i + 1) j := by
  cases h with
  | directive _ _ hfirst => exact ⟨rfl, hfirst⟩
  | itemDeclaration hdeclaration => cases hdeclaration <;> simp at hkind

namespace Snapshot

variable {name source : String} {snap : Snapshot} {before after : List Node}

/-- A directive takes its row from its first token on, all of it, wherever the tokens of the row
stand in the list. It has no children, and in every node beside it each token at or behind the first
token of the directive stands on another row. -/
theorem analyze_directive (h : analyze name source = .ok snap)
    (hchildren : snap.tree.children = before ++ d :: after)
    (hkind : d.kind = .includeDirective ∨ d.kind = .defineDirective) :
    ∃ first, snap.tokens[d.span.start]? = some first ∧
      (∀ i, (d.span.start ≤ i ∧ i < d.span.stop) ↔ d.span.start ≤ i ∧
        ∃ t, snap.tokens[i]? = some t ∧ t.position.row = first.position.row) ∧
      d.children = [] ∧
      ∀ c ∈ before ++ after, c.Everywhere fun n => ∀ i t, n.span.start ≤ i → i < n.span.stop →
        d.span.start ≤ i → snap.tokens[i]? = some t → t.position.row ≠ first.position.row := by
  obtain ⟨htokens, htree, -⟩ := analyze_eq_ok_iff.mp h
  have hsorted : RowsSorted snap.tokens := rows_sorted_of_tokenize htokens
  obtain ⟨nodes, hnodes, hunit⟩ := parse_eq_ok_iff_isUnit.mp htree
  obtain rfl : nodes = before ++ d :: after := by rw [← hchildren, hunit]
  have hitem := hnodes.item_of_mem (n := d) (by simp)
  obtain ⟨hleaf, hfirst⟩ := hitem.directive_of_kind hkind
  have hlt := hitem.lt rfl
  have hlen := hitem.le_length
  have hstart := List.getElem?_eq_getElem (Nat.lt_of_lt_of_le hlt hlen)
  refine ⟨_, hstart, ?_, hleaf, ?_⟩
  · intro i
    constructor
    · rintro ⟨hdi, hid⟩
      have hi := List.getElem?_eq_getElem (Nat.lt_of_lt_of_le hid hlen)
      exact ⟨hdi, _, hi, (row_eq_iff_of_sorted hsorted hfirst hstart hdi hi).mp hid⟩
    · rintro ⟨hdi, t, ht, hrow⟩
      exact ⟨hdi, (row_eq_iff_of_sorted hsorted hfirst hstart hdi ht).mpr hrow⟩
  · intro c hc
    -- The constructs beside the directive end in front of it or begin behind it.
    have hapart : c.span.stop ≤ d.span.start ∨ d.span.stop ≤ c.span.start := by
      have hpairs := hnodes.ordered.apart
      rw [List.pairwise_append, List.pairwise_cons] at hpairs
      rcases List.mem_append.mp hc with hbefore | hafter
      · exact .inl (hpairs.2.2 c hbefore d (by simp))
      · exact .inr (hpairs.2.1.1 c hafter)
    have hmem : c ∈ before ++ d :: after := by
      rcases List.mem_append.mp hc with hbefore | hafter <;> simp [*]
    apply (hnodes.everywhere_wellSpanned c hmem).inside.imp
    intro n hn i t hni hin hdi ht hrow
    have hid := (row_eq_iff_of_sorted hsorted hfirst hstart hdi ht).mpr hrow
    omega

/-- The first row of this source holds a directive in a directive, a literal over two rows and the
beginning of a comment. -/
theorem analyze_directive_literal : ∃ snap,
    analyze "m" "#define a #include \"b\nc\" /*\n*/ int y;" = .ok snap ∧
      snap.tree.children = [.leaf .defineDirective ⟨0, 4⟩,
        ⟨.declaration, ⟨4, 7⟩, [.leaf .type ⟨4, 5⟩,
          ⟨.declaratorList, ⟨5, 6⟩, [.leaf .declarator ⟨5, 6⟩]⟩]⟩] ∧
      ∃ first, snap.tokens[0]? = some first ∧ ∀ i, i < 4 ↔
        ∃ t, snap.tokens[i]? = some t ∧ t.position.row = first.position.row := by
  have hchildren : (analyze "m" "#define a #include \"b\nc\" /*\n*/ int y;").toOption.map
      (fun snap => snap.tree.children) = some [.leaf .defineDirective ⟨0, 4⟩,
        ⟨.declaration, ⟨4, 7⟩, [.leaf .type ⟨4, 5⟩,
          ⟨.declaratorList, ⟨5, 6⟩, [.leaf .declarator ⟨5, 6⟩]⟩]⟩] := by
    decide +kernel
  obtain ⟨snap, hsnap, htree⟩ := exists_analyze_eq_ok hchildren
  have hsplit : snap.tree.children = [] ++ .leaf .defineDirective ⟨0, 4⟩ :: [_] := htree
  obtain ⟨first, hfirst, hrow, -⟩ := analyze_directive hsnap hsplit (.inr rfl)
  refine ⟨snap, hsnap, htree, first, hfirst, ?_⟩
  simpa [Node.leaf] using hrow

end Snapshot

end LooseC
