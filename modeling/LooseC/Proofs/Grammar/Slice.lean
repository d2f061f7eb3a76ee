import LooseC.Proofs.Grammar.Append
import LooseC.Proofs.Grammar.Spans

/-!
# Top-level constructs on their own

A top-level construct needs no token but its own. What stands behind it can be cut off, for a
declaration ends with a token of its own and a directive with its row (`Derives.item_take`). What
stands before it can be cut off, for the parser cannot tell where in a list it is
(`Derives.item_of_alike`).

* `Derives.items_take`: a list that is cut behind a construct keeps that construct and those
  before it.
* `parse_slice`: so the tokens of a construct alone are parsed as that construct, moved to the
  front, and the tokens up to its end are parsed as the constructs up to it.
-/

set_option autoImplicit false

namespace LooseC

variable {ts us : List Token} {i j k : Nat} {c : Node}

/-! ### Without the tokens behind it -/

/-- A list agrees with its front up to where that ends. -/
theorem sameBelow_take (ts : List Token) (k : Nat) : SameBelow ts (ts.take k) k :=
  fun _ hm => List.getElem?_take_of_lt hm

/-- A top-level construct stays what it is if the list is cut behind it. -/
theorem Derives.item_take (h : Derives ts .item i j [c]) (hjk : j ≤ k) :
    Derives (ts.take k) .item i j [c] := by
  refine h.item_congr ((sameBelow_take ts k).mono hjk) fun _ => ?_
  by_cases hend : j = k
  · -- Behind the cut there is no row, and the construct begins on one.
    obtain ⟨hstart, -⟩ : c.span.start = i ∧ c.span.stop = j := h.tiles rfl
    have hlt := h.lt rfl
    have hlen := h.le_length
    have hcut : rowAt? (ts.take k) j = none := by
      rw [rowAt?_eq_none_iff, List.length_take]
      omega
    have hrow : rowAt? ts i ≠ none := by
      rw [ne_eq, rowAt?_eq_none_iff]
      omega
    rw [hcut, hstart]
    exact .inr hrow.symm
  · exact .inl ((sameBelow_take ts k).rowAt? (by omega))

/-- Behind the last token there is the run of no constructs. -/
theorem Derives.items_nil (hk : k = ts.length) : Derives ts .items k k [] :=
  hk ▸ .itemsNil

/-- A run of constructs, and a cut behind one of them: that construct and those before it are the
run of what is left. -/
theorem Derives.items_take {before after : List Node}
    (h : Derives ts .items i k (before ++ c :: after)) :
    Derives ts .item c.span.start c.span.stop [c] ∧
      Derives (ts.take c.span.stop) .items i c.span.stop (before ++ [c]) := by
  induction before generalizing i with
  | nil =>
    cases h with
    | @itemsCons _ j _ _ _ hfirst _ =>
      obtain ⟨rfl, rfl⟩ : c.span.start = i ∧ c.span.stop = j := hfirst.tiles rfl
      -- The cut is right behind the construct, so nothing is left behind it.
      have hlen : (ts.take c.span.stop).length = c.span.stop :=
        List.length_take_of_le hfirst.le_length
      have hend : Derives (ts.take c.span.stop) .items c.span.stop c.span.stop [] :=
        .items_nil hlen.symm
      exact ⟨hfirst, .itemsCons (hfirst.item_take (Nat.le_refl _)) hend⟩
  | cons n before ih =>
    cases h with
    | itemsCons hfirst hlater =>
      obtain ⟨hitem, hrun⟩ := ih hlater
      exact ⟨hitem, .itemsCons (hfirst.item_take hrun.le) hrun⟩

/-! ### Without the tokens before it -/

/-- A top-level construct is one in every list that is alike from some index on. -/
theorem Derives.item_of_alike {d : Nat} (halike : Alike d us ts)
    (h : Derives ts .item (d + i) k [c]) :
    ∃ alone j, k = d + j ∧ c = alone.shift d ∧ Derives us .item i j [alone] := by
  have hread : Parse.topLevel.result ⟨ts, d + i⟩ = .ok (c, k) := Parse.reads_topLevel_iff.mpr h
  obtain ⟨alone, moved, j, hus, hts, hshift⟩ | ⟨fault, j, -, hts⟩ :=
    (Parse.sim_topLevel halike i).outcomes
  · rw [hts] at hread
    cases hread
    exact ⟨alone, j, rfl, hshift, Parse.reads_topLevel_iff.mp hus⟩
  · rw [hts] at hread
    cases hread

/-- The tokens of a construct alone are that construct, moved to the front. -/
theorem Derives.item_slice (h : Derives ts .item i j [c]) :
    ∃ alone, alone.shift i = c ∧ Derives ((ts.take j).drop i) .item 0 (j - i) [alone] := by
  have hlt := h.lt rfl
  have hfront : ((ts.take j).take i).length = i := by
    have hlen := h.le_length
    rw [List.length_take, List.length_take]
    omega
  have halike : Alike i ((ts.take j).drop i) (ts.take j) := by
    have happend := alike_append ((ts.take j).take i) ((ts.take j).drop i)
    rwa [hfront, List.take_append_drop] at happend
  obtain ⟨alone, l, hl, hshift, hitem⟩ :=
    Derives.item_of_alike (i := 0) halike (h.item_take (Nat.le_refl j))
  have hstop : j - i = l := by omega
  exact ⟨alone, hshift.symm, hstop ▸ hitem⟩

/-! ### Parts of a parse -/

/-- A run of constructs over the whole list is its parse. -/
theorem parse_of_items {nodes : List Node} (h : Derives ts .items 0 k nodes)
    (hk : k = ts.length) : parse ts = .ok ⟨.unit, ⟨0, k⟩, nodes⟩ := by
  subst hk
  exact parse_eq_ok_iff_isUnit.mpr ⟨nodes, h, rfl⟩

/-- Every top-level construct of a parse is parsed on its own. Its tokens have a unit with that one
construct in it, every span counted from where the construct begins; and the tokens up to its end
have a unit with the constructs up to it. -/
theorem parse_slice {tree : Node} {before after : List Node} (h : parse ts = .ok tree)
    (hc : tree.children = before ++ c :: after) :
    (∃ alone, alone.shift c.span.start = c ∧
      parse (c.tokens ts) = .ok ⟨.unit, ⟨0, c.span.stop - c.span.start⟩, [alone]⟩) ∧
      parse (ts.take c.span.stop) = .ok ⟨.unit, ⟨0, c.span.stop⟩, before ++ [c]⟩ := by
  obtain ⟨nodes, hnodes, rfl⟩ := parse_eq_ok_iff_isUnit.mp h
  obtain rfl : nodes = before ++ c :: after := hc
  obtain ⟨hitem, hrun⟩ := hnodes.items_take
  have hlen := hitem.le_length
  have hslice : (c.tokens ts).length = c.span.stop - c.span.start := Node.length_tokens hlen
  have htake : (ts.take c.span.stop).length = c.span.stop := List.length_take_of_le hlen
  refine ⟨?_, parse_of_items hrun htake.symm⟩
  obtain ⟨alone, hshift, halone⟩ := hitem.item_slice
  have htokens : c.tokens ts = (ts.take c.span.stop).drop c.span.start := if_pos hlen
  have hend := Derives.items_nil hslice.symm
  exact ⟨alone, hshift, parse_of_items (.itemsCons (htokens ▸ halone) hend) hslice.symm⟩

/-- The declaration between a directive and a function is parsed on its own. -/
theorem parse_slice_declaration :
    (∃ alone, alone.shift 2 = ⟨.declaration, ⟨2, 5⟩, [.leaf .type ⟨2, 3⟩,
        ⟨.declaratorList, ⟨3, 4⟩, [.leaf .declarator ⟨3, 4⟩]⟩]⟩ ∧
      parse (tokensOnRow 1 [.tyInt, .identifier, .semi]) = .ok ⟨.unit, ⟨0, 3⟩, [alone]⟩) ∧
      parse (tokensOnRow 0 [.includeDirective, .stringLiteral] ++
          tokensOnRow 1 [.tyInt, .identifier, .semi]) =
        .ok ⟨.unit, ⟨0, 5⟩, [.leaf .includeDirective ⟨0, 2⟩,
          ⟨.declaration, ⟨2, 5⟩, [.leaf .type ⟨2, 3⟩,
            ⟨.declaratorList, ⟨3, 4⟩, [.leaf .declarator ⟨3, 4⟩]⟩]⟩]⟩ := by
  have hparse : parse (tokensOnRow 0 [.includeDirective, .stringLiteral] ++
      tokensOnRow 1 [.tyInt, .identifier, .semi, .tyVoid, .identifier, .lparen, .rparen, .lbrace,
        .rbrace]) =
      .ok ⟨.unit, ⟨0, 11⟩, [.leaf .includeDirective ⟨0, 2⟩,
        ⟨.declaration, ⟨2, 5⟩, [.leaf .type ⟨2, 3⟩,
          ⟨.declaratorList, ⟨3, 4⟩, [.leaf .declarator ⟨3, 4⟩]⟩]⟩,
        ⟨.declaration, ⟨5, 11⟩, [.leaf .type ⟨5, 6⟩,
          ⟨.declaratorList, ⟨6, 11⟩, [⟨.declarator, ⟨6, 11⟩, [.leaf .parameterList ⟨7, 9⟩,
            .leaf .block ⟨9, 11⟩]⟩]⟩]⟩]⟩ :=
    parse_eq_ok_of_toOption (by decide +kernel)
  obtain ⟨⟨alone, hshift, halone⟩, hprefix⟩ :=
    @parse_slice _ _ _ [.leaf .includeDirective ⟨0, 2⟩] _ hparse rfl
  exact ⟨⟨alone, hshift, halone⟩, hprefix⟩

end LooseC
