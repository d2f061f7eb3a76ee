import LooseC.Parse.Unit
import LooseC.Proofs.Grammar.Declaration

/-!
# A parse is a derivation

`parse_exact` is the main statement about the grammar: a parse succeeds with a tree exactly if
the grammar gives that tree to the whole list, and the grammar never gives two. Both directions
come from the productions: `reads_topLevel_iff` for one construct, `reads_many_topLevel_iff` for
the run of them, and `parse_eq_ok_iff_isUnit` for the whole list.
-/

set_option autoImplicit false

namespace LooseC

variable {ts : List Token} {i j : Nat} {node : Node}

namespace Parse

/-- The test of the run of a directive in terms of the list. -/
theorem nextOnRow_iff {row : Nat} : nextOnRow row ⟨ts, i⟩ = true ↔ rowAt? ts i = some row := by
  simp [nextOnRow, Cursor.peek?, rowAt?]

/-- Where there is a row there is a token. -/
theorem lt_length_of_rowAt? {row : Nat} (h : rowAt? ts i = some row) : i < ts.length := by
  obtain ⟨t, ht, -⟩ := Option.map_eq_some_iff.mp h
  exact (List.getElem?_eq_some_iff.mp ht).1

/-- A directive takes its first token and the run of tokens behind it on the same row. -/
theorem reads_directive_iff {kind : NodeKind} :
    (directive kind).Reads ts i node j ↔ i < ts.length ∧
      FirstFrom (fun m => rowAt? ts m ≠ rowAt? ts i) (i + 1) j ∧ node = .leaf kind ⟨i, j⟩ := by
  have hrun (t : Token) (ht : ts[i]? = some t) (k : Nat) :
      (∃ as, (many (nextOnRow t.position.row) consume).Reads ts (i + 1) as k) ↔
        FirstFrom (fun m => rowAt? ts m ≠ rowAt? ts i) (i + 1) k := by
    have hrow : rowAt? ts i = some t.position.row := by rw [rowAt?, ht, Option.map_some]
    rw [hrow]
    exact reads_many_consume_iff (fun _ => nextOnRow_iff) (fun _ => lt_length_of_rowAt?)
  simp only [directive, reads_position_bind_iff, reads_consume_bind_iff,
    reads_bind_iff (p := many _ _), reads_spanFrom_bind_iff, reads_pure_iff]
  constructor
  · rintro ⟨t, ht, as, k, hmany, -, rfl, rfl⟩
    exact ⟨(List.getElem?_eq_some_iff.mp ht).1, (hrun t ht _).mp ⟨as, hmany⟩, rfl⟩
  · rintro ⟨hlt, hfirst, rfl⟩
    -- The run begins behind the first token, so the directive is never empty.
    have ht := List.getElem?_eq_getElem hlt
    have hle := hfirst.le
    obtain ⟨as, hmany⟩ := (hrun ts[i] ht j).mpr hfirst
    exact ⟨ts[i], ht, as, j, hmany, by omega, rfl, rfl⟩

/-- The two directives and the kinds of their nodes. -/
theorem directiveNode?_eq_some_iff {first : TokenKind} {kind : NodeKind} :
    directiveNode? first = some kind ↔
      (first = .includeDirective ∧ kind = .includeDirective) ∨
        (first = .defineDirective ∧ kind = .defineDirective) := by
  cases first <;> simp [directiveNode?, eq_comm]

/-- A declaration begins the way its type does. -/
theorem derives_declaration_first {nodes : List Node} (h : Derives ts .declaration i j nodes) :
    ∃ kind, kindAt? ts i = some kind ∧ beginsDeclaration kind = true := by
  have hfirst {k : Nat} {types : List Node} (htype : Derives ts .type i k types) :
      ∃ kind, kindAt? ts i = some kind ∧ beginsDeclaration kind = true := by
    obtain ⟨kind, hkind, hwhich⟩ := derives_type_first htype
    refine ⟨kind, hkind, ?_⟩
    rcases hwhich with hword | rfl | rfl
    · rw [beginsDeclaration, hword, Bool.true_or, Bool.true_or]
    · rfl
    · rfl
  cases h with
  | declarationEnded htype _ => exact hfirst htype
  | declarationSemi htype _ _ => exact hfirst htype

/-- The production for constructs at the top level reads those of the grammar. -/
theorem reads_topLevel_iff : topLevel.Reads ts i node j ↔ Derives ts .item i j [node] := by
  simp only [topLevel, reads_peek_bind_iff, reads_ite_iff, reads_directive_iff,
    reads_declaration_iff, not_reads_fail]
  constructor
  · rintro ⟨t, ht, h⟩
    have hi : kindAt? ts i = some t.kind := kindAt?_eq_some_iff.mpr ⟨t, ht, rfl⟩
    -- The kind of the first token decides: a directive of either kind, or a declaration.
    split at h
    · rename_i hkind
      obtain ⟨-, hrow, rfl⟩ := h
      exact .directive (hkind ▸ hi) rfl hrow
    · split at h
      · rename_i hkind
        obtain ⟨-, hrow, rfl⟩ := h
        exact .directive (hkind ▸ hi) rfl hrow
      · split at h
        · exact .itemDeclaration h
        · exact absurd h id
  · intro h
    cases h with
    | directive hi hkind hrow =>
      obtain ⟨t, ht, rfl⟩ := kindAt?_eq_some_iff.mp hi
      have hlt := lt_length_of_kindAt? hi
      refine ⟨t, ht, ?_⟩
      rcases directiveNode?_eq_some_iff.mp hkind with ⟨hfirst, rfl⟩ | ⟨hfirst, rfl⟩
      · rw [hfirst, if_pos rfl]
        exact ⟨hlt, hrow, rfl⟩
      · rw [hfirst, if_neg (by decide), if_pos rfl]
        exact ⟨hlt, hrow, rfl⟩
    | itemDeclaration hdecl =>
      obtain ⟨kind, hi, hbegins⟩ := derives_declaration_first hdecl
      obtain ⟨t, ht, rfl⟩ := kindAt?_eq_some_iff.mp hi
      refine ⟨t, ht, ?_⟩
      -- Neither directive begins a declaration.
      rw [if_neg fun h => by simp [h, beginsDeclaration, TokenKind.isType] at hbegins,
        if_neg fun h => by simp [h, beginsDeclaration, TokenKind.isType] at hbegins,
        if_pos hbegins]
      exact hdecl

/-- The test of the unit loop in terms of the list. -/
theorem inUnit_iff : inUnit ⟨ts, i⟩ = true ↔ i < ts.length := by
  rw [inUnit, Bool.not_eq_true', ← Bool.not_eq_true, atEnd_iff, Nat.not_le]

/-- The top-level constructs up to the end of the list. -/
theorem reads_many_topLevel_iff {nodes : List Node} :
    (many inUnit topLevel).Reads ts i nodes j ∧ j = ts.length ↔ Derives ts .items i j nodes := by
  refine reads_many_iff_of_step (Q := fun j => j = ts.length)
    (R := fun i nodes j => Derives ts .items i j nodes) (Nat.le_refl i)
    (fun i nodes j _ => ?_) nodes
  constructor
  · intro h
    cases h with
    | itemsNil =>
      refine .inl ⟨?_, rfl, rfl, rfl⟩
      rw [← Bool.not_eq_true, inUnit_iff]
      exact Nat.lt_irrefl _
    | @itemsCons _ k _ n later hn hlater =>
      -- A construct takes a token, so one was left where it began.
      have hik := hn.lt rfl
      have hlen := hn.le_length
      exact .inr ⟨inUnit_iff.mpr (by omega), n, k, later, reads_topLevel_iff.mpr hn, by omega,
        hlater, rfl⟩
  · rintro (⟨-, rfl, rfl, rfl⟩ | ⟨-, n, k, later, hn, -, hlater, rfl⟩)
    · exact .itemsNil
    · exact .itemsCons (reads_topLevel_iff.mp hn) hlater

/-- The run of top-level constructs goes on up to the end of the list. -/
theorem eq_length_of_reads_many_topLevel {nodes : List Node}
    (h : (many inUnit topLevel).Reads ts i nodes j) (hi : i ≤ ts.length) : j = ts.length := by
  -- No construct goes past the end, and the run goes on wherever a token is left.
  have hstop := h.many_invariant (I := fun k => k ≤ ts.length) hi
    fun k n l _ hn => (reads_topLevel_iff.mp hn).le_length
  have hnot : ¬ j < ts.length := by
    rw [← inUnit_iff, Bool.not_eq_true]
    exact hstop.2
  have hle := hstop.1
  omega

/-- A unit is a run of top-level constructs that ends where the list does. -/
theorem reads_unit_iff : unit.Reads ts 0 node j ↔ IsUnit ts node ∧ j = ts.length := by
  simp only [unit, reads_position_bind_iff, reads_bind_iff (p := many _ _),
    reads_spanFrom_bind_iff, reads_ask_bind_iff, reads_note_bind_iff, reads_pure_iff]
  constructor
  · rintro ⟨nodes, k, hmany, -, rfl, rfl⟩
    have hend := eq_length_of_reads_many_topLevel hmany (Nat.zero_le _)
    subst hend
    exact ⟨⟨nodes, reads_many_topLevel_iff.mp ⟨hmany, rfl⟩, rfl⟩, rfl⟩
  · rintro ⟨⟨nodes, hnodes, rfl⟩, rfl⟩
    obtain ⟨hmany, -⟩ := reads_many_topLevel_iff.mpr hnodes
    exact ⟨nodes, ts.length, hmany, Nat.zero_le _, rfl, rfl⟩

end Parse

/-- `parse` is the production for units, begun at the front of the list. -/
theorem parse_eq_result (ts : List Token) : parse ts = match Parse.unit.result ⟨ts, 0⟩ with
    | .ok (node, _) => .ok node
    | .error failure => .error (failure.locate ts) := rfl

/-- A parse succeeds exactly if the production for units does. -/
theorem parse_eq_ok_iff_reads : parse ts = .ok node ↔ ∃ j, Parse.unit.Reads ts 0 node j := by
  rw [parse_eq_result]
  unfold Parse.Reads
  cases Parse.unit.result ⟨ts, 0⟩ with
  | error failure => simp
  | ok r => grind

/-- A parse that can be computed is checked by its value. -/
theorem parse_eq_ok_of_toOption (h : (parse ts).toOption = some node) : parse ts = .ok node := by
  cases hparse : parse ts with
  | error e =>
    rw [hparse] at h
    cases h
  | ok other =>
    rw [hparse] at h
    cases h
    rfl

/-- A parse succeeds with a tree exactly if the grammar gives that tree to the list. -/
theorem parse_eq_ok_iff_isUnit : parse ts = .ok node ↔ IsUnit ts node := by
  simp [parse_eq_ok_iff_reads, Parse.reads_unit_iff]

/-- A parse succeeds with a tree exactly if the grammar gives that tree to the whole list, and
the grammar gives one tree at most. -/
theorem parse_exact (ts : List Token) (tree : Node) :
    (parse ts = .ok tree ↔ IsUnit ts tree) ∧
      ∀ other, IsUnit ts tree → IsUnit ts other → other = tree := by
  refine ⟨parse_eq_ok_iff_isUnit, fun other htree hother => ?_⟩
  -- Two trees of one list are two answers of one parse.
  rw [← parse_eq_ok_iff_isUnit] at htree hother
  rw [htree] at hother
  cases hother
  rfl

/-- In `int a = f(b, c), d;` the comma inside the call does not end the initializer. -/
theorem parse_exact_initialized :
    IsUnit (tokensOnRow 0 [.tyInt, .identifier, .assign, .identifier, .lparen, .identifier, .comma,
      .identifier, .rparen, .comma, .identifier, .semi])
      ⟨.unit, ⟨0, 12⟩, [⟨.declaration, ⟨0, 12⟩, [.leaf .type ⟨0, 1⟩,
        ⟨.declaratorList, ⟨1, 11⟩, [⟨.declarator, ⟨1, 9⟩, [.leaf .expression ⟨3, 9⟩]⟩,
          .leaf .declarator ⟨10, 11⟩]⟩]⟩]⟩ :=
  (parse_exact _ _).1.mp (parse_eq_ok_of_toOption (by decide +kernel))

end LooseC
