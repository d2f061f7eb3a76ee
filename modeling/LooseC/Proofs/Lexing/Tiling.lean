import LooseC.Proofs.Lexing.Gap
import LooseC.Proofs.Lexing.Run

/-!
# Tokens and gaps tile the text

The tokens of a run and the gaps in front of them are the text that was read, in order and with
nothing lost (`weave`), and every token is placed where its text begins (`Tiling`). Together they
take the front of a text, and the rest is left over: `Leaves p cs tokens rest`.

* The tokens decide what is left, for their places say where they stand (`leaves_cons_iff`).
* `Lexer.leaves_token_iff` takes the first token of a run off both sides, which is the step of
  every induction over a run that speaks of what is left. `Lexer.exists_leaves` is the first of
  them: every run leaves something, whether it ends well or not.
* `rows_sorted_of_tokenize` reads off the places that the rows of the tokens never decrease.
* `tokenize_lossless` is the statement for a whole source, with the places as counts: rows are
  newlines, columns are the characters behind the last newline (`Position.advanceAll_origin`).
-/

set_option autoImplicit false

namespace LooseC

/-- The text in which each token stands behind a gap. -/
def weave (pieces : List (List Char × Token)) : List Char :=
  pieces.flatMap fun piece => piece.1 ++ piece.2.lexeme.toList

/-- Without tokens there is no text. -/
@[simp] theorem weave_nil : weave [] = [] := rfl

/-- The first token stands behind its gap and in front of the others. -/
@[simp] theorem weave_cons (gap : List Char) (t : Token) (pieces : List (List Char × Token)) :
    weave ((gap, t) :: pieces) = gap ++ t.lexeme.toList ++ weave pieces := rfl

/-- The tokens of a text that begins at `start`, each behind its gap: the gaps are trivia, no
token is empty, and each token is placed behind everything before it. -/
structure Tiling (start : Position) (pieces : List (List Char × Token)) : Prop where
  gap : ∀ piece ∈ pieces, Gap piece.1
  nonempty : ∀ piece ∈ pieces, piece.2.lexeme ≠ ""
  position : ∀ before piece after, pieces = before ++ piece :: after →
    piece.2.position = start.advanceAll (weave before ++ piece.1)

/-- The rows of a token list never decrease. -/
def RowsSorted (ts : List Token) : Prop :=
  ts.Pairwise fun t u => t.position.row ≤ u.position.row

/-- Of two tokens the later one stands on no earlier row. -/
theorem RowsSorted.row_le {ts : List Token} {i j : Nat} {t u : Token} (h : RowsSorted ts)
    (hij : i ≤ j) (ht : ts[i]? = some t) (hu : ts[j]? = some u) :
    t.position.row ≤ u.position.row := by
  obtain ⟨hi, rfl⟩ := List.getElem?_eq_some_iff.mp ht
  obtain ⟨hj, rfl⟩ := List.getElem?_eq_some_iff.mp hu
  rcases Nat.eq_or_lt_of_le hij with rfl | hlt
  · exact Nat.le_refl _
  · exact List.pairwise_iff_getElem.mp h i j hi hj hlt

namespace Tiling

variable {start : Position} {gap : List Char} {t : Token} {pieces : List (List Char × Token)}

/-- The empty text has no tokens. -/
theorem nil : Tiling start [] where
  gap := by simp
  nonempty := by simp
  position before piece after h := by simp at h

/-- One more token in front moves the start of the others behind itself. -/
theorem cons (hgap : Gap gap) (hne : t.lexeme ≠ "") (hpos : t.position = start.advanceAll gap)
    (h : Tiling (start.advanceAll (gap ++ t.lexeme.toList)) pieces) :
    Tiling start ((gap, t) :: pieces) where
  gap := List.forall_mem_cons.mpr ⟨hgap, h.gap⟩
  nonempty := List.forall_mem_cons.mpr ⟨hne, h.nonempty⟩
  position before piece after heq := by
    -- The token in question is the new one, or it stands behind the new one.
    cases before with
    | nil =>
      cases heq
      exact hpos
    | cons first before =>
      rw [List.cons_append] at heq
      obtain ⟨rfl, hrest⟩ := List.cons.inj heq
      rw [h.position before piece after hrest, ← Position.advanceAll_append, weave_cons,
        List.append_assoc _ (weave before)]

/-- One token less in front moves the start of the others behind it. -/
theorem tail (h : Tiling start ((gap, t) :: pieces)) :
    Tiling (start.advanceAll (gap ++ t.lexeme.toList)) pieces where
  gap := (List.forall_mem_cons.mp h.gap).2
  nonempty := (List.forall_mem_cons.mp h.nonempty).2
  position before piece after heq := by
    rw [h.position ((gap, t) :: before) piece after (by rw [heq, List.cons_append]), weave_cons,
      List.append_assoc _ (weave before), Position.advanceAll_append]

/-- No token stands above the row that the text begins on. -/
theorem row_le (h : Tiling start pieces) : ∀ piece ∈ pieces, start.row ≤ piece.2.position.row := by
  intro piece hpiece
  obtain ⟨before, after, heq⟩ := List.append_of_mem hpiece
  rw [h.position before piece after heq, Position.row_advanceAll]
  exact Nat.le_add_right _ _

/-- No token stands above the row of a token before it. The induction moves the start of the text
behind the first token. -/
theorem rows_sorted (h : Tiling start pieces) : RowsSorted (pieces.map Prod.snd) := by
  induction pieces generalizing start with
  | nil => exact .nil
  | cons piece pieces ih =>
    obtain ⟨gap, t⟩ := piece
    -- The text behind the first token begins on the row of that token or below it.
    have hfirst : t.position.row ≤ (start.advanceAll (gap ++ t.lexeme.toList)).row := by
      rw [h.position [] (gap, t) pieces rfl, weave_nil, List.nil_append,
        Position.advanceAll_append, Position.row_advanceAll _ t.lexeme.toList]
      exact Nat.le_add_right _ _
    rw [List.map_cons, RowsSorted, List.pairwise_cons]
    constructor
    · intro u hu
      obtain ⟨piece, hpiece, rfl⟩ := List.mem_map.mp hu
      exact Nat.le_trans hfirst (h.tail.row_le piece hpiece)
    · exact ih h.tail

end Tiling

/-- The tokens, each at its place behind a gap, take the front of the text `cs` that begins at
`p`, and `rest` is left of it. -/
def Leaves (p : Position) (cs : List Char) (tokens : List Token) (rest : List Char) : Prop :=
  ∃ pieces, pieces.map Prod.snd = tokens ∧ weave pieces ++ rest = cs ∧ Tiling p pieces

variable {p : Position} {cs gap rest : List Char} {t : Token} {tokens : List Token}

/-- No token takes nothing. -/
theorem leaves_nil_iff : Leaves p cs [] rest ↔ rest = cs := by
  constructor
  · rintro ⟨pieces, hpieces, htext, -⟩
    rw [List.map_eq_nil_iff.mp hpieces] at htext
    exact htext
  · rintro rfl
    exact ⟨[], rfl, rfl, .nil⟩

/-- A token behind its gap takes itself and the gap off the text. What it leaves does not depend
on how the text is cut, because the place of the token says where the gap ends. -/
theorem leaves_cons_iff (hgap : Gap gap) (hne : t.lexeme ≠ "")
    (hpos : t.position = p.advanceAll gap) :
    Leaves p (gap ++ t.lexeme.toList ++ cs) (t :: tokens) rest ↔
      Leaves (p.advanceAll (gap ++ t.lexeme.toList)) cs tokens rest := by
  constructor
  · rintro ⟨pieces, hpieces, htext, htiling⟩
    obtain ⟨⟨gap', t'⟩, pieces, rfl, rfl, rfl⟩ := List.map_eq_cons_iff.mp hpieces
    rw [weave_cons, List.append_assoc, List.append_assoc] at htext
    -- Both gaps are fronts of one text that lead to the same place, so they are the same.
    have hsame : gap' = gap := by
      have hplace := htiling.position [] (gap', t') pieces rfl
      rw [weave_nil, List.nil_append, hpos] at hplace
      refine Position.eq_of_prefix ⟨_, htext⟩ ⟨t'.lexeme.toList ++ cs, ?_⟩ hplace.symm
      rw [List.append_assoc]
    subst hsame
    rw [List.append_assoc, List.append_cancel_left_eq, List.append_cancel_left_eq] at htext
    exact ⟨pieces, rfl, htext, htiling.tail⟩
  · rintro ⟨pieces, hpieces, htext, htiling⟩
    refine ⟨(gap, t) :: pieces, by rw [List.map_cons, hpieces], ?_, .cons hgap hne hpos htiling⟩
    rw [weave_cons, List.append_assoc, htext]

/-- What is left of the front of a text is followed by the rest of the text. -/
theorem leaves_append_iff {v : List Char} :
    Leaves p cs tokens (rest ++ v) ↔ ∃ u, cs = u ++ v ∧ Leaves p u tokens rest := by
  constructor
  · rintro ⟨pieces, hpieces, rfl, htiling⟩
    exact ⟨weave pieces ++ rest, by rw [List.append_assoc], pieces, hpieces, rfl, htiling⟩
  · rintro ⟨_, rfl, pieces, hpieces, rfl, htiling⟩
    exact ⟨pieces, hpieces, by rw [List.append_assoc], htiling⟩

namespace Lexer

variable {c : Char} {r : List Char} {s : Scanned}

/-- The text in front of which a token is read is the gap, the token and the text behind it. -/
theorem append_of_token (hsplit : Trivia.split cs = (gap, c :: r)) (hs : scanToken c r = .ok s) :
    gap ++ s.lexeme ++ s.rest = cs := by
  have happend := Trivia.split_append cs
  rw [hsplit, ← (scanToken_splits hs).append, ← List.append_assoc] at happend
  exact happend

/-- What the tokens of a run leave of its text is what the tokens behind the first one leave of
the text behind it. -/
theorem leaves_token_iff (hsplit : Trivia.split cs = (gap, c :: r)) (hs : scanToken c r = .ok s) :
    Leaves p cs (tokenBehind p gap s :: tokens) rest ↔
      Leaves (behind p gap s).position (behind p gap s).rest tokens rest := by
  have hgap : Gap gap := by
    have h := (Trivia.split_spec cs).2
    rw [hsplit] at h
    exact h (List.cons_ne_nil c r)
  have hlexeme : (tokenBehind p gap s).lexeme.toList = s.lexeme := String.toList_ofList
  have hne : (tokenBehind p gap s).lexeme ≠ "" := by
    intro hempty
    rw [hempty] at hlexeme
    exact (scanToken_splits hs).nonempty hlexeme.symm
  rw [← append_of_token hsplit hs, ← hlexeme, leaves_cons_iff hgap hne rfl,
    Position.advanceAll_append, hlexeme]
  rfl

/-- A run leaves something of its text, and nothing but trivia if it ends well. -/
theorem exists_leaves (cs : List Char) (p : Position) :
    ∃ rest, Leaves p cs (run ⟨cs, p⟩).tokens rest ∧
      ((run ⟨cs, p⟩).failure = none → FinalGap rest) := by
  refine run_induction (motive := fun lx run => ∃ rest,
    Leaves lx.position lx.rest run.tokens rest ∧ (run.failure = none → FinalGap rest))
    ?_ ?_ ?_ cs p
  · -- Nothing but trivia is left, and that is the last gap.
    intro cs p gap hsplit
    have hfinal := (Trivia.split_spec cs).1
    have happend := Trivia.split_append cs
    rw [hsplit] at hfinal happend
    rw [List.append_nil] at happend
    exact ⟨cs, leaves_nil_iff.mpr rfl, fun _ => happend ▸ hfinal⟩
  · -- The first token leaves what the tokens behind it leave.
    intro cs p gap c r s hsplit hs ih
    obtain ⟨rest, hleaves, hfinal⟩ := ih
    exact ⟨rest, (leaves_token_iff hsplit hs).mpr hleaves, hfinal⟩
  · -- A fault takes no token, and the whole text is left.
    intro cs p gap c r f hsplit hf
    exact ⟨cs, leaves_nil_iff.mpr rfl, fun h => by cases h⟩

end Lexer

namespace Position

/-- The place after a text, from its last character on: rows count the newlines, and the column
counts the characters up to the first newline met. -/
theorem advanceAll_origin_reverse (ds : List Char) :
    origin.advanceAll ds.reverse =
      ⟨ds.count '\n', (ds.takeWhile fun c => c != '\n').length⟩ := by
  induction ds with
  | nil => rfl
  | cons c ds ih =>
    rw [List.reverse_cons, advanceAll_append, ih, advanceAll_cons, advanceAll_nil, advance]
    -- A newline begins a row, so the columns before it are forgotten.
    by_cases hc : c = '\n'
    · rw [if_pos hc, hc, List.count_cons_self, List.takeWhile_cons_of_neg (by simp)]
      rfl
    · rw [if_neg hc, List.count_cons_of_ne hc, List.takeWhile_cons_of_pos (by simp [hc])]
      rfl

/-- The place after a text: as many rows as it has newlines, and as many columns as characters
stand behind the last one. -/
theorem advanceAll_origin (cs : List Char) :
    origin.advanceAll cs =
      ⟨cs.count '\n', (cs.reverse.takeWhile fun c => c != '\n').length⟩ := by
  have h := advanceAll_origin_reverse cs.reverse
  rwa [List.reverse_reverse, List.count_reverse] at h

end Position

/-- The rows of the tokens of a source never decrease. -/
theorem rows_sorted_of_tokenize {source : String} {tokens : List Token}
    (h : tokenize source = .ok tokens) : RowsSorted tokens := by
  obtain ⟨-, rfl⟩ := Lexer.tokenize_eq_ok_iff.mp h
  obtain ⟨_, ⟨pieces, htokens, -, htiling⟩, -⟩ := Lexer.exists_leaves source.toList .origin
  have hsorted := htiling.rows_sorted
  rwa [htokens] at hsorted

/-- Lexing loses nothing. A source that can be lexed is its tokens, each behind a gap, and one
last gap; no token is empty, the gaps are trivia, and a token's place counts the newlines before
it and the characters behind the last of them. -/
theorem tokenize_lossless {source : String} {tokens : List Token}
    (h : tokenize source = .ok tokens) :
    ∃ pieces last, pieces.map Prod.snd = tokens ∧ weave pieces ++ last = source.toList ∧
      (∀ piece ∈ pieces, Gap piece.1 ∧ piece.2.lexeme ≠ "") ∧ FinalGap last ∧
      ∀ before piece after, pieces = before ++ piece :: after →
        piece.2.position = ⟨(weave before ++ piece.1).count '\n',
          ((weave before ++ piece.1).reverse.takeWhile fun c => c != '\n').length⟩ := by
  obtain ⟨last, ⟨pieces, htokens, htext, htiling⟩, hlast⟩ :=
    Lexer.exists_leaves source.toList .origin
  obtain ⟨hgood, rfl⟩ := Lexer.tokenize_eq_ok_iff.mp h
  refine ⟨pieces, last, htokens, htext, fun piece hpiece => ?_, hlast hgood, ?_⟩
  · exact ⟨htiling.gap piece hpiece, htiling.nonempty piece hpiece⟩
  · intro before piece after heq
    rw [htiling.position before piece after heq, Position.advanceAll_origin]

/-- A block comment keeps two words apart, and an open line comment is the last gap. -/
theorem tokenize_lossless_comments :
    ∃ pieces last, pieces.map Prod.snd =
        [⟨.tyInt, "int", ⟨0, 0⟩⟩, ⟨.identifier, "x", ⟨1, 2⟩⟩, ⟨.semi, ";", ⟨1, 3⟩⟩] ∧
      weave pieces ++ last = "int/*\n*/x;//".toList ∧ FinalGap last := by
  have h : tokenize "int/*\n*/x;//" =
      .ok [⟨.tyInt, "int", ⟨0, 0⟩⟩, ⟨.identifier, "x", ⟨1, 2⟩⟩, ⟨.semi, ";", ⟨1, 3⟩⟩] :=
    Lexer.tokenize_eq_ok_iff.mpr (by decide +kernel)
  obtain ⟨pieces, last, htokens, htext, -, hlast, -⟩ := tokenize_lossless h
  exact ⟨pieces, last, htokens, htext, hlast⟩

end LooseC
