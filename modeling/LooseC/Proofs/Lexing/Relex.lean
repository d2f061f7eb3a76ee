import LooseC.Proofs.Lexing.Rescan
import LooseC.Proofs.Lexing.Tiling
import LooseC.Snapshot.Basic
import LooseC.Tree.Walk

/-!
# Lexing what was printed

Tokens that were lexed once, from whatever sources, are lexed again from any text in which gaps
that begin with white space keep them apart (`Separated`). `Lexer.run_weave` is the induction
over the tokens, and `relex` is the statement about sources: kinds and lexemes come back, in
order. The text of a node is such a text, so it lexes into the tokens of the node.
-/

set_option autoImplicit false

namespace LooseC

/-- Lexing some source yields the token, perhaps before an error. -/
def Lexed (t : Token) : Prop := ∃ source, t ∈ (Lexer.ofSource source).run.tokens

/-- What a token is apart from its place. -/
def Token.spelling (t : Token) : TokenKind × String := (t.kind, t.lexeme)

/-- The gaps keep the tokens apart: all of them are trivia, and each but the first begins with
white space. Nothing need follow the last token. -/
structure Separated (pieces : List (List Char × Token)) (last : List Char) : Prop where
  gap : ∀ piece ∈ pieces, Gap piece.1
  gapLast : Gap last
  blank : ∀ piece ∈ pieces.tail, StartsBlank piece.1
  blankLast : pieces ≠ [] → last ≠ [] → StartsBlank last

/-- A token that some source yields is read off some text that begins with no trivia. -/
theorem Lexed.scanned {t : Token} (h : Lexed t) :
    ∃ c r s, Trivia.piece? (c :: r) = none ∧ scanToken c r = .ok s ∧ t.kind = s.kind ∧
      t.lexeme = String.ofList s.lexeme := by
  obtain ⟨source, hmem⟩ := h
  revert hmem
  refine Lexer.run_induction (motive := fun _ run => t ∈ run.tokens → _) ?_ ?_ ?_ source.toList
    .origin
  · intro cs p gap _ hmem
    cases hmem
  · -- Behind the trivia that was split off stands no further trivia.
    intro cs p gap c r s hsplit hs ih hmem
    rcases List.mem_cons.mp hmem with rfl | hlater
    · have hpiece := Trivia.piece?_split cs
      rw [hsplit] at hpiece
      exact ⟨c, r, s, hpiece, hs, rfl, rfl⟩
    · exact ih hlater
  · intro cs p gap c r f _ _ hmem
    cases hmem

namespace Separated

variable {piece : List Char × Token} {pieces : List (List Char × Token)} {last : List Char}

/-- Without the first token the others are kept apart as before. -/
theorem tail (h : Separated (piece :: pieces) last) : Separated pieces last where
  gap := (List.forall_mem_cons.mp h.gap).2
  gapLast := h.gapLast
  blank p hp := h.blank p (List.mem_of_mem_tail hp)
  blankLast _ := h.blankLast (List.cons_ne_nil _ _)

/-- Behind the first token stands white space, or nothing. -/
theorem stops (h : Separated (piece :: pieces) last) : Stops (weave pieces ++ last) := by
  cases pieces with
  | nil =>
    rw [weave_nil, List.nil_append]
    cases hlast : last with
    | nil => exact stops_nil
    | cons c r => exact hlast ▸ (h.blankLast (List.cons_ne_nil _ _) (by rw [hlast]; simp)).stops
  | cons second pieces =>
    obtain ⟨gap, t⟩ := second
    obtain ⟨c, r, rfl, hc⟩ := h.blank (gap, t) List.mem_cons_self
    exact StartsBlank.stops ⟨c, r ++ t.lexeme.toList ++ weave pieces ++ last, rfl, hc⟩

end Separated

/-- Tokens that gaps keep apart are lexed one by one. The induction is over the tokens. -/
theorem Lexer.run_weave {pieces : List (List Char × Token)} {last : List Char}
    (hlexed : ∀ piece ∈ pieces, Lexed piece.2) (hsep : Separated pieces last) (p : Position) :
    (run ⟨weave pieces ++ last, p⟩).failure = none ∧
      (run ⟨weave pieces ++ last, p⟩).tokens.map Token.spelling =
        pieces.map fun piece => piece.2.spelling := by
  induction pieces generalizing p with
  | nil =>
    -- The last gap is all trivia, and it is closed, so the run ends well.
    have hsplit : Trivia.split (last ++ []) = (last, []) :=
      Trivia.split_gap_append hsep.gapLast rfl
    rw [List.append_nil] at hsplit
    rw [weave_nil, List.nil_append, run_of_end hsplit]
    exact ⟨rfl, rfl⟩
  | cons piece pieces ih =>
    obtain ⟨gap, t⟩ := piece
    obtain ⟨ht, hlater⟩ := List.forall_mem_cons.mp hlexed
    obtain ⟨c, r, s, htrivia, hs, hkind, hlexeme⟩ := ht.scanned
    have hgap := hsep.gap (gap, t) List.mem_cons_self
    have hchars : t.lexeme.toList = s.lexeme := by rw [hlexeme, String.toList_ofList]
    obtain ⟨hcons, -⟩ := lexeme_eq_cons hs
    have hends := hsep.stops.endsLike s.rest
    -- The gap is split off, and then the token is read off its own characters.
    have hsplit : Trivia.split (weave ((gap, t) :: pieces) ++ last) =
        (gap, c :: (s.lexeme.tail ++ (weave pieces ++ last))) := by
      have hnone := piece?_lexeme_append htrivia hs hends
      rw [weave_cons, hchars, List.append_assoc, List.append_assoc,
        Trivia.split_gap_append hgap hnone, ← List.cons_append, ← hcons]
    rw [run_of_token hsplit (rescan hs hends)]
    obtain ⟨hfailure, htokens⟩ := ih hlater hsep.tail (behind p gap (s.before _)).position
    refine ⟨hfailure, ?_⟩
    rw [List.map_cons, List.map_cons, ← htokens]
    refine congrArg (· :: _) ?_
    rw [Token.spelling, Token.spelling, hkind, hlexeme]
    rfl

/-- A text in which gaps keep lexed tokens apart is lexed into tokens of the same kinds and
lexemes. -/
theorem exists_tokenize_weave {pieces : List (List Char × Token)} {last : List Char}
    (hlexed : ∀ piece ∈ pieces, Lexed piece.2) (hsep : Separated pieces last) :
    ∃ tokens, tokenize (String.ofList (weave pieces ++ last)) = .ok tokens ∧
      tokens.map Token.spelling = pieces.map fun piece => piece.2.spelling := by
  obtain ⟨hfailure, htokens⟩ := Lexer.run_weave hlexed hsep .origin
  have hsource : Lexer.ofSource (String.ofList (weave pieces ++ last)) =
      ⟨weave pieces ++ last, .origin⟩ := by
    rw [Lexer.ofSource, Lexer.ofChars, String.toList_ofList]
  refine ⟨_, Lexer.tokenize_eq_ok_iff.mpr ⟨?_, rfl⟩, ?_⟩
  · rw [hsource, hfailure]
  · rw [hsource, htokens]

/-! ### The text of a node -/

/-- Tokens with one space between each two. -/
def spaced : List Token → List (List Char × Token)
  | [] => []
  | t :: ts => ([], t) :: ts.map fun u => ([' '], u)

/-- Tokens with a space between each two make the text of their lexemes with spaces between. -/
theorem weave_spaced (ts : List Token) :
    weave (spaced ts) = (String.intercalate " " (ts.map Token.lexeme)).toList := by
  cases ts with
  | nil => rw [spaced, weave_nil, List.map_nil, String.intercalate_nil, String.toList_empty]
  | cons t ts =>
    -- The first token is general, since each token is the first of those behind it.
    induction ts generalizing t with
    | nil => simp [spaced]
    | cons u ts ih =>
      have hu := ih u
      rw [spaced, weave_cons, List.nil_append] at hu
      rw [spaced, List.map_cons, weave_cons, weave_cons, List.map_cons, List.map_cons,
        String.intercalate_cons_cons, String.toList_append, String.toList_append, ← List.map_cons,
        ← hu]
      simp

/-- The spaces change no token. -/
theorem map_spelling_spaced (ts : List Token) :
    ((spaced ts).map fun piece => piece.2.spelling) = ts.map Token.spelling := by
  cases ts with
  | nil => rfl
  | cons t ts => simp [spaced]

/-- And they add none. -/
theorem mem_of_mem_spaced {ts : List Token} {piece : List Char × Token}
    (h : piece ∈ spaced ts) : piece.2 ∈ ts := by
  cases ts with
  | nil => cases h
  | cons t ts =>
    rcases List.mem_cons.mp h with rfl | hlater
    · exact List.mem_cons_self
    · obtain ⟨u, hu, rfl⟩ := List.mem_map.mp hlater
      exact List.mem_cons_of_mem t hu

/-- A space keeps two tokens apart. -/
theorem separated_spaced (ts : List Token) : Separated (spaced ts) [] := by
  have hblank : isBlank ' ' = true := by decide
  have hgap : Gap [' '] := .cons (.blank hblank) .nil
  cases ts with
  | nil => exact ⟨nofun, .nil, nofun, fun h => absurd rfl h⟩
  | cons t ts =>
    -- All gaps but the first are one space.
    have hspace : ∀ piece ∈ ts.map fun u => ([' '], u), piece.1 = [' '] := by
      intro piece hpiece
      obtain ⟨u, -, rfl⟩ := List.mem_map.mp hpiece
      rfl
    refine ⟨List.forall_mem_cons.mpr ⟨.nil, fun piece hpiece => ?_⟩, .nil, ?_,
      fun _ h => absurd rfl h⟩
    · rw [hspace piece hpiece]
      exact hgap
    · intro piece hpiece
      exact ⟨' ', [], hspace piece hpiece, hblank⟩

/-- The tokens of a node are tokens of the list. -/
theorem mem_tokens {n : Node} {ts : List Token} {t : Token} (h : t ∈ n.tokens ts) : t ∈ ts := by
  unfold Node.tokens at h
  split at h
  · exact List.mem_of_mem_take (List.mem_of_mem_drop h)
  · cases h

/-- The tokens of a snapshot were lexed from its source. -/
theorem lexed_of_analyze {name source : String} {snap : Snapshot}
    (h : Snapshot.analyze name source = .ok snap) : ∀ t ∈ snap.tokens, Lexed t := by
  obtain ⟨htokens, -⟩ := Snapshot.analyze_eq_ok_iff.mp h
  obtain ⟨-, hrun⟩ := Lexer.tokenize_eq_ok_iff.mp htokens
  exact fun t ht => ⟨source, hrun ▸ ht⟩

/-- Re-lexing undoes printing. Tokens that were lexed once, with gaps between them that begin with
white space, are lexed again; and so is the text of any node of an analysed program. -/
theorem relex :
    (∀ (pieces : List (List Char × Token)) (last : List Char),
      (∀ piece ∈ pieces, Lexed piece.2) → Separated pieces last →
      ∃ tokens, tokenize (String.ofList (weave pieces ++ last)) = .ok tokens ∧
        tokens.map Token.spelling = pieces.map fun piece => piece.2.spelling) ∧
    ∀ (name source : String) (snap : Snapshot), Snapshot.analyze name source = .ok snap →
      ∀ visit ∈ snap.tree.walk,
        ∃ tokens, tokenize (visit.node.text snap.tokens) = .ok tokens ∧
          tokens.map Token.spelling = (visit.node.tokens snap.tokens).map Token.spelling := by
  refine ⟨fun pieces last => exists_tokenize_weave, fun name source snap hsnap visit _ => ?_⟩
  -- The text of a node is its tokens with one space between each two.
  have hlexed : ∀ piece ∈ spaced (visit.node.tokens snap.tokens), Lexed piece.2 := by
    intro piece hpiece
    exact lexed_of_analyze hsnap _ (mem_tokens (mem_of_mem_spaced hpiece))
  obtain ⟨tokens, htokens, hspelling⟩ :=
    exists_tokenize_weave hlexed (separated_spaced (visit.node.tokens snap.tokens))
  refine ⟨tokens, ?_, ?_⟩
  · rw [List.append_nil, weave_spaced, String.ofList_toList] at htokens
    exact htokens
  · rw [hspelling, map_spelling_spaced]

/-- A slash behind a comment stays a slash, and a declaration is printed and lexed. -/
theorem relex_slash :
    (∃ tokens, tokenize (String.ofList "a //b\n/ /**/1".toList) = .ok tokens ∧
      tokens.map Token.spelling =
        [(.identifier, "a"), (.divide, "/"), (.intLiteral, "1")]) ∧
    ∃ snap, Snapshot.analyze "m" "int\nx;" = .ok snap ∧ ∀ visit ∈ snap.tree.walk,
      ∃ tokens, tokenize (visit.node.text snap.tokens) = .ok tokens ∧
        tokens.map Token.spelling =
          (visit.node.tokens snap.tokens).map Token.spelling := by
  constructor
  · have hspace : ClosedTrivia [' '] := .blank (by decide)
    have hline : ClosedTrivia ['/', '/', 'b', '\n'] := @ClosedTrivia.line ['b'] (by decide)
    have hblock : ClosedTrivia ['/', '*', '*', '/'] := @ClosedTrivia.block [] (by simp)
    refine relex.1 [([], ⟨.identifier, "a", .origin⟩),
      ([' ', '/', '/', 'b', '\n'], ⟨.divide, "/", .origin⟩),
      ([' ', '/', '*', '*', '/'], ⟨.intLiteral, "1", .origin⟩)] [] ?_ ⟨?_, .nil, ?_, ?_⟩
    · simp only [List.forall_mem_cons]
      exact ⟨⟨"a", by decide +kernel⟩, ⟨"/", by decide +kernel⟩, ⟨"1", by decide +kernel⟩, nofun⟩
    · simp only [List.forall_mem_cons]
      exact ⟨.nil, .cons hspace (.cons hline .nil), .cons hspace (.cons hblock .nil), nofun⟩
    · simp only [List.tail_cons, List.forall_mem_cons]
      exact ⟨⟨' ', _, rfl, by decide⟩, ⟨' ', _, rfl, by decide⟩, nofun⟩
    · exact fun _ h => absurd rfl h
  · have hsome : (Snapshot.analyze "m" "int\nx;").toOption.isSome = true := by decide +kernel
    cases hsnap : Snapshot.analyze "m" "int\nx;" with
    | error e =>
      rw [hsnap] at hsome
      cases hsome
    | ok snap => exact ⟨snap, rfl, relex.2 "m" "int\nx;" snap hsnap⟩

end LooseC
