import LooseC.Proofs.Lexing.Rescan
import LooseC.Proofs.Lexing.Tiling

/-!
# Where lexing fails

The texts at whose front no token can be read, said without the readers: `NoToken text failure`.
No token begins with the first character, or a literal is left open, or a character literal holds
too much. Each comes with its fault and with the characters that stand before the place of the
fault: all of the text if it ended too early, else those in front of the offending character.

`scanToken_eq_error_iff` says that the readers fail on these texts and on no others. A whole source
is then not lexed exactly if such a text stands in it behind tokens and closed trivia
(`tokenize_error_iff`). The split is unique, because the tokens are those of the run, the trivia is
split off whole, and no such text begins with trivia.
-/

set_option autoImplicit false

namespace LooseC

variable {c : Char} {cs gap r rest v : List Char} {p : Position} {f : ScanFailure} {e : LexError}
  {tokens : List Token}

/-! ### The characters that begin something -/

/-- The separators, the brackets and the signs of the operators. -/
def signs : List Char :=
  [';', ':', ',', '.', '(', ')', '[', ']', '\x7b', '\x7d', '+', '-', '&', '|', '*', '/', '%', '=',
    '!', '<', '>']

/-- The characters that may stand at the front of a token or of trivia. -/
def Recognized (c : Char) : Prop :=
  isBlank c = true ∨ isAlphabetic c = true ∨ c = '_' ∨ c.isDigit = true ∨ c = '\'' ∨ c = '"' ∨
    c = '#' ∨ c ∈ signs

/-- The signs are the marks and the characters that begin an operator. -/
theorem mem_signs_iff : c ∈ signs ↔ markKind? c ≠ none ∨ operatorForms? c ≠ none := by
  rw [← Option.isSome_iff_ne_none, ← Option.isSome_iff_ne_none, markKind?, operatorForms?,
    List.lookup_isSome_iff, List.lookup_isSome_iff]
  simp [signs, or_assoc]

/-! ### Texts that begin with no token -/

/-- No token can be read at the front of the text. The failure has the characters that stand
before the place of the fault: the whole text if the text ended too early. -/
inductive NoToken : List Char → ScanFailure → Prop where
  /-- Nothing begins with the first character. -/
  | unrecognized {c : Char} {r : List Char} (hc : ¬ Recognized c) :
      NoToken (c :: r) ⟨.unrecognized c, []⟩
  /-- Nothing closes the string literal. -/
  | unfinishedString {r : List Char} (hopen : ¬ ClosesString r) :
      NoToken ('"' :: r) ⟨.unfinished .string, '"' :: r⟩
  /-- The text ends behind the body of a character literal, or within it, or in front of it. -/
  | unfinishedChar {r body : List Char} (hbody : CharBody body) (hr : r <+: body) :
      NoToken ('\'' :: r) ⟨.unfinished .char, '\'' :: r⟩
  /-- Another character stands in the place of the closing quote. -/
  | unclosedChar {c : Char} {body rest : List Char} (hbody : CharBody body) (hc : c ≠ '\'') :
      NoToken ('\'' :: (body ++ c :: rest)) ⟨.unclosedChar c, '\'' :: body⟩

/-- The quotes are recognized, whatever they begin. -/
theorem recognized_of_quote (h : c = '\'' ∨ c = '"') : Recognized c := by
  rcases h with rfl | rfl <;> simp [Recognized]

/-- Such a text is not empty, and no trivia stands at its front. -/
theorem NoToken.front (h : NoToken v f) : v ≠ [] ∧ Trivia.piece? v = none := by
  -- White space is recognized, and so is the slash of a comment.
  have hrecognized {c : Char} {r : List Char} (hc : ¬ isBlank c = true) (hslash : c ≠ '/') :
      Trivia.piece? (c :: r) = none := by
    rw [Trivia.piece?, if_neg hc]
    cases r with
    | nil => rfl
    | cons d r => exact comment?_eq_none_iff.mpr ⟨fun h => hslash h.1, fun h => hslash h.1⟩
  cases h with
  | unrecognized hc =>
    refine ⟨List.cons_ne_nil _ _, hrecognized (fun hblank => hc (.inl hblank)) ?_⟩
    rintro rfl
    exact hc (by simp [Recognized, signs])
  | unfinishedString => exact ⟨List.cons_ne_nil _ _, hrecognized (by decide) (by decide)⟩
  | unfinishedChar => exact ⟨List.cons_ne_nil _ _, hrecognized (by decide) (by decide)⟩
  | unclosedChar => exact ⟨List.cons_ne_nil _ _, hrecognized (by decide) (by decide)⟩

/-- What begins with no quote is no token only for its first character. -/
theorem noToken_cons_iff (hchar : c ≠ '\'') (hstring : c ≠ '"') :
    NoToken (c :: r) f ↔ ¬ Recognized c ∧ f = ⟨.unrecognized c, []⟩ := by
  constructor
  · intro h
    cases h with
    | unrecognized hc => exact ⟨hc, rfl⟩
    | unfinishedString => exact absurd rfl hstring
    | unfinishedChar => exact absurd rfl hchar
    | unclosedChar => exact absurd rfl hchar
  · rintro ⟨hc, rfl⟩
    exact .unrecognized hc

/-! ### The readers fail on these texts alone -/

/-- The reader of string literals fails exactly if nothing closes the literal. -/
theorem scanString_eq_error_iff : scanString r = .error f ↔ NoToken ('"' :: r) f := by
  constructor
  · intro h
    unfold scanString at h
    split at h
    · rename_i hbody
      cases h
      exact .unfinishedString (stringBody?_eq_none_iff.mp hbody)
    · cases h
  · intro h
    cases h with
    | unrecognized hc => exact absurd (recognized_of_quote (.inr rfl)) hc
    | unfinishedString hopen => rw [scanString, stringBody?_eq_none_iff.mpr hopen]

/-- The reader of character literals fails if the text ends too early or the quote is not there. -/
theorem scanChar_eq_error_iff : scanChar r = .error f ↔ NoToken ('\'' :: r) f := by
  constructor
  · intro h
    unfold scanChar at h
    split at h
    · rename_i hbody
      cases h
      -- The text ends in front of the body or within it.
      rcases charBody?_eq_none_iff.mp hbody with rfl | rfl
      · exact .unfinishedChar (.escaped (c := 'n')) List.nil_prefix
      · exact .unfinishedChar (.escaped (c := 'n')) ⟨['n'], rfl⟩
    · rename_i body hbody
      cases h
      have hr := append_of_charBody? hbody
      rw [List.append_nil] at hr
      subst hr
      exact .unfinishedChar (charBody?_eq_some_iff.mp hbody).1 List.prefix_rfl
    · rename_i body c rest hbody
      split at h
      · cases h
      · rename_i hc
        cases h
        rw [← append_of_charBody? hbody]
        exact .unclosedChar (charBody?_eq_some_iff.mp hbody).1 hc
  · intro h
    cases h with
    | unrecognized hc => exact absurd (recognized_of_quote (.inl rfl)) hc
    | unfinishedChar hbody hr =>
      rw [scanChar]
      rcases charBody?_of_prefix hbody hr with hnone | hsome
      · rw [hnone]
      · rw [hsome]
    | @unclosedChar c body rest hbody hc =>
      rw [scanChar, charBody?_eq_some_iff.mpr ⟨hbody, rfl⟩]
      exact if_neg hc

/-- Nothing can be read that begins with a character that is not recognized. -/
theorem scanToken_of_not_recognized (hc : ¬ Recognized c) :
    scanToken c r = .error ⟨.unrecognized c, []⟩ := by
  simp only [Recognized, mem_signs_iff, not_or, Classical.not_not] at hc
  obtain ⟨-, halpha, hunder, hdigit, hchar, hstring, hhash, hmark, hforms⟩ := hc
  have hword : ¬ isWordStart c = true := by
    rw [isWordStart, Bool.or_eq_true, beq_iff_eq]
    exact not_or.mpr ⟨halpha, hunder⟩
  rw [scanToken, hmark, hforms]
  dsimp only
  rw [if_neg hhash, if_neg hdigit, if_neg hchar, if_neg hstring, if_neg hword]

/-- Of the characters that are recognized, only the quotes begin something that can fail. -/
theorem exists_scanToken (hc : Recognized c) (hblank : ¬ isBlank c = true) (hchar : c ≠ '\'')
    (hstring : c ≠ '"') (r : List Char) : ∃ s, scanToken c r = .ok s := by
  unfold scanToken
  split
  · exact ⟨_, rfl⟩
  · exact ⟨_, rfl⟩
  · rename_i hmark hforms
    split
    · exact ⟨_, rfl⟩
    · rename_i hhash
      split
      · exact ⟨_, rfl⟩
      · rename_i hdigit
        -- Nothing is left but the front of a word.
        have hword : isWordStart c = true := by
          simpa [isWordStart, Recognized, mem_signs_iff, hblank, hdigit, hchar, hstring, hhash,
            hmark, hforms] using hc
        exact ⟨scanWord c r, if_pos hword⟩

/-- Where no trivia stands, no token can be read exactly from these texts. -/
theorem scanToken_eq_error_iff (htrivia : Trivia.piece? (c :: r) = none) :
    scanToken c r = .error f ↔ NoToken (c :: r) f := by
  by_cases hchar : c = '\''
  · subst hchar
    exact scanChar_eq_error_iff
  by_cases hstring : c = '"'
  · subst hstring
    exact scanString_eq_error_iff
  -- Behind the quotes only the first character matters.
  rw [noToken_cons_iff hchar hstring]
  by_cases hc : Recognized c
  · have hblank : ¬ isBlank c = true := by
      intro hblank
      rw [Trivia.piece?, if_pos hblank] at htrivia
      cases htrivia
    obtain ⟨s, hs⟩ := exists_scanToken hc hblank hchar hstring r
    rw [hs]
    simp [hc]
  · rw [scanToken_of_not_recognized hc]
    simp [hc, eq_comm]

/-! ### Whole texts -/

/-- A text that begins at `p` is its tokens, closed trivia, and then a text that begins with no
token, at whose fault the error `e` is placed. -/
def Fails (p : Position) (cs : List Char) (tokens : List Token) (e : LexError) : Prop :=
  ∃ u v gap f, cs = u ++ v ∧ Leaves p u tokens gap ∧ Gap gap ∧ NoToken v f ∧
    e = ⟨f.fault, p.advanceAll (u ++ f.passed)⟩

/-- Without a token, a text fails behind the trivia at its front or not at all. -/
theorem fails_nil_iff (hsplit : Trivia.split cs = (gap, v)) :
    Fails p cs [] e ↔ ∃ f, NoToken v f ∧ e = ⟨f.fault, p.advanceAll (gap ++ f.passed)⟩ := by
  constructor
  · rintro ⟨u, w, gap', f, rfl, hleaves, hgap, hw, rfl⟩
    rw [leaves_nil_iff] at hleaves
    subst hleaves
    rw [Trivia.split_gap_append hgap hw.front.2] at hsplit
    cases hsplit
    exact ⟨f, hw, rfl⟩
  · rintro ⟨f, hv, rfl⟩
    have happend := Trivia.split_append cs
    have hgap := (Trivia.split_spec cs).2
    rw [hsplit] at happend hgap
    exact ⟨gap, v, gap, f, happend.symm, leaves_nil_iff.mpr rfl, hgap hv.front.1, hv, rfl⟩

namespace Lexer

variable {s : Scanned}

/-- Behind its first token a text fails as it does with it. -/
theorem fails_token_iff (hsplit : Trivia.split cs = (gap, c :: r)) (hs : scanToken c r = .ok s) :
    Fails p cs (tokenBehind p gap s :: tokens) e ↔
      Fails (behind p gap s).position (behind p gap s).rest tokens e := by
  have happend := append_of_token hsplit hs
  -- Both split their texts in front of the same text, so the first parts differ by the token.
  have hsame {u u' v : List Char} (hu : cs = u ++ v) (hu' : (behind p gap s).rest = u' ++ v) :
      u = gap ++ s.lexeme ++ u' := by
    have htext : s.rest = u' ++ v := hu'
    rw [htext, hu, ← List.append_assoc] at happend
    exact (List.append_cancel_right happend).symm
  have hplace (u' : List Char) : p.advanceAll (gap ++ s.lexeme ++ u') =
      (behind p gap s).position.advanceAll u' := by
    rw [Position.advanceAll_append, Position.advanceAll_append]
    rfl
  constructor
  · rintro ⟨u, v, gap', f, hu, hleaves, hgap, hv, rfl⟩
    have hrest := (leaves_token_iff hsplit hs).mp (leaves_append_iff.mpr ⟨u, hu, hleaves⟩)
    obtain ⟨u', hu', hleaves'⟩ := leaves_append_iff.mp hrest
    refine ⟨u', v, gap', f, hu', hleaves', hgap, hv, ?_⟩
    rw [hsame hu hu', List.append_assoc, hplace]
  · rintro ⟨u', v, gap', f, hu', hleaves', hgap, hv, rfl⟩
    have hrest := (leaves_token_iff hsplit hs).mpr (leaves_append_iff.mpr ⟨u', hu', hleaves'⟩)
    obtain ⟨u, hu, hleaves⟩ := leaves_append_iff.mp hrest
    refine ⟨u, v, gap', f, hu, hleaves, hgap, hv, ?_⟩
    rw [hsame hu hu', List.append_assoc, hplace]

/-- A run fails exactly where its tokens and closed trivia stand in front of a text that begins
with no token. -/
theorem run_failure_eq_some_iff (cs : List Char) (p : Position) :
    (run ⟨cs, p⟩).failure = some e ↔ Fails p cs (run ⟨cs, p⟩).tokens e := by
  refine run_induction (motive := fun lx out =>
    out.failure = some e ↔ Fails lx.position lx.rest out.tokens e) ?_ ?_ ?_ cs p
  · intro cs p gap hsplit
    rw [fails_nil_iff hsplit]
    constructor
    · intro h
      cases h
    · rintro ⟨f, hv, -⟩
      exact absurd rfl hv.front.1
  · intro cs p gap c r s hsplit hs ih
    exact ih.trans (fails_token_iff hsplit hs).symm
  · intro cs p gap c r f hsplit hf
    have htrivia := Trivia.piece?_split cs
    rw [hsplit] at htrivia
    rw [fails_nil_iff hsplit]
    constructor
    · intro h
      cases h
      exact ⟨f, (scanToken_eq_error_iff htrivia).mp hf, by rw [Position.advanceAll_append]⟩
    · rintro ⟨f', hv, rfl⟩
      -- The reader has one failure.
      rw [← scanToken_eq_error_iff htrivia, hf] at hv
      cases hv
      rw [Position.advanceAll_append]

end Lexer

/-- A source is not lexed exactly if it is the tokens of its run, closed trivia, and then a text
that begins with no token; and the error is the fault of that text, at its place. -/
theorem tokenize_error_iff {source : String} {e : LexError} :
    tokenize source = .error e ↔
      ∃ u v gap f, source.toList = u ++ v ∧
        Leaves .origin u (Lexer.ofSource source).run.tokens gap ∧ Gap gap ∧ NoToken v f ∧
        e = ⟨f.fault, Position.origin.advanceAll (u ++ f.passed)⟩ := by
  rw [Lexer.tokenize_eq_error_iff]
  exact Lexer.run_failure_eq_some_iff source.toList .origin

example : tokenize "x/*\n*/'ab'" = .error ⟨.unclosedChar 'b', ⟨1, 4⟩⟩ :=
  Lexer.tokenize_eq_error_iff.mpr (by decide +kernel)

end LooseC
