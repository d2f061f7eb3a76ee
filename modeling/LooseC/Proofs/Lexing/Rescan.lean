import LooseC.Proofs.Lexing.Gap
import LooseC.Proofs.Lexing.Quoted
import LooseC.Proofs.Lexing.Stop
import LooseC.Token.Scan

/-!
# Reading a token again

A token that was read off one text is read again, the same, off its own characters and any text
in front of which it ends (`EndsLike`). So the kind of a token is a function of its characters,
and nothing behind a token matters but one character.

Each reader has its law here, `rescan_word` and so on; `rescan` puts them together.
`piece?_lexeme_append` is the other half: the characters of a token are not taken for trivia.
`split_rescan` is both at once, for a token and the trivia it stood behind.
-/

set_option autoImplicit false

namespace LooseC

variable {c : Char} {r rest : List Char} {s : Scanned}

/-- The token with another text behind it. -/
def Scanned.before (s : Scanned) (rest : List Char) : Scanned := ⟨s.kind, s.lexeme, rest⟩

/-! ### Words, directives and operators -/

/-- A word is its first character and one run. -/
theorem rescan_word (hrest : EndsLike (scanWord c r).rest rest) :
    scanWord c (r.takeWhile isWordPart ++ rest) = (scanWord c r).before rest := by
  rw [scanWord, takeWhile_append_of_endsLike r runsOver_isWordPart hrest,
    dropWhile_append_of_endsLike r runsOver_isWordPart hrest]
  rfl

/-- A directive is the hash and one run. -/
theorem rescan_directive (hrest : EndsLike (scanDirective r).rest rest) :
    scanDirective (r.takeWhile isDirectivePart ++ rest) = (scanDirective r).before rest := by
  rw [scanDirective, takeWhile_append_of_endsLike r runsOver_isDirectivePart hrest,
    dropWhile_append_of_endsLike r runsOver_isDirectivePart hrest]
  rfl

/-- A character that ends every token extends no operator. -/
theorem extended?_eq_none {forms : OperatorForms} {sign next : Char}
    (hsign : operatorForms? sign = some forms) (hnext : endsToken next = true) :
    forms.extended? sign next = none := by
  -- The equals sign and the sign itself are operator signs, and those end no token.
  have hne {d : Char} (hd : operatorForms? d ≠ none) : next ≠ d := by
    intro heq
    rw [heq, endsToken_eq_false_of_operatorForms? hd] at hnext
    cases hnext
  rw [OperatorForms.extended?, if_neg (hne (by decide)), if_neg (hne (by rw [hsign]; simp))]

/-- A sign stays alone in front of a text that does not extend it. -/
theorem scan_bare {forms : OperatorForms}
    (h : ∀ d ∈ rest.head?, forms.extended? c d = none) :
    forms.scan c rest = ⟨forms.bare, [c], rest⟩ := by
  cases rest with
  | nil => rfl
  | cons d rest => rw [OperatorForms.scan, h d rfl]

/-- A sign reads the same again, alone or extended by the next character. -/
theorem rescan_operator {forms : OperatorForms} (hsign : operatorForms? c = some forms)
    (hrest : EndsLike (forms.scan c r).rest rest) :
    forms.scan c ((forms.scan c r).lexeme.tail ++ rest) = (forms.scan c r).before rest := by
  -- At the end of the input the sign stood alone. Otherwise it depends on the next character.
  cases r with
  | nil =>
    refine scan_bare fun d hd => ?_
    rcases hrest d hd with hends | hsame
    · exact extended?_eq_none hsign hends
    · cases hsame
  | cons d r =>
    rw [OperatorForms.scan] at hrest ⊢
    cases hd : forms.extended? c d with
    | none =>
      rw [hd] at hrest
      refine scan_bare fun e he => ?_
      -- What stood behind the sign before did not extend it either.
      rcases hrest e he with hends | hsame
      · exact extended?_eq_none hsign hends
      · cases hsame
        exact hd
    | some kind =>
      show forms.scan c (d :: rest) = ⟨kind, [c, d], rest⟩
      rw [OperatorForms.scan, hd]

/-! ### Numbers -/

/-- A fraction is a point and one run of digits, or nothing if no point follows. -/
theorem rescan_fraction (hrest : EndsLike (splitFraction r).2 rest) :
    splitFraction ((splitFraction r).1 ++ rest) = ((splitFraction r).1, rest) := by
  -- In front of a text that begins with no point there is no fraction.
  have hnone (h : ∀ c ∈ rest.head?, (c == '.') = false) :
      splitFraction rest = ([], rest) := by
    cases rest with
    | nil => rfl
    | cons c rest => rw [splitFraction, if_neg (by simpa using h c rfl)]
  cases r with
  | nil => exact hnone (hrest.head runsOver_point fun c hc => by cases hc)
  | cons c r =>
    rw [splitFraction] at hrest ⊢
    by_cases hc : c = '.'
    · rw [if_pos hc] at hrest ⊢
      show splitFraction (c :: (r.takeWhile Char.isDigit ++ rest)) = _
      rw [splitFraction, if_pos hc, takeWhile_append_of_endsLike r runsOver_isDigit hrest,
        dropWhile_append_of_endsLike r runsOver_isDigit hrest]
    · rw [if_neg hc] at hrest ⊢
      refine hnone (hrest.head runsOver_point fun d hd => ?_)
      cases hd
      simpa using hc

/-- A suffix is one character, or nothing if none follows. -/
theorem rescan_floatSuffix (hrest : EndsLike (splitFloatSuffix r).2 rest) :
    splitFloatSuffix ((splitFloatSuffix r).1 ++ rest) = ((splitFloatSuffix r).1, rest) := by
  have hnone (h : ∀ c ∈ rest.head?, isFloatSuffix c = false) :
      splitFloatSuffix rest = ([], rest) := by
    cases rest with
    | nil => rfl
    | cons c rest => rw [splitFloatSuffix, if_neg (by rw [h c rfl]; decide)]
  -- The suffix was there, and is the first character again, or none was and none is there now.
  cases r with
  | nil => exact hnone (hrest.head runsOver_isFloatSuffix fun c hc => by cases hc)
  | cons c r =>
    rw [splitFloatSuffix] at hrest ⊢
    by_cases hc : isFloatSuffix c = true
    · rw [if_pos hc]
      show splitFloatSuffix (c :: rest) = _
      rw [splitFloatSuffix, if_pos hc]
    · rw [if_neg hc] at hrest ⊢
      refine hnone (hrest.head runsOver_isFloatSuffix fun d hd => ?_)
      cases hd
      exact Bool.not_eq_true _ ▸ hc

/-- A decimal literal by its three parts. -/
theorem scanDecimal_eq {d : Char} {fraction suffix behind : List Char}
    (hfraction : splitFraction (r.dropWhile Char.isDigit) = (fraction, behind))
    (hsuffix : splitFloatSuffix behind = (suffix, rest)) :
    scanDecimal d r = ⟨decimalKind fraction suffix,
      d :: (r.takeWhile Char.isDigit ++ fraction ++ suffix), rest⟩ := by
  rw [scanDecimal, hfraction, hsuffix]

/-- A decimal literal, part by part from the last one to the first. -/
theorem rescan_decimal {d : Char} (hrest : EndsLike (scanDecimal d r).rest rest) :
    scanDecimal d ((scanDecimal d r).lexeme.tail ++ rest) = (scanDecimal d r).before rest := by
  let fraction := splitFraction (r.dropWhile Char.isDigit)
  let suffix := splitFloatSuffix fraction.2
  -- The parts are read one after the other, so each ends in front of the next as it did before.
  have hsuffix : EndsLike fraction.2 (suffix.1 ++ rest) := by
    rw [← splitFloatSuffix_append fraction.2]
    exact hrest.append suffix.1
  have hfraction : EndsLike (r.dropWhile Char.isDigit) (fraction.1 ++ (suffix.1 ++ rest)) := by
    rw [← splitFraction_append (r.dropWhile Char.isDigit)]
    exact hsuffix.append fraction.1
  have htext : (scanDecimal d r).lexeme.tail ++ rest =
      r.takeWhile Char.isDigit ++ (fraction.1 ++ (suffix.1 ++ rest)) := by
    show r.takeWhile Char.isDigit ++ fraction.1 ++ suffix.1 ++ rest = _
    rw [List.append_assoc, List.append_assoc]
  have hread : splitFraction ((r.takeWhile Char.isDigit ++
      (fraction.1 ++ (suffix.1 ++ rest))).dropWhile Char.isDigit) =
      (fraction.1, suffix.1 ++ rest) := by
    rw [dropWhile_append_of_endsLike r runsOver_isDigit hfraction]
    exact rescan_fraction hsuffix
  rw [htext, scanDecimal_eq hread (rescan_floatSuffix hrest),
    takeWhile_append_of_endsLike r runsOver_isDigit hfraction]
  rfl

/-- The text marks a literal as hexadecimal, given its first digit. -/
def HexMarked (d : Char) (r : List Char) : Prop := d = '0' ∧ ∃ x ∈ r.head?, isHexMark x = true

/-- Without the mark a literal is read as a decimal one. -/
theorem scanNumber_of_not_hexMarked {d : Char} (h : ¬ HexMarked d r) :
    scanNumber d r = scanDecimal d r := by
  cases r with
  | nil => rfl
  | cons x r => rw [scanNumber, if_neg fun hx => h ⟨hx.1, x, rfl, hx.2⟩]

/-- A number reads the same again. A decimal one is not taken for a hexadecimal one then. -/
theorem rescan_number {d : Char} (hrest : EndsLike (scanNumber d r).rest rest) :
    scanNumber d ((scanNumber d r).lexeme.tail ++ rest) = (scanNumber d r).before rest := by
  by_cases hhex : HexMarked d r
  · -- The mark belongs to the literal, and the digits behind it are one run.
    obtain ⟨hd, x, hx, hmark⟩ := hhex
    cases r with
    | nil => cases hx
    | cons y r =>
      cases hx
      rw [scanNumber, if_pos ⟨hd, hmark⟩] at hrest ⊢
      show scanNumber d (x :: (r.takeWhile isHexDigit ++ rest)) = _
      rw [scanNumber, if_pos ⟨hd, hmark⟩, takeWhile_append_of_endsLike r runsOver_isHexDigit hrest,
        dropWhile_append_of_endsLike r runsOver_isHexDigit hrest]
      rfl
  · rw [scanNumber_of_not_hexMarked hhex] at hrest ⊢
    have hagain : ¬ HexMarked d ((scanDecimal d r).lexeme.tail ++ rest) := by
      rintro ⟨hd, x, hx, hmark⟩
      -- The first character behind the digit stood there before, or it ends every token.
      have htail : (scanDecimal d r).lexeme.tail ++ (scanDecimal d r).rest = r :=
        (List.cons.inj (scanDecimal_splits d r).append).2
      have hlike := hrest.append (scanDecimal d r).lexeme.tail
      rw [htail] at hlike
      rcases hlike x hx with hends | hsame
      · rw [runsOver_isHexMark x hmark] at hends
        cases hends
      · exact hhex ⟨hd, x, hsame, hmark⟩
    rw [scanNumber_of_not_hexMarked hagain, rescan_decimal hrest]

/-! ### Quoted literals -/

/-- A character literal ends by its own quote, so anything may follow it. -/
theorem rescan_char (h : scanChar r = .ok s) (rest : List Char) :
    scanChar (s.lexeme.tail ++ rest) = .ok (s.before rest) := by
  unfold scanChar at h
  split at h
  · cases h
  · cases h
  · rename_i body c behind hbody
    split at h
    · rename_i hc
      cases h
      -- The body is told by its own characters and the quote behind it.
      have hagain : charBody? (body ++ ('\'' :: rest)) = some (body, '\'' :: rest) :=
        charBody?_eq_some_iff.mpr ⟨(charBody?_eq_some_iff.mp hbody).1, rfl⟩
      show scanChar (body ++ ['\''] ++ rest) = _
      rw [List.append_assoc, scanChar, List.cons_append, List.nil_append, hagain]
      rfl
    · cases h

/-- And so does a string literal. -/
theorem rescan_string (h : scanString r = .ok s) (rest : List Char) :
    scanString (s.lexeme.tail ++ rest) = .ok (s.before rest) := by
  unfold scanString at h
  split at h
  · cases h
  · rename_i body behind hbody
    cases h
    obtain ⟨text, htext, heq, -⟩ := stringBody?_eq_some_iff.mp hbody
    show scanString (body ++ rest) = _
    rw [scanString, stringBody?_eq_some_iff.mpr ⟨text, htext, heq, rfl⟩]
    rfl

/-! ### All tokens -/

/-- A token begins with the character that its reader was chosen by. -/
theorem lexeme_eq_cons (h : scanToken c r = .ok s) :
    s.lexeme = c :: s.lexeme.tail ∧ s.lexeme.tail ++ s.rest = r := by
  have hsplits := scanToken_splits h
  cases hlexeme : s.lexeme with
  | nil => exact absurd hlexeme hsplits.nonempty
  | cons c' tail =>
    have happend := hsplits.append
    rw [hlexeme, List.cons_append] at happend
    obtain ⟨rfl, htail⟩ := List.cons.inj happend
    exact ⟨rfl, htail⟩

/-- A token is read again, the same, off its own characters and any text in front of which it
ends. -/
theorem rescan (h : scanToken c r = .ok s) (hrest : EndsLike s.rest rest) :
    scanToken c (s.lexeme.tail ++ rest) = .ok (s.before rest) := by
  -- The first character chose the reader, and it is the first character again.
  unfold scanToken at h ⊢
  cases hmark : markKind? c with
  | some kind =>
    rw [hmark] at h
    cases h
    rfl
  | none =>
    rw [hmark] at h
    cases hforms : operatorForms? c with
    | some forms =>
      rw [hforms] at h
      cases h
      exact congrArg Except.ok (rescan_operator hforms hrest)
    | none =>
      rw [hforms] at h
      dsimp only at h ⊢
      split at h
      · rename_i hc
        cases h
        rw [if_pos hc]
        exact congrArg Except.ok (rescan_directive hrest)
      · rename_i hc
        rw [if_neg hc]
        split at h
        · rename_i hd
          cases h
          rw [if_pos hd]
          exact congrArg Except.ok (rescan_number hrest)
        · rename_i hd
          rw [if_neg hd]
          split at h
          · rename_i hq
            rw [if_pos hq]
            exact rescan_char h rest
          · rename_i hq
            rw [if_neg hq]
            split at h
            · rename_i hs
              rw [if_pos hs]
              exact rescan_string h rest
            · rename_i hs
              rw [if_neg hs]
              split at h
              · rename_i hw
                cases h
                rw [if_pos hw]
                exact congrArg Except.ok (rescan_word hrest)
              · cases h

/-! ### Tokens and trivia -/

/-- Two characters decide whether a comment begins. -/
theorem comment?_eq_none_iff {d : Char} :
    Trivia.comment? (c :: d :: r) = none ↔ ¬ (c = '/' ∧ d = '/') ∧ ¬ (c = '/' ∧ d = '*') := by
  rw [Trivia.comment?]
  by_cases hline : c = '/' ∧ d = '/'
  · simp [hline]
  · by_cases hblock : c = '/' ∧ d = '*'
    · simp [hblock]
    · simp [hline, hblock]

/-- The characters of a token are not taken for trivia, wherever the token ends as it did. Only a
slash could be, and the character behind it makes no comment of it. -/
theorem piece?_lexeme_append (htrivia : Trivia.piece? (c :: r) = none)
    (h : scanToken c r = .ok s) (hrest : EndsLike s.rest rest) :
    Trivia.piece? (s.lexeme ++ rest) = none := by
  obtain ⟨hlexeme, htail⟩ := lexeme_eq_cons h
  have hblank : ¬ isBlank c = true := by
    intro hc
    rw [Trivia.piece?, if_pos hc] at htrivia
    cases htrivia
  rw [Trivia.piece?, if_neg hblank] at htrivia
  rw [hlexeme, List.cons_append, Trivia.piece?, if_neg hblank]
  -- The character behind `c` stood there before, where it made no comment, or it ends every token.
  have hlike := hrest.append s.lexeme.tail
  rw [htail] at hlike
  cases htext : s.lexeme.tail ++ rest with
  | nil => rfl
  | cons d text =>
    rw [htext] at hlike
    rcases hlike d rfl with hends | hsame
    · refine comment?_eq_none_iff.mpr ⟨?_, ?_⟩
      · rintro ⟨-, rfl⟩
        exact absurd hends (by decide +kernel)
      · rintro ⟨-, rfl⟩
        exact absurd hends (by decide +kernel)
    · cases r with
      | nil => cases hsame
      | cons e r =>
        cases hsame
        rw [comment?_eq_none_iff] at htrivia
        exact comment?_eq_none_iff.mpr htrivia

/-- The trivia in front of a token and the token are read again, the same, wherever the token ends
as it did. -/
theorem split_rescan {cs gap : List Char} (hsplit : Trivia.split cs = (gap, c :: r))
    (h : scanToken c r = .ok s) (hrest : EndsLike s.rest rest) :
    Trivia.split (gap ++ s.lexeme ++ rest) = (gap, c :: (s.lexeme.tail ++ rest)) ∧
      scanToken c (s.lexeme.tail ++ rest) = .ok (s.before rest) := by
  refine ⟨?_, rescan h hrest⟩
  -- The trivia ended where no piece of trivia begins, and none begins there now.
  have hgap := (Trivia.split_spec cs).2
  have hpiece := Trivia.piece?_split cs
  rw [hsplit] at hgap hpiece
  rw [List.append_assoc, Trivia.split_gap_append (hgap (List.cons_ne_nil c r))
    (piece?_lexeme_append hpiece h hrest), ← List.cons_append, ← (lexeme_eq_cons h).1]

end LooseC
