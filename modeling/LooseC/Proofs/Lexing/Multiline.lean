import LooseC.Proofs.Lexing.Relex

/-!
# Tokens over several lines

A token runs on over characters that do not end it (`endsToken`), and a newline ends every token.
The two quoted literals are the exception: what stands between the quotes is kept as it is. So only
a quoted literal can hold a newline (`Lexed.isQuoted_of_newline_mem`).

The lexeme of a token also says where it ends. Two lexemes in front of texts that end every token
are the same if the whole texts are (`Lexed.lexeme_append_inj`), whatever the lexemes hold.
-/

set_option autoImplicit false

namespace LooseC

/-- The two literals between quotes. -/
def TokenKind.isQuoted : TokenKind → Bool
  | .charLiteral | .stringLiteral => true
  | _ => false

variable {c d : Char} {r : List Char} {s : Scanned}

/-! ### The characters behind the first one -/

/-- No character of a run ends every token. -/
theorem RunsOver.of_mem_takeWhile {p : Char → Bool} (hp : RunsOver p) (h : d ∈ r.takeWhile p) :
    endsToken d = false :=
  hp d (List.all_eq_true.mp List.all_takeWhile d h)

/-- An operator sign is extended by an operator sign. -/
theorem OperatorForms.endsToken_of_mem_tail {forms : OperatorForms}
    (hsign : operatorForms? c = some forms) (h : d ∈ (forms.scan c r).lexeme.tail) :
    endsToken d = false := by
  cases r with
  | nil => simp [OperatorForms.scan] at h
  | cons e r =>
    rw [OperatorForms.scan] at h
    cases hext : forms.extended? c e with
    | none => simp [hext] at h
    | some kind =>
      simp only [hext, List.tail_cons, List.mem_singleton] at h
      subst h
      -- A character that ended every token would extend no sign.
      cases hends : endsToken d with
      | false => rfl
      | true =>
        rw [extended?_eq_none hsign hends] at hext
        cases hext

/-- A fraction is a point and digits. -/
theorem endsToken_of_mem_splitFraction (h : d ∈ (splitFraction r).1) : endsToken d = false := by
  unfold splitFraction at h
  split at h
  · simp at h
  · split at h
    · rename_i hpoint
      rcases List.mem_cons.mp h with rfl | hdigit
      · exact runsOver_point _ (by simp [hpoint])
      · exact runsOver_isDigit.of_mem_takeWhile hdigit
    · simp at h

/-- A suffix is one of two letters. -/
theorem endsToken_of_mem_splitFloatSuffix (h : d ∈ (splitFloatSuffix r).1) :
    endsToken d = false := by
  unfold splitFloatSuffix at h
  split at h
  · simp at h
  · split at h
    · rename_i hsuffix
      rw [List.mem_singleton.mp h]
      exact runsOver_isFloatSuffix _ hsuffix
    · simp at h

/-- A decimal literal is made of digits, a fraction and a suffix. -/
theorem endsToken_of_mem_tail_scanDecimal (h : d ∈ (scanDecimal c r).lexeme.tail) :
    endsToken d = false := by
  simp only [scanDecimal, List.tail_cons, List.mem_append] at h
  rcases h with (hdigit | hfraction) | hsuffix
  · exact runsOver_isDigit.of_mem_takeWhile hdigit
  · exact endsToken_of_mem_splitFraction hfraction
  · exact endsToken_of_mem_splitFloatSuffix hsuffix

/-- A number is a decimal literal, or a mark and hexadecimal digits. -/
theorem endsToken_of_mem_tail_scanNumber (h : d ∈ (scanNumber c r).lexeme.tail) :
    endsToken d = false := by
  unfold scanNumber at h
  split at h
  · exact endsToken_of_mem_tail_scanDecimal h
  · split at h
    · rename_i hmark
      rcases List.mem_cons.mp h with rfl | hdigit
      · exact runsOver_isHexMark _ hmark.2
      · exact runsOver_isHexDigit.of_mem_takeWhile hdigit
    · exact endsToken_of_mem_tail_scanDecimal h

/-- What is read between two quotes is a character literal. -/
theorem kind_of_scanChar (h : scanChar r = .ok s) : s.kind = .charLiteral := by
  unfold scanChar at h
  split at h
  · cases h
  · cases h
  · split at h
    · cases h
      rfl
    · cases h

/-- And a string literal between two double quotes. -/
theorem kind_of_scanString (h : scanString r = .ok s) : s.kind = .stringLiteral := by
  unfold scanString at h
  split at h
  · cases h
  · cases h
    rfl

/-- Only a quoted literal runs on over a character that ends every other token. -/
theorem endsToken_of_mem_tail (h : scanToken c r = .ok s) (hkind : s.kind.isQuoted = false)
    (hd : d ∈ s.lexeme.tail) : endsToken d = false := by
  -- One case for each reader: a mark has no tail, and the quoted ones are excluded.
  unfold scanToken at h
  split at h
  · cases h
    simp at hd
  · rename_i hforms
    cases h
    exact OperatorForms.endsToken_of_mem_tail hforms hd
  · split at h
    · cases h
      exact runsOver_isDirectivePart.of_mem_takeWhile hd
    · split at h
      · cases h
        exact endsToken_of_mem_tail_scanNumber hd
      · split at h
        · rw [kind_of_scanChar h] at hkind
          cases hkind
        · split at h
          · rw [kind_of_scanString h] at hkind
            cases hkind
          · split at h
            · cases h
              exact runsOver_isWordPart.of_mem_takeWhile hd
            · cases h

/-- No token begins with a newline. -/
theorem ne_newline_of_scanToken (h : scanToken c r = .ok s) : c ≠ '\n' := by
  intro hc
  subst hc
  have hmark : markKind? '\n' = none := by decide
  have hforms : operatorForms? '\n' = none := by decide
  have hword : isWordStart '\n' = false := by decide +kernel
  simp [scanToken, hmark, hforms, hword] at h

/-! ### Lexemes -/

namespace Lexed

variable {t u : Token} {x y : List Char}

/-- Only a quoted literal holds a newline. -/
theorem isQuoted_of_newline_mem (h : Lexed t) (hmem : '\n' ∈ t.lexeme.toList) :
    t.kind.isQuoted = true := by
  obtain ⟨c, r, s, -, hs, hkind, hlexeme⟩ := h.scanned
  rw [hlexeme, String.toList_ofList, (lexeme_eq_cons hs).1] at hmem
  rw [hkind]
  cases hquoted : s.kind.isQuoted with
  | true => rfl
  | false =>
    rcases List.mem_cons.mp hmem with hfirst | htail
    · exact absurd hfirst.symm (ne_newline_of_scanToken hs)
    · -- A newline is white space, and that ends every other token.
      have hends := endsToken_of_isBlank isBlank_newline
      rw [endsToken_of_mem_tail hs hquoted htail] at hends
      cases hends

/-- In front of a text that ends every token, the characters of a token are read as that token. -/
theorem scanToken_append (h : Lexed t) (hx : Stops x) : ∃ c rest kind,
    t.lexeme.toList ++ x = c :: rest ∧ scanToken c rest = .ok ⟨kind, t.lexeme.toList, x⟩ := by
  obtain ⟨c, r, s, -, hs, hkind, hlexeme⟩ := h.scanned
  have hchars : t.lexeme.toList = s.lexeme := by rw [hlexeme, String.toList_ofList]
  refine ⟨c, s.lexeme.tail ++ x, s.kind, ?_, ?_⟩
  · rw [hchars, ← List.cons_append, ← (lexeme_eq_cons hs).1]
  · rw [rescan hs (hx.endsLike s.rest), hchars]
    rfl

/-- The text of a token says where it ends, if what follows ends every token. -/
theorem lexeme_append_inj (ht : Lexed t) (hu : Lexed u) (hx : Stops x) (hy : Stops y)
    (h : t.lexeme.toList ++ x = u.lexeme.toList ++ y) : t.lexeme = u.lexeme ∧ x = y := by
  obtain ⟨c, rest, kind, htext, hscan⟩ := ht.scanToken_append hx
  obtain ⟨c', rest', kind', htext', hscan'⟩ := hu.scanToken_append hy
  -- One text is read in one way.
  rw [htext, htext', List.cons.injEq] at h
  rw [h.1, h.2, hscan', Except.ok.injEq, Scanned.mk.injEq] at hscan
  exact ⟨(String.toList_inj.mp hscan.2.1).symm, hscan.2.2.symm⟩

end Lexed

end LooseC
