import LooseC.Token.Quoted

/-!
# The bodies of quoted literals

What the readers of quoted literals take, said without the readers. A character literal holds one
character, or a backslash and one character (`CharBody`). The text of a string literal has no
quote that is not escaped (`EscapedText`), and the first such quote closes the literal, if there
is one (`ClosesString`).

`charBody?_eq_some_iff` and `stringBody?_eq_some_iff` say that the readers take these bodies and no
others, and the two lemmas for `none` say where there is no body.
-/

set_option autoImplicit false

namespace LooseC

variable {r body rest : List Char}

/-! ### Character literals -/

/-- What may stand between the quotes of a character literal: one character, or a backslash and
one character. -/
inductive CharBody : List Char → Prop where
  | plain {c : Char} (hescape : c ≠ '\\') : CharBody [c]
  | escaped {c : Char} : CharBody ['\\', c]

/-- The reader takes one character, or a backslash and one character. -/
theorem charBody?_eq_some_iff :
    charBody? r = some (body, rest) ↔ CharBody body ∧ body ++ rest = r := by
  constructor
  · intro h
    refine ⟨?_, append_of_charBody? h⟩
    -- The reader looks at the first character, and behind a backslash at the second.
    unfold charBody? at h
    split at h
    · cases h
    · split at h
      · rename_i hescape
        split at h
        · cases h
        · cases h
          exact hescape ▸ .escaped
      · rename_i hescape
        cases h
        exact .plain hescape
  · rintro ⟨hbody, rfl⟩
    cases hbody with
    | plain hescape =>
      rw [List.cons_append, charBody?.eq_def]
      exact if_neg hescape
    | escaped => rfl

/-- There is no body only where the text ends in front of it or within it. -/
theorem charBody?_eq_none_iff : charBody? r = none ↔ r = [] ∨ r = ['\\'] := by
  constructor
  · intro h
    unfold charBody? at h
    split at h
    · exact .inl rfl
    · split at h
      · rename_i hescape
        split at h
        · exact .inr (by rw [hescape])
        · cases h
      · cases h
  · rintro (rfl | rfl) <;> rfl

/-- A text that ends within a body, or behind it, has no body, or is one. -/
theorem charBody?_of_prefix (h : CharBody body) (hr : r <+: body) :
    charBody? r = none ∨ charBody? r = some (r, []) := by
  rcases r with _ | ⟨d, r⟩
  · exact .inl rfl
  cases h with
  | plain hescape =>
    obtain ⟨rfl, htail⟩ := List.cons_prefix_cons.mp hr
    rw [List.prefix_nil.mp htail]
    exact .inr (charBody?_eq_some_iff.mpr ⟨.plain hescape, rfl⟩)
  | escaped =>
    obtain ⟨hd, htail⟩ := List.cons_prefix_cons.mp hr
    subst hd
    -- The text may end behind the backslash.
    rcases r with _ | ⟨e, r⟩
    · exact .inl rfl
    · rw [List.prefix_nil.mp (List.cons_prefix_cons.mp htail).2]
      exact .inr rfl

/-! ### String literals -/

/-- What may stand in front of the closing quote of a string literal: no quote without a backslash
before it, and no backslash without a character behind it. -/
inductive EscapedText : List Char → Prop where
  | nil : EscapedText []
  | plain {c : Char} {text : List Char} (hquote : c ≠ '"') (hescape : c ≠ '\\')
      (htext : EscapedText text) : EscapedText (c :: text)
  | escaped {c : Char} {text : List Char} (htext : EscapedText text) :
      EscapedText ('\\' :: c :: text)

/-- A quote that no backslash escapes closes the string literal. -/
def ClosesString (r : List Char) : Prop :=
  ∃ text rest, EscapedText text ∧ r = text ++ '"' :: rest

/-- In front of a quote the reader takes any text without a quote of its own, and the quote. -/
theorem stringBody?_append_of_escapedText {text : List Char} (h : EscapedText text)
    (rest : List Char) : stringBody? (text ++ '"' :: rest) = some (text ++ ['"'], rest) := by
  -- On the text: each character or escaped pair is one step of the reader.
  induction h with
  | nil =>
    rw [List.nil_append, stringBody?.eq_def]
    rfl
  | plain hquote hescape _ ih =>
    rw [List.cons_append, stringBody?.eq_def]
    dsimp only
    rw [if_neg hquote, if_neg hescape, ih]
    rfl
  | escaped _ ih =>
    rw [List.cons_append, List.cons_append, stringBody?.eq_def]
    dsimp only
    rw [if_neg (by decide), if_pos rfl, ih]
    rfl

/-- What the reader takes is such a text and a quote. -/
theorem escapedText_of_stringBody? (h : stringBody? r = some (body, rest)) :
    ∃ text, EscapedText text ∧ body = text ++ ['"'] := by
  -- One case for each step of the reader. Two of them go on and put characters in front.
  fun_induction stringBody? r generalizing body rest with
  | case1 => cases h
  | case2 =>
    cases h
    exact ⟨[], .nil, rfl⟩
  | case3 => cases h
  | case4 c r _ ih =>
    obtain ⟨q, hq, hpair⟩ := Option.map_eq_some_iff.mp h
    cases hpair
    obtain ⟨text, htext, hbody⟩ := ih hq
    exact ⟨'\\' :: c :: text, .escaped htext, by rw [hbody]; rfl⟩
  | case5 c r hquote hescape ih =>
    obtain ⟨q, hq, hpair⟩ := Option.map_eq_some_iff.mp h
    cases hpair
    obtain ⟨text, htext, hbody⟩ := ih hq
    exact ⟨c :: text, .plain hquote hescape htext, by rw [hbody]; rfl⟩

/-- The reader goes on up to the first quote that is not escaped. -/
theorem stringBody?_eq_some_iff : stringBody? r = some (body, rest) ↔
    ∃ text, EscapedText text ∧ body = text ++ ['"'] ∧ body ++ rest = r := by
  constructor
  · intro h
    obtain ⟨text, htext, hbody⟩ := escapedText_of_stringBody? h
    exact ⟨text, htext, hbody, append_of_stringBody? h⟩
  · rintro ⟨text, htext, rfl, rfl⟩
    rw [List.append_assoc]
    exact stringBody?_append_of_escapedText htext rest

/-- A string literal is read to its end exactly if something closes it. -/
theorem stringBody?_eq_none_iff : stringBody? r = none ↔ ¬ ClosesString r := by
  constructor
  · rintro h ⟨text, rest, htext, rfl⟩
    rw [stringBody?_append_of_escapedText htext rest] at h
    cases h
  · intro hopen
    rw [Option.eq_none_iff_forall_ne_some]
    rintro ⟨body, rest⟩ hbody
    obtain ⟨text, htext, rfl, rfl⟩ := stringBody?_eq_some_iff.mp hbody
    exact hopen ⟨text, rest, htext, by rw [List.append_assoc]; rfl⟩

end LooseC
