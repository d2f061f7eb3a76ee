import LooseC.Token.Trivia

/-!
# Gaps between tokens

What `Trivia.split` takes off the front of a text, said without the reader. A closed piece of
trivia is a white space character, a line comment through its newline, or a block comment
through its first closing mark (`ClosedTrivia`). A `Gap` is a run of closed pieces. Only at
the end of a text may one more comment follow that nothing closes (`FinalGap`).

* `Trivia.split_spec`: what is split off is a gap, and a final gap if nothing is left;
* `Trivia.split_append_of_gap`: a gap in front of a text is split off whole.
-/

set_option autoImplicit false

namespace LooseC

/-- A piece of trivia that ends by itself, whatever follows. -/
inductive ClosedTrivia : List Char → Prop where
  | blank {c : Char} : isBlank c = true → ClosedTrivia [c]
  | line {body : List Char} : '\n' ∉ body → ClosedTrivia ('/' :: '/' :: (body ++ ['\n']))
  | block {body : List Char} : ¬ ['*', '/'] <:+: body →
      ClosedTrivia ('/' :: '*' :: (body ++ ['*', '/']))

/-- A comment that only the end of the text ends. -/
inductive OpenComment : List Char → Prop where
  | line {body : List Char} : '\n' ∉ body → OpenComment ('/' :: '/' :: body)
  | block {body : List Char} : ¬ ['*', '/'] <:+: body → OpenComment ('/' :: '*' :: body)

/-- A run of closed pieces of trivia. -/
inductive Gap : List Char → Prop where
  | nil : Gap []
  | cons {piece gap : List Char} : ClosedTrivia piece → Gap gap → Gap (piece ++ gap)

/-- What may stand after the last token: a run of closed pieces, and perhaps a comment that is
still open. -/
def FinalGap (gap : List Char) : Prop :=
  ∃ closed last, Gap closed ∧ (last = [] ∨ OpenComment last) ∧ gap = closed ++ last

/-- A closed gap may stand at the end of a text. -/
theorem Gap.final {gap : List Char} (h : Gap gap) : FinalGap gap :=
  ⟨gap, [], h, .inl rfl, (List.append_nil gap).symm⟩

/-- A closed piece in front of what may stand at the end. -/
theorem FinalGap.cons {piece gap : List Char} (hpiece : ClosedTrivia piece) (h : FinalGap gap) :
    FinalGap (piece ++ gap) := by
  obtain ⟨closed, last, hclosed, hlast, rfl⟩ := h
  exact ⟨piece ++ closed, last, .cons hpiece hclosed, hlast, (List.append_assoc _ _ _).symm⟩

namespace Trivia

/-! ### What a comment reader stops at -/

/-- The body of a line comment ends with the first newline, or with the text. -/
theorem lineBody_spec (cs : List Char) :
    (∃ body, '\n' ∉ body ∧ (lineBody cs).1 = body ++ ['\n']) ∨
      ((lineBody cs).2 = [] ∧ '\n' ∉ (lineBody cs).1) := by
  fun_induction lineBody cs with
  | case1 => exact .inr ⟨rfl, List.not_mem_nil⟩
  | case2 r => exact .inl ⟨[], List.not_mem_nil, rfl⟩
  | case3 c r hc ih =>
    rcases ih with ⟨body, hbody, heq⟩ | ⟨hrest, hbody⟩
    · refine .inl ⟨c :: body, ?_, by rw [heq, List.cons_append]⟩
      rw [List.mem_cons, not_or]
      exact ⟨fun h => hc h.symm, hbody⟩
    · refine .inr ⟨hrest, ?_⟩
      rw [List.mem_cons, not_or]
      exact ⟨fun h => hc h.symm, hbody⟩

/-- A body grows at its front by a character that does not begin a closing mark. -/
theorem not_mark_infix_cons {c : Char} {body : List Char} (h : ¬ ['*', '/'] <:+: body)
    (hc : ¬ (c = '*' ∧ body.head? = some '/')) : ¬ ['*', '/'] <:+: c :: body := by
  rw [List.infix_cons_iff, not_or]
  refine ⟨fun hprefix => hc ?_, h⟩
  obtain ⟨tail, htail⟩ := hprefix
  cases htail
  exact ⟨rfl, rfl⟩

/-- The body of a comment begins with the next character. -/
theorem head?_blockBody (d : Char) (r : List Char) : (blockBody (d :: r)).1.head? = some d := by
  unfold blockBody
  split
  · rename_i h
    cases h
  · rename_i h
    cases h
    rfl
  · rename_i h
    cases h
    split <;> rfl

/-- The body of a block comment ends with the first closing mark, or with the text. -/
theorem blockBody_spec (cs : List Char) :
    (∃ body, ¬ ['*', '/'] <:+: body ∧ (blockBody cs).1 = body ++ ['*', '/']) ∨
      ((blockBody cs).2 = [] ∧ ¬ ['*', '/'] <:+: (blockBody cs).1) := by
  -- One case for each step of the reader: the end, one last character, a mark, any other character.
  fun_induction blockBody cs with
  | case1 => exact .inr ⟨rfl, by simp⟩
  | case2 c => exact .inr ⟨rfl, not_mark_infix_cons (by simp) (by simp)⟩
  | case3 c d r hmark =>
    obtain ⟨rfl, rfl⟩ := hmark
    exact .inl ⟨[], by simp, rfl⟩
  | case4 c d r hmark ih =>
    have hhead := head?_blockBody d r
    rcases ih with ⟨body, hbody, heq⟩ | ⟨hrest, hbody⟩
    · -- A mark across the first two characters would have ended the comment there.
      refine .inl ⟨c :: body, not_mark_infix_cons hbody ?_, by rw [heq, List.cons_append]⟩
      rintro ⟨rfl, hslash⟩
      rw [heq, List.head?_append, hslash] at hhead
      exact hmark ⟨rfl, (Option.some.inj hhead).symm⟩
    · refine .inr ⟨hrest, not_mark_infix_cons hbody ?_⟩
      rintro ⟨rfl, hslash⟩
      rw [hslash] at hhead
      exact hmark ⟨rfl, (Option.some.inj hhead).symm⟩

/-- A piece of trivia is closed, or it is an open comment at the end of the text. -/
theorem piece?_spec {cs piece rest : List Char} (h : piece? cs = some (piece, rest)) :
    ClosedTrivia piece ∨ (rest = [] ∧ OpenComment piece) := by
  unfold piece? at h
  split at h
  · cases h
  · split at h
    · rename_i hblank
      cases h
      exact .inl (.blank hblank)
    · unfold comment? at h
      split at h
      · rename_i c d r _
        split at h
        · rename_i hmark
          obtain ⟨rfl, rfl⟩ := hmark
          cases h
          -- Either reader of comments closes what it reads or comes to the end of the text.
          rcases lineBody_spec r with ⟨body, hbody, heq⟩ | ⟨hrest, hbody⟩
          · exact .inl (heq ▸ .line hbody)
          · exact .inr ⟨hrest, .line hbody⟩
        · split at h
          · rename_i hmark
            obtain ⟨rfl, rfl⟩ := hmark
            cases h
            rcases blockBody_spec r with ⟨body, hbody, heq⟩ | ⟨hrest, hbody⟩
            · exact .inl (heq ▸ .block hbody)
            · exact .inr ⟨hrest, .block hbody⟩
          · cases h
      · cases h

/-- What is split off the front of a text is a gap, and a final gap if nothing is left. -/
theorem split_spec (cs : List Char) :
    FinalGap (split cs).1 ∧ ((split cs).2 ≠ [] → Gap (split cs).1) := by
  induction hn : cs.length using Nat.strongRecOn generalizing cs with
  | ind n ih =>
    cases h : piece? cs with
    | none =>
      rw [split_of_piece?_eq_none h]
      exact ⟨Gap.nil.final, fun _ => .nil⟩
    | some p =>
      obtain ⟨piece, rest⟩ := p
      rw [split_of_piece?_eq_some h]
      obtain ⟨hfinal, hgap⟩ := ih _ (hn ▸ length_lt_of_piece? h) rest rfl
      -- One piece is off; what follows it is split by induction.
      rcases piece?_spec h with hclosed | ⟨rfl, hopen⟩
      · exact ⟨hfinal.cons hclosed, fun hne => .cons hclosed (hgap hne)⟩
      · -- An open comment takes the whole text, so nothing is split off behind it.
        rw [split_of_piece?_eq_none rfl]
        refine ⟨⟨[], piece, .nil, .inr hopen, by rw [List.append_nil, List.nil_append]⟩, ?_⟩
        exact fun hne => absurd rfl hne

/-! ### What a comment reader takes off a text that begins with trivia -/

/-- A line comment ends with the first newline. -/
theorem lineBody_newline_append {body : List Char} (h : '\n' ∉ body) (rest : List Char) :
    lineBody (body ++ '\n' :: rest) = (body ++ ['\n'], rest) := by
  induction body with
  | nil => rfl
  | cons c body ih =>
    rw [List.mem_cons, not_or] at h
    rw [List.cons_append, lineBody, if_neg (Ne.symm h.1), ih h.2, List.cons_append]

/-- A block comment ends with the first closing mark. -/
theorem blockBody_mark_append {body : List Char} (h : ¬ ['*', '/'] <:+: body)
    (rest : List Char) :
    blockBody (body ++ '*' :: '/' :: rest) = (body ++ ['*', '/'], rest) := by
  induction body with
  | nil => rfl
  | cons c body ih =>
    rw [List.infix_cons_iff, not_or] at h
    have hrest := ih h.2
    -- The reader looks at two characters, and the second may be the star of the mark.
    cases body with
    | nil =>
      rw [List.nil_append] at hrest
      rw [List.cons_append, List.nil_append, blockBody, if_neg (by simp), hrest]
      rfl
    | cons d body =>
      have hmark : ¬ (c = '*' ∧ d = '/') := by
        rintro ⟨rfl, rfl⟩
        exact h.1 ⟨body, rfl⟩
      rw [List.cons_append] at hrest
      rw [List.cons_append, List.cons_append, blockBody, if_neg hmark, hrest]
      rfl

/-- The character that begins a comment is not white space. -/
theorem slash_not_blank : ¬ isBlank '/' = true := by decide

/-- A closed piece of trivia is read as it stands, whatever follows. -/
theorem piece?_append {piece : List Char} (h : ClosedTrivia piece) (rest : List Char) :
    piece? (piece ++ rest) = some (piece, rest) := by
  cases h with
  | blank hblank => rw [List.cons_append, List.nil_append, piece?, if_pos hblank]
  | line hbody =>
    have hread := lineBody_newline_append hbody rest
    simp only [List.cons_append, List.append_assoc, List.nil_append]
    rw [piece?, if_neg slash_not_blank, comment?, if_pos ⟨rfl, rfl⟩, hread]
  | block hbody =>
    have hread := blockBody_mark_append hbody rest
    simp only [List.cons_append, List.append_assoc, List.nil_append]
    rw [piece?, if_neg slash_not_blank, comment?, if_neg (by simp), if_pos ⟨rfl, rfl⟩, hread]

/-- A gap in front of a text is split off whole, and then the trivia of the text. -/
theorem split_append_of_gap {gap : List Char} (h : Gap gap) (rest : List Char) :
    split (gap ++ rest) = (gap ++ (split rest).1, (split rest).2) := by
  induction h with
  | nil => rfl
  | cons hpiece _ ih =>
    rw [List.append_assoc, split_of_piece?_eq_some (piece?_append hpiece _), ih, List.append_assoc]

/-- A gap in front of a text that begins with no trivia is all that is split off. -/
theorem split_gap_append {gap rest : List Char} (h : Gap gap) (hrest : piece? rest = none) :
    split (gap ++ rest) = (gap, rest) := by
  rw [split_append_of_gap h, split_of_piece?_eq_none hrest, List.append_nil]

end Trivia

end LooseC
