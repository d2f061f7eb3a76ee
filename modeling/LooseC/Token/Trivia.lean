import LooseC.Text.Blank

/-!
# Trivia

What may stand between two tokens: white space characters, line comments and block comments.
`Trivia.split` takes all of it off the front of a text, piece by piece. A comment that is
still open at the end of the text ends there.

`split_append` says that nothing is lost. The two comment readers have the same law,
`lineBody_append` and `blockBody_append`.
-/

set_option autoImplicit false

namespace LooseC.Trivia

/-- The rest of a line comment, through the newline, and the text after it. -/
def lineBody : List Char → List Char × List Char
  | [] => ([], [])
  | c :: r => if c = '\n' then ([c], r) else (c :: (lineBody r).1, (lineBody r).2)

/-- The rest of a block comment, through the first closing mark, and the text after it. The
star of the opening mark is gone before the body begins, so it cannot close the comment. -/
def blockBody : List Char → List Char × List Char
  | [] => ([], [])
  | [c] => ([c], [])
  | c :: d :: r =>
    if c = '*' ∧ d = '/' then ([c, d], r)
    else (c :: (blockBody (d :: r)).1, (blockBody (d :: r)).2)

/-- The comment at the front of a text, if one stands there, and the text after it. -/
def comment? : List Char → Option (List Char × List Char)
  | c :: d :: r =>
    if c = '/' ∧ d = '/' then some (c :: d :: (lineBody r).1, (lineBody r).2)
    else if c = '/' ∧ d = '*' then some (c :: d :: (blockBody r).1, (blockBody r).2)
    else none
  | _ => none

/-- The white space character or the comment at the front of a text, and the text after it. -/
def piece? : List Char → Option (List Char × List Char)
  | [] => none
  | c :: r => if isBlank c then some ([c], r) else comment? (c :: r)

/-- The body of a line comment is a front of the text. -/
theorem lineBody_append (cs : List Char) : (lineBody cs).1 ++ (lineBody cs).2 = cs := by
  fun_induction lineBody cs with
  | case1 => rfl
  | case2 => rfl
  | case3 c r _ ih => simp [ih]

/-- The body of a block comment is a front of the text. -/
theorem blockBody_append (cs : List Char) : (blockBody cs).1 ++ (blockBody cs).2 = cs := by
  fun_induction blockBody cs with
  | case1 => rfl
  | case2 => rfl
  | case3 => rfl
  | case4 c d r _ ih => simp [ih]

/-- A comment is a front of the text, and it is not empty. -/
theorem append_of_comment? {cs gap rest : List Char} (h : comment? cs = some (gap, rest)) :
    gap ++ rest = cs ∧ gap ≠ [] := by
  unfold comment? at h
  split at h
  · split at h
    · cases h
      simp [lineBody_append]
    · split at h
      · cases h
        simp [blockBody_append]
      · simp at h
  · simp at h

/-- A piece of trivia is not empty, and with the text after it it makes up the text. -/
theorem append_of_piece? {cs gap rest : List Char} (h : piece? cs = some (gap, rest)) :
    gap ++ rest = cs ∧ gap ≠ [] := by
  unfold piece? at h
  split at h
  · simp at h
  · split at h
    · cases h
      simp
    · exact append_of_comment? h

/-- A piece of trivia leaves less of the text. -/
theorem length_lt_of_piece? {cs gap rest : List Char} (h : piece? cs = some (gap, rest)) :
    rest.length < cs.length := by
  obtain ⟨happend, hne⟩ := append_of_piece? h
  have hpos := List.length_pos_iff.mpr hne
  rw [← happend, List.length_append]
  omega

/-- All the trivia at the front of a text, and the text after it. -/
def split (cs : List Char) : List Char × List Char :=
  match _h : piece? cs with
  | none => ([], cs)
  | some (gap, rest) => (gap ++ (split rest).1, (split rest).2)
termination_by cs.length
decreasing_by all_goals exact length_lt_of_piece? (by assumption)

/-- Where no piece of trivia begins, there is no trivia to take off. -/
theorem split_of_piece?_eq_none {cs : List Char} (h : piece? cs = none) :
    split cs = ([], cs) := by
  rw [split]
  split
  · rfl
  · simp_all

/-- Behind a piece of trivia, the splitting goes on. -/
theorem split_of_piece?_eq_some {cs gap rest : List Char} (h : piece? cs = some (gap, rest)) :
    split cs = (gap ++ (split rest).1, (split rest).2) := by
  rw [split]
  split
  · simp_all
  · simp_all

/-- The trivia and the text after it make up the text. -/
theorem split_append (cs : List Char) : (split cs).1 ++ (split cs).2 = cs := by
  induction hn : cs.length using Nat.strongRecOn generalizing cs with
  | ind n ih =>
    cases h : piece? cs with
    | none => simp [split_of_piece?_eq_none h]
    | some p =>
      obtain ⟨gap, rest⟩ := p
      rw [split_of_piece?_eq_some h, List.append_assoc,
        ih _ (hn ▸ length_lt_of_piece? h) rest rfl]
      exact (append_of_piece? h).1

/-- After the trivia stands no further piece of trivia. -/
theorem piece?_split (cs : List Char) : piece? (split cs).2 = none := by
  induction hn : cs.length using Nat.strongRecOn generalizing cs with
  | ind n ih =>
    cases h : piece? cs with
    | none => simp [split_of_piece?_eq_none h, h]
    | some p =>
      obtain ⟨gap, rest⟩ := p
      rw [split_of_piece?_eq_some h]
      exact ih _ (hn ▸ length_lt_of_piece? h) rest rfl

/-- Taking trivia off does not make a text longer. -/
theorem length_split_le (cs : List Char) : (split cs).2.length ≤ cs.length := by
  have h := congrArg List.length (split_append cs)
  rw [List.length_append] at h
  omega

end LooseC.Trivia
