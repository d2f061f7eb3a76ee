/-!
# Source positions

A position counts rows and columns from zero. A column is one character, whatever its width,
and only a newline begins a row. The position after a text is therefore a fold of `advance`
over its characters (`advanceAll`), which splits along an append (`advanceAll_append`).

Places grow with the text before them, so two fronts of one text that end at the same place are
the same (`eq_of_prefix`).
-/

set_option autoImplicit false

namespace LooseC

/-- The place of a character in a source text, counted from zero. -/
structure Position where
  row : Nat
  column : Nat
deriving DecidableEq, Inhabited

namespace Position

/-- The place of the first character. -/
def origin : Position := ⟨0, 0⟩

/-- The place after the character `c` at `p`. -/
def advance (p : Position) (c : Char) : Position :=
  if c = '\n' then ⟨p.row + 1, 0⟩ else ⟨p.row, p.column + 1⟩

/-- The place after the text `cs` that begins at `p`. -/
def advanceAll (p : Position) (cs : List Char) : Position :=
  cs.foldl advance p

/-- The places on the way through `cs`: `p` itself, then the place after each character. -/
def trail (p : Position) : List Char → List Position
  | [] => [p]
  | c :: cs => p :: (p.advance c).trail cs

/-- The row as people count it, from one. -/
def line (p : Position) : Nat := p.row + 1

/-- The column as people count it, from one. -/
def lineColumn (p : Position) : Nat := p.column + 1

/-- Zero-based, row first. -/
instance : ToString Position where
  toString p := s!"{p.row}:{p.column}"

/-- The empty text leads nowhere. -/
@[simp] theorem advanceAll_nil (p : Position) : p.advanceAll [] = p := rfl

/-- A text is passed from its first character on. -/
@[simp] theorem advanceAll_cons (p : Position) (c : Char) (cs : List Char) :
    p.advanceAll (c :: cs) = (p.advance c).advanceAll cs := rfl

/-- To pass a text in two parts is to pass the first and then the second. -/
theorem advanceAll_append (p : Position) (cs ds : List Char) :
    p.advanceAll (cs ++ ds) = (p.advanceAll cs).advanceAll ds := by
  simp [advanceAll]

/-- The rows passed are the newlines passed. -/
theorem row_advanceAll (p : Position) (cs : List Char) :
    (p.advanceAll cs).row = p.row + cs.count '\n' := by
  induction cs generalizing p with
  | nil => rfl
  | cons c cs ih =>
    rw [advanceAll_cons, ih, advance]
    by_cases hc : c = '\n'
    · rw [if_pos hc, hc, List.count_cons_self, Nat.add_right_comm, Nat.add_assoc]
    · rw [if_neg hc, List.count_cons_of_ne hc]

/-- On one row the columns passed are the characters passed. -/
theorem column_advanceAll (p : Position) {cs : List Char} (h : '\n' ∉ cs) :
    (p.advanceAll cs).column = p.column + cs.length := by
  induction cs generalizing p with
  | nil => rfl
  | cons c cs ih =>
    rw [List.mem_cons, not_or] at h
    rw [advanceAll_cons, ih _ h.2, advance, if_neg (Ne.symm h.1), List.length_cons,
      Nat.add_right_comm, Nat.add_assoc]

/-- Only the empty text leads nowhere. -/
theorem eq_nil_of_advanceAll_eq {p : Position} {cs : List Char} (h : p.advanceAll cs = p) :
    cs = [] := by
  have hrow := row_advanceAll p cs
  rw [h] at hrow
  have hline : '\n' ∉ cs := List.count_eq_zero.mp (by omega)
  have hcolumn := column_advanceAll p hline
  rw [h] at hcolumn
  exact List.length_eq_zero_iff.mp (by omega)

/-- Two fronts of one text that end at the same place are the same. -/
theorem eq_of_prefix {p : Position} {xs ys cs : List Char} (hx : xs <+: cs) (hy : ys <+: cs)
    (h : p.advanceAll xs = p.advanceAll ys) : xs = ys := by
  rcases List.prefix_or_prefix_of_prefix hx hy with ⟨zs, rfl⟩ | ⟨zs, rfl⟩
  · rw [advanceAll_append] at h
    rw [eq_nil_of_advanceAll_eq h.symm, List.append_nil]
  · rw [advanceAll_append] at h
    rw [eq_nil_of_advanceAll_eq h, List.append_nil]

end Position

end LooseC
