import LooseC.Token.Scanned

/-!
# Marks and operators

A mark is a token of one character that nothing extends: the separators and the brackets. An
operator sign stands alone, or is extended by an equals sign, or, for four of the signs, by a
second sign of its own kind. One character after the sign decides which.
-/

set_option autoImplicit false

namespace LooseC

/-- The kind of a one-character mark. -/
def markKind? (c : Char) : Option TokenKind :=
  [(';', .semi), (':', .colon), (',', .comma), ('.', .dot), ('(', .lparen), (')', .rparen),
   ('[', .lbracket), (']', .rbracket), ('\x7b', .lbrace), ('\x7d', .rbrace)].lookup c

/-- The tokens that begin with one operator sign. -/
structure OperatorForms where
  /-- The kind of the sign alone. -/
  bare : TokenKind
  /-- The kind of the sign and an equals sign. -/
  withEq : TokenKind
  /-- The kind of the sign written twice, if that is a token. -/
  doubled : Option TokenKind

/-- The forms of each operator sign. -/
def operatorForms? (c : Char) : Option OperatorForms :=
  [('+', ⟨.plus, .assignPlus, some .increment⟩),
   ('-', ⟨.minus, .assignMinus, some .decrement⟩),
   ('&', ⟨.bitAnd, .assignBitAnd, some .and⟩),
   ('|', ⟨.bitOr, .assignBitOr, some .or⟩),
   ('*', ⟨.times, .assignTimes, none⟩),
   ('/', ⟨.divide, .assignDivide, none⟩),
   ('%', ⟨.mod, .assignMod, none⟩),
   ('=', ⟨.assign, .eq, none⟩),
   ('!', ⟨.not, .ne, none⟩),
   ('<', ⟨.lt, .lte, none⟩),
   ('>', ⟨.gt, .gte, none⟩)].lookup c

/-- The kind of the operator `sign` extended by `next`, if `next` extends it. -/
def OperatorForms.extended? (forms : OperatorForms) (sign next : Char) : Option TokenKind :=
  if next = '=' then some forms.withEq
  else if next = sign then forms.doubled
  else none

/-- The operator that begins with `sign`, before the text `r`. -/
def OperatorForms.scan (forms : OperatorForms) (sign : Char) : List Char → Scanned
  | [] => ⟨forms.bare, [sign], []⟩
  | c :: r =>
    match forms.extended? sign c with
    | some kind => ⟨kind, [sign, c], r⟩
    | none => ⟨forms.bare, [sign], c :: r⟩

/-- An operator is a front of the text, whichever of its forms is taken. -/
theorem OperatorForms.scan_splits (forms : OperatorForms) (sign : Char) (r : List Char) :
    (forms.scan sign r).Splits (sign :: r) := by
  unfold OperatorForms.scan
  split
  · exact ⟨rfl, by simp⟩
  · split
    · exact ⟨rfl, by simp⟩
    · exact ⟨rfl, by simp⟩

end LooseC
