import LooseC.Token.Scanned

/-!
# Numeric literals

A numeric literal is hexadecimal, `0x` and hexadecimal digits, or decimal: digits, then
perhaps a point and digits, then perhaps one `f` or `F`. Either form may break off early:
`0x` alone and `1.` are literals. The readers get the first digit and the text after it.
-/

set_option autoImplicit false

namespace LooseC

/-- The two letters that turn a leading zero into the mark of a hexadecimal literal. -/
def isHexMark (c : Char) : Bool := c == 'x' || c == 'X'

/-- The hexadecimal digits, in either case. -/
def isHexDigit (c : Char) : Bool :=
  c.isDigit || ('a' ≤ c && c ≤ 'f') || ('A' ≤ c && c ≤ 'F')

/-- The two letters that end a decimal literal and make it a `float`. -/
def isFloatSuffix (c : Char) : Bool := c == 'f' || c == 'F'

/-- The fractional part of a literal, point included, and the text after it. It is empty if
there is no point. -/
def splitFraction : List Char → List Char × List Char
  | [] => ([], [])
  | c :: r =>
    if c = '.' then (c :: r.takeWhile Char.isDigit, r.dropWhile Char.isDigit) else ([], c :: r)

/-- The suffix of a decimal literal and the text after it. -/
def splitFloatSuffix : List Char → List Char × List Char
  | [] => ([], [])
  | c :: r => if isFloatSuffix c then ([c], r) else ([], c :: r)

/-- A decimal literal is a `float` with a suffix, else a `double` with a point, else an
`int`. -/
def decimalKind (fraction suffix : List Char) : TokenKind :=
  if suffix ≠ [] then .floatLiteral
  else if fraction ≠ [] then .doubleLiteral
  else .intLiteral

/-- The decimal literal with first digit `d`, before the text `r`. -/
def scanDecimal (d : Char) (r : List Char) : Scanned :=
  let digits := r.takeWhile Char.isDigit
  let fraction := splitFraction (r.dropWhile Char.isDigit)
  let suffix := splitFloatSuffix fraction.2
  ⟨decimalKind fraction.1 suffix.1, d :: (digits ++ fraction.1 ++ suffix.1), suffix.2⟩

/-- The numeric literal with first digit `d`, before the text `r`. -/
def scanNumber (d : Char) (r : List Char) : Scanned :=
  match r with
  | [] => scanDecimal d []
  | x :: r =>
    if d = '0' ∧ isHexMark x then
      ⟨.intLiteral, d :: x :: r.takeWhile isHexDigit, r.dropWhile isHexDigit⟩
    else scanDecimal d (x :: r)

/-- The fraction is a front of the text. -/
theorem splitFraction_append (cs : List Char) :
    (splitFraction cs).1 ++ (splitFraction cs).2 = cs := by
  unfold splitFraction
  split
  · rfl
  · split <;> simp

/-- The suffix is a front of the text. -/
theorem splitFloatSuffix_append (cs : List Char) :
    (splitFloatSuffix cs).1 ++ (splitFloatSuffix cs).2 = cs := by
  unfold splitFloatSuffix
  split
  · rfl
  · split <;> simp

/-- A decimal literal is a front of the text, its first digit included. -/
theorem scanDecimal_splits (d : Char) (r : List Char) : (scanDecimal d r).Splits (d :: r) where
  append := by
    simp [scanDecimal, splitFloatSuffix_append, splitFraction_append]
  nonempty := by simp [scanDecimal]

/-- A numeric literal of either base is a front of the text. -/
theorem scanNumber_splits (d : Char) (r : List Char) : (scanNumber d r).Splits (d :: r) := by
  unfold scanNumber
  split
  · exact scanDecimal_splits d []
  · split
    · exact ⟨by simp, by simp⟩
    · exact scanDecimal_splits d _

end LooseC
