import LooseC.Token.Fault
import LooseC.Token.Kind

/-!
# One token off the front of a text

The readers of single tokens work on characters alone: they know nothing of rows and columns.
A success splits the text into the token's characters and the rest (`Scanned.Splits`). A
failure names the characters that stand before the place it is reported at, so the caller
finds the place by passing them.
-/

set_option autoImplicit false

namespace LooseC

/-- A token read off the front of a text. -/
structure Scanned where
  kind : TokenKind
  /-- The characters of the token. -/
  lexeme : List Char
  /-- The text after the token. -/
  rest : List Char

/-- The token is not empty, and its characters and the rest make up the text `cs`. -/
structure Scanned.Splits (s : Scanned) (cs : List Char) : Prop where
  append : s.lexeme ++ s.rest = cs
  nonempty : s.lexeme ≠ []

/-- What follows a token is shorter than the text the token was read from. -/
theorem Scanned.Splits.length_rest_lt {s : Scanned} {cs : List Char} (h : s.Splits cs) :
    s.rest.length < cs.length := by
  have hpos := List.length_pos_iff.mpr h.nonempty
  rw [← h.append, List.length_append]
  omega

/-- The front of a text is no token. -/
structure ScanFailure where
  fault : LexFault
  /-- The characters between the front of the text and the place of the fault. -/
  passed : List Char

end LooseC
