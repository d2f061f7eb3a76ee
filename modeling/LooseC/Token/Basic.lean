import LooseC.Position
import LooseC.Token.Kind

/-!
# Tokens

A token is a kind, the characters it was read from, and the place of the first of them.
-/

set_option autoImplicit false

namespace LooseC

/-- One token of a source text. -/
structure Token where
  kind : TokenKind
  /-- The characters of the token, exactly as they stand in the source. -/
  lexeme : String
  /-- The place of the first character. -/
  position : Position
deriving DecidableEq

/-- Kind, lexeme and zero-based position, separated by colons. -/
instance : ToString Token where
  toString t := s!"{t.kind}:{t.lexeme}:{t.position}"

end LooseC
