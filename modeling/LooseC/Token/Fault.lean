import LooseC.Position
import LooseC.Text.Escape

/-!
# Lexical errors

`LexFault` says why no token can be read and `LexError` adds where. The wording is in
`LexFault.message`.
-/

set_option autoImplicit false

namespace LooseC

/-- The two quoted literals, which alone can be left unfinished. -/
inductive QuotedLiteral where
  | char | string
deriving DecidableEq

/-- What a message calls the literal. -/
def QuotedLiteral.description : QuotedLiteral → String
  | .char => "character literal"
  | .string => "string literal"

/-- The reasons why no token can be read. -/
inductive LexFault where
  /-- No token begins with this character. -/
  | unrecognized (c : Char)
  /-- The text ends inside a literal. -/
  | unfinished (literal : QuotedLiteral)
  /-- The body of a character literal is followed by `c` in place of the closing quote. -/
  | unclosedChar (c : Char)
  /-- An error that somebody else found, in their words. -/
  | reported (message : String)
deriving DecidableEq

/-- The wording of a lexical fault. -/
def LexFault.message : LexFault → String
  | .unrecognized c => "Unrecognized character '" ++ escapeChar c ++ "'"
  | .unfinished literal => s!"Unexpected end of input in {literal.description}"
  | .unclosedChar c =>
    "Unexpected character '" ++ escapeChar c ++ "' in character literal"
  | .reported message => message

/-- A lexical fault and its place. -/
structure LexError where
  fault : LexFault
  position : Position
deriving DecidableEq

/-- The wording of the fault, without the place. -/
def LexError.message (e : LexError) : String :=
  e.fault.message

/-- A lexical error is shown with its line and column, both counted from one. -/
instance : ToString LexError where
  toString e :=
    s!"Lexer error at line {e.position.line}, column {e.position.lineColumn}: {e.message}"

end LooseC
