import LooseC.Token.Basic
import LooseC.Tree.Guard

/-!
# Parse errors

`SyntaxFault` says why a token list is refused and `ParseError` adds where. An error is
located at one token of the list, so it has no place only if the list is empty. The wording is
in `SyntaxFault.message`.
-/

set_option autoImplicit false

namespace LooseC

/-- The reasons why a token list is refused. -/
inductive SyntaxFault where
  /-- A token is needed and none is left. -/
  | unexpectedEnd
  /-- A token of one kind is needed and one of another kind follows. -/
  | mismatch (wanted found : TokenKind)
  /-- No top-level construct begins with this kind of token. -/
  | unknownConstruct (found : TokenKind)
  /-- The word in front of a guard is not followed by an opening parenthesis. -/
  | missingGuard (owner : GuardOwner)
  /-- The parenthesis that opens a guard is never closed. -/
  | unclosedGuard
  /-- A declaration is not ended by a semicolon. The kind is that of the token found instead,
  if any is left. -/
  | missingSemicolon (found : Option TokenKind)
  /-- The word `struct` is not followed by a name. -/
  | badStructType
  /-- No type begins here. -/
  | badType
  /-- No declarator begins here. -/
  | unknownDeclarator
  /-- A parameter list is followed neither by a semicolon nor by a body. -/
  | afterParameters
  /-- No comma or semicolon ends an initializer. -/
  | unclosedInitializer
  /-- A statement is needed and no token is left. -/
  | missingStatement
  /-- The body of a `do` statement is not followed by `while`. -/
  | missingWhile
  /-- No semicolon ends a statement. -/
  | unclosedStatement
  /-- An error that somebody else found, in their words. -/
  | reported (message : String)
  /-- A repetition came round without taking a token. -/
  | stalled
  /-- A position past the end of the list was asked for. -/
  | seekPastEnd
  /-- A span would end before it starts. -/
  | reversedSpan
deriving DecidableEq

/-- The wording of a fault. -/
def SyntaxFault.message : SyntaxFault → String
  | .unexpectedEnd => "Unexpected end of input"
  | .mismatch wanted found => s!"Expected {wanted}, saw {found}"
  | .unknownConstruct found => s!"Unknown construct at {found}"
  | .missingGuard owner => s!"{owner.description} not followed by left paren"
  | .unclosedGuard => "Could not find matching right parenthesis"
  | .missingSemicolon (some found) => s!"Expected ';' after declaration, found {found}"
  | .missingSemicolon none => "Expected ';' after declaration, found end of input"
  | .badStructType => "Bad struct type"
  | .badType => "Bad type"
  | .unknownDeclarator => "Unknown declarator"
  | .afterParameters => "Unexpected token following parameter list"
  | .unclosedInitializer => "Could not find end of initializer"
  | .missingStatement => "Unexpected end of input looking for statement"
  | .missingWhile => "Missing while after body of do/while"
  | .unclosedStatement => "Could not find semicolon terminating statement"
  | .reported message => message
  | .stalled => "Repetition takes no token"
  | .seekPastEnd => "Position past end of input"
  | .reversedSpan => "Span ends before it starts"

/-- A fault and its place. -/
structure ParseError where
  fault : SyntaxFault
  /-- The place of the token that the error is located at. -/
  position : Option Position
  /-- The kind of that token. -/
  found : Option TokenKind
deriving DecidableEq

namespace ParseError

/-- The wording of the fault, without the place. -/
def message (e : ParseError) : String := e.fault.message

/-- The line of the error, counted from one. -/
def line? (e : ParseError) : Option Nat := e.position.map Position.line

/-- The place as a message names it. -/
def location (e : ParseError) : String :=
  match e.position, e.found with
  | some p, some kind => s!"line {p.line} ({kind})"
  | some p, none => s!"line {p.line}"
  | none, _ => "end of input"

end ParseError

/-- A parse error is shown with its location, if it has one. -/
instance : ToString ParseError where
  toString e := s!"Parse error at {e.location}: {e.message}"

end LooseC
