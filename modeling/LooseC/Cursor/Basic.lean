import LooseC.Parse.Fault

/-!
# Cursors

A cursor is a token list and a place in it. It looks at the token under it, steps over tokens,
and can be put anywhere in the list or at its end.

An operation that needs a token and does not find it fails with a `SyntaxFault`. Where the
fault is located is one rule for all operations: at the token under the cursor, or at the last
token once the cursor has passed them all (`whereToken?`, `error`).
-/

set_option autoImplicit false

namespace LooseC

/-- A place in a token list. -/
structure Cursor where
  tokens : List Token
  /-- The number of tokens before the cursor. -/
  pos : Nat

namespace Cursor

/-- The cursor at the front of a list. -/
def start (ts : List Token) : Cursor := ⟨ts, 0⟩

/-- The tokens from the cursor on. -/
def rest (c : Cursor) : List Token := c.tokens.drop c.pos

/-- The number of tokens from the cursor on. -/
def remaining (c : Cursor) : Nat := c.tokens.length - c.pos

/-- The same list with the cursor at `i`. -/
def moveTo (c : Cursor) (i : Nat) : Cursor := ⟨c.tokens, i⟩

/-- The same list with the cursor at `i`, or at the end if the list is shorter. -/
def seek (c : Cursor) (i : Nat) : Cursor := c.moveTo (min i c.tokens.length)

/-- No token is left. -/
def atEnd (c : Cursor) : Bool := decide (c.tokens.length ≤ c.pos)

/-- The token under the cursor. -/
def peek? (c : Cursor) : Option Token := c.tokens[c.pos]?

/-- The token under the cursor is of the given kind. -/
def nextIs (c : Cursor) (kind : TokenKind) : Bool :=
  (c.peek?.map Token.kind) == some kind

/-- The tokens from the cursor on begin with the given kinds. -/
def nextAre (c : Cursor) (kinds : List TokenKind) : Bool :=
  kinds.isPrefixOf (c.rest.map Token.kind)

/-- The token under the cursor, which must not be at the end. -/
def peek (c : Cursor) : Except SyntaxFault Token :=
  match c.peek? with
  | some t => .ok t
  | none => .error .unexpectedEnd

/-- Steps over one token. -/
def consume (c : Cursor) : Except SyntaxFault (Token × Cursor) :=
  match c.peek? with
  | some t => .ok (t, c.moveTo (c.pos + 1))
  | none => .error .unexpectedEnd

/-- Steps over one token of the given kind. -/
def expect (c : Cursor) (kind : TokenKind) : Except SyntaxFault (Token × Cursor) :=
  match c.peek? with
  | some t =>
    if t.kind = kind then .ok (t, c.moveTo (c.pos + 1)) else .error (.mismatch kind t.kind)
  | none => .error .unexpectedEnd

/-- The token that an error at the cursor is located at: the one under the cursor, or the last
one once no token is left. -/
def whereToken? (c : Cursor) : Option Token :=
  c.peek?.or c.tokens.getLast?

/-- The error that a fault at the cursor makes. -/
def error (c : Cursor) (fault : SyntaxFault) : ParseError :=
  ⟨fault, c.whereToken?.map Token.position, c.whereToken?.map Token.kind⟩

/-- The token under the cursor is the first one from the cursor on. -/
theorem peek?_eq_head?_rest (c : Cursor) : c.peek? = c.rest.head? := by
  simp [peek?, rest, List.head?_drop]

end Cursor

end LooseC
