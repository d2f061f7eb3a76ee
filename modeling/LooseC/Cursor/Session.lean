import LooseC.Cursor.Search

/-!
# Sequences of cursor operations

`Cursor.Op` is one operation on a cursor as a value, and `Cursor.session` the answers to a
sequence of them, each with the position that the operation leaves behind. A failed operation
leaves the cursor where it was.
-/

set_option autoImplicit false

namespace LooseC.Cursor

/-- One operation on a cursor. -/
inductive Op where
  | peek
  | consume
  | expect (kind : TokenKind)
  | pos
  | len
  | seek (i : Nat)
  | atEnd
  | nextIs (kind : TokenKind)
  | nextAre (kinds : List TokenKind)
  | findNext (kind : TokenKind)
  | findMatching (opening closing : TokenKind)
  | findAtSameLevel (kinds : List TokenKind)
  | whereToken
  | error (message : String)
deriving DecidableEq

/-- The answer to one operation. -/
inductive Answer where
  | done
  | token (t : Option Token)
  | index (i : Option Nat)
  | flag (b : Bool)
  | error (e : ParseError)
deriving DecidableEq

/-- The answer of an operation that steps over a token, and the cursor after it. -/
def ofStep (c : Cursor) : Except SyntaxFault (Token × Cursor) → Answer × Cursor
  | .ok (t, next) => (.token (some t), next)
  | .error fault => (.error (c.error fault), c)

/-- One operation: its answer and the cursor after it. -/
def apply (c : Cursor) : Op → Answer × Cursor
  | .peek =>
    match c.peek with
    | .ok t => (.token (some t), c)
    | .error fault => (.error (c.error fault), c)
  | .consume => c.ofStep c.consume
  | .expect kind => c.ofStep (c.expect kind)
  | .pos => (.index (some c.pos), c)
  | .len => (.index (some c.tokens.length), c)
  | .seek i => (.done, c.seek i)
  | .atEnd => (.flag c.atEnd, c)
  | .nextIs kind => (.flag (c.nextIs kind), c)
  | .nextAre kinds => (.flag (c.nextAre kinds), c)
  | .findNext kind => (.index (c.findNext kind), c)
  | .findMatching opening closing => (.index (c.findMatching opening closing), c)
  | .findAtSameLevel kinds => (.index (c.findAtSameLevel fun t => kinds.contains t.kind), c)
  | .whereToken => (.token c.whereToken?, c)
  | .error message => (.error (c.error (.reported message)), c)

/-- The answers to a sequence of operations, each with the cursor after it. -/
def session (c : Cursor) : List Op → List (Answer × Cursor)
  | [] => []
  | op :: ops => c.apply op :: (c.apply op).2.session ops

end LooseC.Cursor
