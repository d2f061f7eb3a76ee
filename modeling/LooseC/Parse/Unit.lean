import LooseC.Parse.Declaration

/-!
# Units

A unit is a sequence of directives and declarations. A directive is everything on
its row from its first token on: the row a token *starts* on decides, so a comment or a
literal over several rows does not end it.

`parse` reads a whole token list as one unit. The first fault ends the parse, and no part of a
tree is kept.
-/

set_option autoImplicit false

namespace LooseC

namespace Parse

/-- A token on the given row follows. -/
def nextOnRow (row : Nat) (c : Cursor) : Bool :=
  (c.peek?.map fun t => t.position.row) == some row

/-- A directive: one token, and every token that follows on its row. -/
def directive (kind : NodeKind) : Parse Node := do
  let start ← position
  let first ← consume
  let _ ← many (nextOnRow first.position.row) consume
  return .leaf kind (← spanFrom start)

/-- The kinds of token that begin a declaration. -/
def beginsDeclaration (kind : TokenKind) : Bool :=
  kind.isType || kind == .kwStruct || kind == .identifier

/-- A directive or a declaration. -/
def topLevel : Parse Node := do
  let first ← peek
  if first.kind = .includeDirective then directive .includeDirective
  else if first.kind = .defineDirective then directive .defineDirective
  else if beginsDeclaration first.kind then declaration
  else fail (.unknownConstruct first.kind)

/-- A token follows. -/
def inUnit (c : Cursor) : Bool := !c.atEnd

/-- A unit. Its children are the top-level constructs. -/
def unit : Parse Node := do
  let start ← position
  let children ← many inUnit topLevel
  let whole ← spanFrom start
  let count ← ask fun c => c.tokens.length
  note (.parsedUnit children.length count)
  return ⟨.unit, whole, children⟩

end Parse

/-- The tree of a whole token list or the error that refuses it, with the events on the way. -/
def parseTraced (ts : List Token) : Traced (Except ParseError Node) :=
  let outcome := Parse.unit (.start ts)
  ⟨outcome.events,
    match outcome.answer with
    | .ok (node, _) => .ok node
    | .error failure => .error (failure.locate ts)⟩

/-- The tree of a whole token list, or the error that refuses it. -/
def parse (ts : List Token) : Except ParseError Node :=
  (parseTraced ts).value

end LooseC
