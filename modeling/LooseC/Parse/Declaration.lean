import LooseC.Parse.Statement

/-!
# Declarations

A declaration is a type and declarators. The last declarator may be the declaration of a
function, which ends with its own semicolon, or the definition of one, which ends with its
body; otherwise a semicolon follows:

```text
declaration    ::= type declarators [";"]
type           ::= type-word+ | "struct" name | name
declarators    ::= declarator ("," declarator)*
declarator     ::= name [parameters (";" | block)] | name "=" any tokens
parameters     ::= "(" (parameter [","])* ")"
parameter      ::= type [name]
```

Nothing is known about names, so any name may stand for a type. An initializer ends at the
first comma or semicolon outside brackets. Commas between parameters are optional.
-/

set_option autoImplicit false

namespace LooseC.Parse

/-- A type word follows. -/
def nextIsTypeWord (c : Cursor) : Bool :=
  (c.peek?.map fun t => t.kind.isType) == some true

/-- The tokens of a type: a run of type words, `struct` and a name, or a name. -/
def typeTokens : Parse Unit := do
  let first ← peek
  if first.kind.isType then
    let _ ← many nextIsTypeWord consume
    return ()
  else if first.kind = .kwStruct then
    let _ ← consume
    let _ ← take .identifier .badStructType
    return ()
  else
    let _ ← take .identifier .badType
    return ()

/-- A type. -/
def type : Parse Node := do
  let start ← position
  typeTokens
  return .leaf .type (← spanFrom start)

/-- A parameter: a type and perhaps a name. Its one child is the type. -/
def parameter : Parse Node := do
  let start ← position
  let itsType ← type
  let _ ← optional .identifier
  return ⟨.parameter, ← spanFrom start, [itsType]⟩

/-- A parameter and the comma after it, if one follows. -/
def parameterAndComma : Parse Node := do
  let node ← parameter
  let _ ← optional .comma
  return node

/-- The end of the parameter list does not follow. The end of the token list may. -/
def inParameters (c : Cursor) : Bool := !c.nextIs .rparen

/-- A parenthesised parameter list. Its children are the parameters. -/
def parameterList : Parse Node := do
  let start ← position
  let _ ← expect .lparen
  let parameters ← many inParameters parameterAndComma
  let _ ← expect .rparen
  return ⟨.parameterList, ← spanFrom start, parameters⟩

/-- The kinds of token that end an initializer. -/
def endsInitializer (t : Token) : Bool := t.kind == .comma || t.kind == .semi

/-- The initializer after an equals sign, up to the next comma or semicolon outside brackets,
as an expression. -/
def initializer : Parse Node := do
  let _ ← expect .assign
  let start ← position
  let stop ← find (·.findAtSameLevel endsInitializer) .unclosedInitializer
  seek stop
  return .leaf .expression (← spanFrom start)

/-- What follows the parameters of a function: a semicolon, or a block. -/
def functionEnd : Parse (List Node) := do
  if ← optional .semi then
    return []
  else if ← nextIs .lbrace then
    return [← block statement]
  else
    fail .afterParameters

/-- What follows the name in a declarator, and whether it ended the declaration: the parameter
list and the body of a function, or the initializer of a variable, or nothing. -/
def declaratorRest : Parse (List Node × Bool) := do
  if ← nextIs .lparen then
    let parameters ← parameterList
    let body ← functionEnd
    return (parameters :: body, true)
  else if ← nextIs .assign then
    return ([← initializer], false)
  else
    return ([], false)

/-- A declarator, and whether it ended the declaration. -/
def declarator : Parse (Node × Bool) := do
  let start ← position
  let _ ← take .identifier .unknownDeclarator
  let rest ← declaratorRest
  return (⟨.declarator, ← spanFrom start, rest.1⟩, rest.2)

/-- Declarators separated by commas, and whether the last one ended the declaration, in terms
of the production for those after a comma. No declarator follows one that did. -/
def declaratorsBody (more : Parse (List Node × Bool)) : Parse (List Node × Bool) := do
  let first ← declarator
  if first.2 then
    return ([first.1], true)
  else if ← optional .comma then
    let later ← more
    return (first.1 :: later.1, later.2)
  else
    return ([first.1], false)

/-- Declarators separated by commas, and whether the last one ended the declaration. -/
def declarators : Parse (List Node × Bool) := fix declaratorsBody

/-- A list of declarators, and whether the last one ended the declaration. -/
def declaratorList : Parse (Node × Bool) := do
  let start ← position
  let list ← declarators
  return (⟨.declaratorList, ← spanFrom start, list.1⟩, list.2)

/-- The semicolon of a declaration that its last declarator has not ended. -/
def declarationEnd (ended : Bool) : Parse Unit := do
  if ended then
    return ()
  else if ← optional .semi then
    return ()
  else
    let found ← ask fun c => c.peek?.map Token.kind
    fail (.missingSemicolon found)

/-- A declaration. Its children are the type and the list of declarators. -/
def declaration : Parse Node := do
  let start ← position
  let itsType ← type
  let list ← declaratorList
  declarationEnd list.2
  let whole ← spanFrom start
  note (.declaration whole)
  return ⟨.declaration, whole, [itsType, list.1]⟩

end LooseC.Parse
