import LooseC.Parse.Basic

/-!
# Statements

Four statements have structure, those that shape the flow of control, and so has a block. Any
other statement is one node from its first token through the next semicolon, wherever that
stands:

```text
statement ::= block | if | while | for | do | any tokens ";"
block     ::= "{" statement* "}"
if        ::= "if" guard statement ["else" statement]
while     ::= "while" guard statement
for       ::= "for" guard statement
do        ::= "do" statement "while" guard ";"
guard     ::= "(" any tokens ")"
```

A guard ends at the parenthesis that closes its first one. The productions take the production
for a nested statement as an argument; `statement` ties the knot.
-/

set_option autoImplicit false

namespace LooseC.Parse

/-- The tokens between the parentheses at the cursor, as an expression. -/
def guardExpression (owner : GuardOwner) : Parse Node := do
  require (·.nextIs .lparen) (.missingGuard owner)
  let opening ← position
  let closing ← find (·.findMatching .lparen .rparen) .unclosedGuard
  let inside ← span (opening + 1) closing
  seek (closing + 1)
  return .leaf .expression inside

/-- A keyword, its guard and one statement: the guard and the statement. -/
def guarded (statement : Parse Node) (keyword : GuardKeyword) : Parse (List Node) := do
  let _ ← consume
  let condition ← guardExpression (.keyword keyword)
  note (.guard keyword condition.span)
  let body ← statement
  return [condition, body]

/-- The statement after `else`, if an `else` follows. -/
def elseBranch (statement : Parse Node) : Parse (List Node) := do
  if ← optional .kwElse then
    return [← statement]
  else
    return []

/-- An `if` statement. Its children are the condition, the statement for the case that it
holds, and the statement after `else` if there is one. -/
def ifStatement (statement : Parse Node) : Parse Node := do
  let start ← position
  let children ← guarded statement .kwIf
  let otherwise ← elseBranch statement
  return ⟨.ifStatement, ← spanFrom start, children ++ otherwise⟩

/-- A `while` or a `for` statement. Its children are the guard and the body. -/
def loopStatement (statement : Parse Node) (keyword : GuardKeyword) : Parse Node := do
  let start ← position
  let children ← guarded statement keyword
  return ⟨keyword.statementKind, ← spanFrom start, children⟩

/-- A `do` statement. Its children are the body and the condition. -/
def doWhileStatement (statement : Parse Node) : Parse Node := do
  let start ← position
  let _ ← consume
  let body ← statement
  let _ ← take .kwWhile .missingWhile
  let condition ← guardExpression .doWhile
  let _ ← expect .semi
  return ⟨.doWhileStatement, ← spanFrom start, [body, condition]⟩

/-- Neither the end of the list nor the end of a block follows. -/
def inBlock (c : Cursor) : Bool := !c.atEnd && !c.nextIs .rbrace

/-- A block. Its children are the statements in it. -/
def block (statement : Parse Node) : Parse Node := do
  let start ← position
  let _ ← expect .lbrace
  let statements ← many inBlock statement
  let _ ← expect .rbrace
  return ⟨.block, ← spanFrom start, statements⟩

/-- A statement without structure, through the next semicolon. -/
def plainStatement : Parse Node := do
  let start ← position
  let semi ← find (·.findNext .semi) .unclosedStatement
  let whole ← span start (semi + 1)
  seek (semi + 1)
  return .leaf .statement whole

/-- A statement, in terms of the production for the statements nested in it. Its first token
decides which one it is. -/
def statementBody (statement : Parse Node) : Parse Node := do
  require (!·.atEnd) .missingStatement
  let first ← peek
  match first.kind with
  | .lbrace => block statement
  | .kwIf => ifStatement statement
  | .kwWhile => loopStatement statement .kwWhile
  | .kwFor => loopStatement statement .kwFor
  | .kwDo => doWhileStatement statement
  | _ => plainStatement

/-- A statement. -/
def statement : Parse Node := fix statementBody

end LooseC.Parse
