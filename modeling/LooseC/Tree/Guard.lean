import LooseC.Tree.Kind

/-!
# Guards

A guard is the parenthesised part of a control-flow statement: a condition or a loop header.
In an `if`, a `while` and a `for` statement it follows the keyword; in a `do` statement it
closes the statement.
-/

set_option autoImplicit false

namespace LooseC

/-- The keywords that a guard and one body statement follow. -/
inductive GuardKeyword where
  | kwIf | kwWhile | kwFor
deriving DecidableEq

/-- The keyword as it is written. -/
def GuardKeyword.text : GuardKeyword → String
  | .kwIf => "if"
  | .kwWhile => "while"
  | .kwFor => "for"

/-- The statement that the keyword opens. -/
def GuardKeyword.statementKind : GuardKeyword → NodeKind
  | .kwIf => .ifStatement
  | .kwWhile => .whileStatement
  | .kwFor => .forStatement

/-- What a guard belongs to. -/
inductive GuardOwner where
  | keyword (k : GuardKeyword)
  | doWhile
deriving DecidableEq

/-- What a message calls the word in front of the guard. -/
def GuardOwner.description : GuardOwner → String
  | .keyword k => s!"{k.text} keyword"
  | .doWhile => "while of do/while"

end LooseC
