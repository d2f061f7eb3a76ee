import LooseC.Cursor.Basic

/-!
# Searches from a cursor

Three searches find a token further on and answer its index in the whole list. They skip what
the parser does not take apart: `findNext` the tokens of a statement, `findMatching` those of
a guard, `findAtSameLevel` those of an initializer.

Each search is a function on the tokens from the cursor on. Its answer counts from there.
-/

set_option autoImplicit false

namespace LooseC

/-- The index of the bracket that closes an open one. Of the brackets opened since, `depth`
are still open. A kind that is both opening and closing counts as opening. -/
def closingIndex? (opening closing : TokenKind) : (depth : Nat) → List Token → Option Nat
  | _, [] => none
  | depth, t :: ts =>
    if t.kind = opening then (closingIndex? opening closing (depth + 1) ts).map (· + 1)
    else if t.kind = closing then
      match depth with
      | 0 => some 0
      | depth + 1 => (closingIndex? opening closing depth ts).map (· + 1)
    else (closingIndex? opening closing depth ts).map (· + 1)

/-- How many more brackets of each shape have been opened than closed. A stray closing bracket
makes a count negative, and a later opening bracket of that shape then only makes up for it. -/
structure Nesting where
  parens : Int
  brackets : Int
  braces : Int
deriving DecidableEq

namespace Nesting

/-- Nothing opened or closed yet. -/
def none : Nesting := ⟨0, 0, 0⟩

/-- No bracket is open, as the counts have it. -/
def isOutside (n : Nesting) : Bool :=
  decide (n.parens ≤ 0) && decide (n.brackets ≤ 0) && decide (n.braces ≤ 0)

/-- The counts after one more token. -/
def step (n : Nesting) : TokenKind → Nesting
  | .lparen => { n with parens := n.parens + 1 }
  | .rparen => { n with parens := n.parens - 1 }
  | .lbracket => { n with brackets := n.brackets + 1 }
  | .rbracket => { n with brackets := n.brackets - 1 }
  | .lbrace => { n with braces := n.braces + 1 }
  | .rbrace => { n with braces := n.braces - 1 }
  | _ => n

end Nesting

/-- The index of the first token that satisfies `p` with no bracket open before it. -/
def sameLevelIndex? (p : Token → Bool) : Nesting → List Token → Option Nat
  | _, [] => none
  | nesting, t :: ts =>
    if nesting.isOutside && p t then some 0
    else (sameLevelIndex? p (nesting.step t.kind) ts).map (· + 1)

namespace Cursor

/-- The index of the first token of the given kind, the one under the cursor included. -/
def findNext (c : Cursor) (kind : TokenKind) : Option Nat :=
  (c.rest.findIdx? fun t => t.kind == kind).map (c.pos + ·)

/-- The index of the bracket that closes the one under the cursor. There is none if the token
under the cursor is not an opening bracket of that shape, or if the list ends first. -/
def findMatching (c : Cursor) (opening closing : TokenKind) : Option Nat :=
  match c.rest with
  | [] => none
  | t :: ts =>
    if t.kind = opening then
      (closingIndex? opening closing 0 ts).map fun i => c.pos + 1 + i
    else none

/-- The index of the first token that satisfies `p` and lies in no bracket opened since the
cursor. -/
def findAtSameLevel (c : Cursor) (p : Token → Bool) : Option Nat :=
  (sameLevelIndex? p .none c.rest).map (c.pos + ·)

end Cursor

end LooseC
