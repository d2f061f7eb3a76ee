import LooseC.Dump.Style
import LooseC.Tree.Walk

/-!
# Tree dumps

A tree dump has one line per node in pre-order. A line is indented by the depth of the node and
shows its kind and, in brackets, the lexeme of its first token:

```text
UNIT[int]
  DECLARATION[int]
    TYPE[int]
```

The brackets are empty if the node covers no token. The place of the first token can be shown
after them, with row and column counted from one.
-/

set_option autoImplicit false

namespace LooseC

/-- How a dump is laid out. -/
structure DumpOptions where
  /-- The number of spaces per level of the tree. -/
  indent : Nat := 2
  /-- Show the place of each node's first token. -/
  positions : Bool := false
  /-- Use colours. -/
  colour : Bool := false
deriving DecidableEq

/-- The suffix that shows a place, a blank included. -/
def positionSuffix (p : Position) : String := s!" @{p.line}:{p.lineColumn}"

/-- The colour of the lexeme in brackets. Without a token there is only empty text to colour. -/
def lexemeColour : Option Token → Colour
  | some t => Palette.standard.token t.kind.category
  | none => Palette.standard.foreground

/-- The front of a node's line: its kind and, in brackets, its first lexeme, with and without
colours. -/
def treeLineFront (wrap : Wrapping) (options : DumpOptions) (ts : List Token) (v : Visit) :
    String :=
  let indent := String.ofList (List.replicate (v.depth * options.indent) ' ')
  let label := v.node.kind.name
  let lexeme := v.node.firstLexeme ts
  if options.colour then
    indent ++ wrap (.colourBold (Palette.standard.node v.node.kind)) label ++ "[" ++
      wrap (.colour (lexemeColour (v.node.firstToken? ts))) lexeme ++ "]"
  else
    indent ++ label ++ "[" ++ lexeme ++ "]"

/-- The suffix of a node's line: the place of its first token, if it is shown and there is
one. -/
def treeLineSuffix (wrap : Wrapping) (options : DumpOptions) (first : Option Token) : String :=
  if options.positions then
    match first with
    | some t =>
      let place := positionSuffix t.position
      if options.colour then wrap (.colour Palette.standard.position) place else place
    | none => ""
  else ""

/-- The line of one node, without the newline. -/
def treeLine (wrap : Wrapping) (options : DumpOptions) (ts : List Token) (v : Visit) : String :=
  treeLineFront wrap options ts v ++ treeLineSuffix wrap options (v.node.firstToken? ts)

/-- The dump of a tree over a token list. -/
def dumpTree (wrap : Wrapping) (options : DumpOptions) (tree : Node) (ts : List Token) : String :=
  String.join (tree.walk.map fun v => treeLine wrap options ts v ++ "\n")

end LooseC
