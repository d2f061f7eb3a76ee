import LooseC.Dump.Tree
import LooseC.Token.Basic

/-!
# Token dumps

A token dump has one line per token: kind, lexeme, row and column, separated by colons, with
row and column counted from zero.
-/

set_option autoImplicit false

namespace LooseC

/-- The line of one token, without the newline. Without colours it is the text form of the
token. -/
def tokenLine (wrap : Wrapping) (options : DumpOptions) (t : Token) : String :=
  if options.colour then
    wrap (.colour Palette.standard.comment) t.kind.name ++ ":" ++
      wrap (.colour (Palette.standard.token t.kind.category)) t.lexeme ++ ":" ++
      wrap (.colour Palette.standard.position) (toString t.position)
  else toString t

/-- The dump of a token list. -/
def dumpTokens (wrap : Wrapping) (options : DumpOptions) (ts : List Token) : String :=
  String.join (ts.map fun t => tokenLine wrap options t ++ "\n")

end LooseC
