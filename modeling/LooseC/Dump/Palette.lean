import LooseC.Token.Kind
import LooseC.Tree.Kind

/-!
# Colours

A palette gives each part of a dump its colour. What a node is called is coloured by the kind
of the node and a lexeme by the category of its token.
-/

set_option autoImplicit false

namespace LooseC

/-- A colour by its red, green and blue parts, each below 256. -/
structure Colour where
  red : Nat
  green : Nat
  blue : Nat
deriving DecidableEq

/-- The colours of a dump. -/
structure Palette where
  foreground : Colour
  comment : Colour
  error : Colour
  keyword : Colour
  literal : Colour
  operator : Colour
  function : Colour
  typeName : Colour
  directive : Colour
  position : Colour

namespace Palette

/-- The one palette in use. -/
def standard : Palette where
  foreground := ⟨205, 214, 244⟩
  comment := ⟨108, 112, 134⟩
  error := ⟨243, 139, 168⟩
  keyword := ⟨137, 180, 250⟩
  literal := ⟨250, 179, 135⟩
  operator := ⟨205, 214, 244⟩
  function := ⟨249, 226, 175⟩
  typeName := ⟨148, 226, 213⟩
  directive := ⟨245, 194, 231⟩
  position := ⟨108, 112, 134⟩

/-- The colour of a node's name. -/
def node (p : Palette) : NodeKind → Colour
  | .includeDirective | .defineDirective => p.directive
  | .declaration | .declaratorList | .declarator => p.function
  | .type | .parameterList | .parameter => p.typeName
  | .ifStatement | .whileStatement | .forStatement | .doWhileStatement => p.keyword
  | .expression => p.comment
  | .unit | .block | .statement => p.foreground

/-- The colour of a lexeme. -/
def token (p : Palette) : TokenCategory → Colour
  | .directive => p.directive
  | .keyword => p.keyword
  | .typeKeyword => p.typeName
  | .literal => p.literal
  | .operator | .punctuation | .grouping => p.operator
  | .identifier => p.foreground

end Palette

end LooseC
