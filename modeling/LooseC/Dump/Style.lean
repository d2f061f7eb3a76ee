import LooseC.Dump.Palette

/-!
# Styled text

What a text in a style is written as is up to the terminal. A `Wrapping` says so for each style and
each text, and an output with colours is described with one. The standard wrapping puts the text
between two escape sequences, one that switches the style on and one that switches it off. Empty
text gets them too.
-/

set_option autoImplicit false

namespace LooseC

/-- The escape sequence with the given parameters. -/
def styleCode (parameters : String) : String := "\x1b[" ++ parameters ++ "m"

/-- The escape sequence that switches a foreground colour on. -/
def Colour.code (c : Colour) : String :=
  styleCode s!"38;2;{c.red};{c.green};{c.blue}"

/-- How a piece of text is set off. -/
inductive Style where
  | colour (c : Colour)
  | colourBold (c : Colour)
  | bold

/-- What switches the style on. -/
def Style.on : Style → String
  | .colour c => c.code
  | .colourBold c => c.code ++ styleCode "1"
  | .bold => styleCode "1"

/-- What switches the style off. Only the plain colour can be switched off alone. -/
def Style.off : Style → String
  | .colour _ => styleCode "39"
  | .colourBold _ => styleCode "0"
  | .bold => styleCode "0"

/-- What a text in a style is written as. -/
abbrev Wrapping := Style → String → String

/-- The text between the sequences that switch its style on and off. -/
def Wrapping.standard : Wrapping := fun style text => style.on ++ text ++ style.off

end LooseC
