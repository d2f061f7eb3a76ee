import LooseC.Text.Alphabetic
import LooseC.Text.Numeric
import LooseC.Token.Scanned

/-!
# Words and directives

A word begins with an alphabetic character or an underscore and runs on over alphabetic and
numeric characters and underscores. Sixteen words are reserved; every other word is an
identifier. A directive begins with a hash sign and runs on over hash signs and alphabetic
characters, so that it ends at a digit or an underscore.
-/

set_option autoImplicit false

namespace LooseC

/-- The characters a word may begin with. -/
def isWordStart (c : Char) : Bool := isAlphabetic c || c == '_'

/-- The characters a word may run on with. -/
def isWordPart (c : Char) : Bool := isAlphabetic c || isNumeric c || c == '_'

/-- The characters a directive may run on with. -/
def isDirectivePart (c : Char) : Bool := c == '#' || isAlphabetic c

/-- The kind of a whole word. -/
def wordKind (word : String) : TokenKind :=
  (List.lookup word
    [("if", .kwIf), ("else", .kwElse), ("for", .kwFor), ("while", .kwWhile), ("do", .kwDo),
     ("struct", .kwStruct), ("void", .tyVoid), ("short", .tyShort), ("long", .tyLong),
     ("signed", .tySigned), ("unsigned", .tyUnsigned), ("int", .tyInt), ("char", .tyChar),
     ("float", .tyFloat), ("double", .tyDouble), ("bool", .tyBool)]).getD .identifier

/-- The kind of a whole directive word, hash sign included. -/
def directiveKind (word : String) : TokenKind :=
  (List.lookup word
    [("#define", .defineDirective), ("#include", .includeDirective)]).getD .unknownDirective

/-- The word with first character `c`, before the text `r`. -/
def scanWord (c : Char) (r : List Char) : Scanned :=
  let word := c :: r.takeWhile isWordPart
  ⟨wordKind (String.ofList word), word, r.dropWhile isWordPart⟩

/-- The directive whose hash sign stands before `r`. -/
def scanDirective (r : List Char) : Scanned :=
  let word := '#' :: r.takeWhile isDirectivePart
  ⟨directiveKind (String.ofList word), word, r.dropWhile isDirectivePart⟩

/-- A word is a front of the text. -/
theorem scanWord_splits (c : Char) (r : List Char) : (scanWord c r).Splits (c :: r) :=
  ⟨by simp [scanWord], by simp [scanWord]⟩

/-- A directive is a front of the text, its hash included. -/
theorem scanDirective_splits (r : List Char) : (scanDirective r).Splits ('#' :: r) :=
  ⟨by simp [scanDirective], by simp [scanDirective]⟩

end LooseC
