/-!
# Kinds of tokens

The kinds that the lexer tells apart, the upper-case name of each, and the broad category that
decides how a lexeme is coloured. `ofName?_name` says that a name identifies its kind.
-/

set_option autoImplicit false

namespace LooseC

/-- What a token is. The parser looks at nothing else of a token, apart from the row test that
ends a directive. -/
inductive TokenKind where
  -- directives
  | defineDirective | includeDirective | unknownDirective
  -- words that shape statements and types
  | kwIf | kwElse | kwFor | kwWhile | kwDo | kwStruct
  -- words that name a type
  | tyVoid | tyInt | tyShort | tyLong | tySigned | tyUnsigned | tyChar | tyFloat | tyDouble
  | tyBool
  -- operators
  | eq | ne | lt | gt | lte | gte
  | plus | minus | times | divide | mod
  | not | and | or | bitAnd | bitOr
  | assign | assignPlus | assignMinus | assignTimes | assignDivide | assignMod | assignBitAnd
  | assignBitOr
  | increment | decrement
  -- separators
  | semi | colon | comma | dot
  -- brackets
  | lparen | rparen | lbracket | rbracket | lbrace | rbrace
  -- literals
  | intLiteral | floatLiteral | doubleLiteral | charLiteral | stringLiteral
  | identifier
deriving DecidableEq

/-- The broad class of a token kind. -/
inductive TokenCategory where
  | directive | keyword | typeKeyword | operator | punctuation | grouping | literal | identifier
deriving DecidableEq

namespace TokenKind

/-- Every kind, in the order of declaration. -/
def all : List TokenKind :=
  [.defineDirective, .includeDirective, .unknownDirective,
   .kwIf, .kwElse, .kwFor, .kwWhile, .kwDo, .kwStruct,
   .tyVoid, .tyInt, .tyShort, .tyLong, .tySigned, .tyUnsigned, .tyChar, .tyFloat, .tyDouble,
   .tyBool,
   .eq, .ne, .lt, .gt, .lte, .gte,
   .plus, .minus, .times, .divide, .mod,
   .not, .and, .or, .bitAnd, .bitOr,
   .assign, .assignPlus, .assignMinus, .assignTimes, .assignDivide, .assignMod, .assignBitAnd,
   .assignBitOr,
   .increment, .decrement,
   .semi, .colon, .comma, .dot,
   .lparen, .rparen, .lbracket, .rbracket, .lbrace, .rbrace,
   .intLiteral, .floatLiteral, .doubleLiteral, .charLiteral, .stringLiteral,
   .identifier]

/-- The name under which a kind appears in dumps and messages. -/
def name : TokenKind → String
  | .defineDirective => "DEFINE"
  | .includeDirective => "INCLUDE"
  | .unknownDirective => "UNKNOWN_PREPROC"
  | .kwIf => "IF"
  | .kwElse => "ELSE"
  | .kwFor => "FOR"
  | .kwWhile => "WHILE"
  | .kwDo => "DO"
  | .kwStruct => "STRUCT"
  | .tyVoid => "VOID"
  | .tyInt => "INT"
  | .tyShort => "SHORT"
  | .tyLong => "LONG"
  | .tySigned => "SIGNED"
  | .tyUnsigned => "UNSIGNED"
  | .tyChar => "CHAR"
  | .tyFloat => "FLOAT"
  | .tyDouble => "DOUBLE"
  | .tyBool => "BOOL"
  | .eq => "EQ"
  | .ne => "NE"
  | .lt => "LT"
  | .gt => "GT"
  | .lte => "LTE"
  | .gte => "GTE"
  | .plus => "PLUS"
  | .minus => "MINUS"
  | .times => "TIMES"
  | .divide => "DIVIDE"
  | .mod => "MOD"
  | .not => "NOT"
  | .and => "AND"
  | .or => "OR"
  | .bitAnd => "BITAND"
  | .bitOr => "BITOR"
  | .assign => "ASSIGN"
  | .assignPlus => "ASSIGN_PLUS"
  | .assignMinus => "ASSIGN_MINUS"
  | .assignTimes => "ASSIGN_TIMES"
  | .assignDivide => "ASSIGN_DIVIDE"
  | .assignMod => "ASSIGN_MOD"
  | .assignBitAnd => "ASSIGN_BITAND"
  | .assignBitOr => "ASSIGN_BITOR"
  | .increment => "INCREMENT"
  | .decrement => "DECREMENT"
  | .semi => "SEMI"
  | .colon => "COLON"
  | .comma => "COMMA"
  | .dot => "DOT"
  | .lparen => "LPAREN"
  | .rparen => "RPAREN"
  | .lbracket => "LBRACKET"
  | .rbracket => "RBRACKET"
  | .lbrace => "LBRACE"
  | .rbrace => "RBRACE"
  | .intLiteral => "LITERAL_INT"
  | .floatLiteral => "LITERAL_FLOAT"
  | .doubleLiteral => "LITERAL_DOUBLE"
  | .charLiteral => "LITERAL_CHAR"
  | .stringLiteral => "LITERAL_STRING"
  | .identifier => "IDENT"

/-- The kind with the given name. -/
def ofName? (s : String) : Option TokenKind :=
  all.find? fun k => k.name == s

/-- A kind is shown by its name. -/
instance : ToString TokenKind := ⟨name⟩

/-- The words a type may be made of, `struct` apart. -/
def isType : TokenKind → Bool
  | .tyVoid | .tyInt | .tyShort | .tyLong | .tySigned | .tyUnsigned | .tyChar | .tyFloat
  | .tyDouble | .tyBool => true
  | _ => false

/-- The category of a kind. `struct` counts as a keyword and not as a type word. -/
def category : TokenKind → TokenCategory
  | .defineDirective | .includeDirective | .unknownDirective => .directive
  | .kwIf | .kwElse | .kwFor | .kwWhile | .kwDo | .kwStruct => .keyword
  | .tyVoid | .tyInt | .tyShort | .tyLong | .tySigned | .tyUnsigned | .tyChar | .tyFloat
  | .tyDouble | .tyBool => .typeKeyword
  | .semi | .colon | .comma | .dot => .punctuation
  | .lparen | .rparen | .lbracket | .rbracket | .lbrace | .rbrace => .grouping
  | .intLiteral | .floatLiteral | .doubleLiteral | .charLiteral | .stringLiteral => .literal
  | .identifier => .identifier
  | .eq | .ne | .lt | .gt | .lte | .gte | .plus | .minus | .times | .divide | .mod
  | .not | .and | .or | .bitAnd | .bitOr
  | .assign | .assignPlus | .assignMinus | .assignTimes | .assignDivide | .assignMod
  | .assignBitAnd | .assignBitOr | .increment | .decrement => .operator

/-- The list of all kinds leaves none out. -/
theorem mem_all (k : TokenKind) : k ∈ all := by
  cases k <;> decide

/-- A name identifies its kind. -/
theorem ofName?_name (k : TokenKind) : ofName? k.name = some k := by
  cases k <;> decide +kernel

end TokenKind

end LooseC
