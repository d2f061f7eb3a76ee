/-!
# Kinds of tree nodes

The constructs that the tree tells apart. An expression is never taken apart: a condition, a
loop header or an initializer is one node without children.
-/

set_option autoImplicit false

namespace LooseC

/-- What a node of the tree stands for. -/
inductive NodeKind where
  | unit
  | includeDirective
  | defineDirective
  | declaration
  | type
  | declaratorList
  | declarator
  | parameterList
  | parameter
  | block
  | statement
  | ifStatement
  | whileStatement
  | forStatement
  | doWhileStatement
  | expression
deriving DecidableEq

namespace NodeKind

/-- Every kind, in the order of declaration. -/
def all : List NodeKind :=
  [.unit, .includeDirective, .defineDirective, .declaration, .type, .declaratorList, .declarator,
   .parameterList, .parameter, .block, .statement, .ifStatement, .whileStatement, .forStatement,
   .doWhileStatement, .expression]

/-- The name under which a kind appears in dumps. -/
def name : NodeKind → String
  | .unit => "UNIT"
  | .includeDirective => "INCLUDE"
  | .defineDirective => "DEFINE"
  | .declaration => "DECLARATION"
  | .type => "TYPE"
  | .declaratorList => "DECLARATOR_LIST"
  | .declarator => "DECLARATOR"
  | .parameterList => "PARAMETER_LIST"
  | .parameter => "PARAMETER"
  | .block => "BLOCK_STATEMENT"
  | .statement => "STATEMENT"
  | .ifStatement => "IF_STATEMENT"
  | .whileStatement => "WHILE_STATEMENT"
  | .forStatement => "FOR_STATEMENT"
  | .doWhileStatement => "DO_WHILE_STATEMENT"
  | .expression => "EXPRESSION"

/-- The kind with the given name. -/
def ofName? (s : String) : Option NodeKind :=
  all.find? fun k => k.name == s

/-- A kind is shown by its name. -/
instance : ToString NodeKind := ⟨name⟩

/-- The constructs that hold a body statement. -/
def isControlFlow : NodeKind → Bool
  | .ifStatement | .whileStatement | .forStatement | .doWhileStatement => true
  | _ => false

/-- The list of all kinds leaves none out. -/
theorem mem_all (k : NodeKind) : k ∈ all := by
  cases k <;> decide

/-- A name identifies its kind. -/
theorem ofName?_name (k : NodeKind) : ofName? k.name = some k := by
  cases k <;> decide +kernel

end NodeKind

end LooseC
