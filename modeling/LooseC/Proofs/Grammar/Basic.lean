import LooseC.Proofs.Grammar.Index
import LooseC.Tree.Node

/-!
# The loose grammar

`Derives ts symbol i j nodes` says that the tokens of `ts` from index `i` up to `j` form the
phrase `symbol`, and which nodes the phrase contributes to the tree. One constructor is one
rule. The rules speak of indices and kinds alone:

* a choice is decided by the kinds that stand at the front of a phrase;
* a greedy run (type words, the row of a directive) ends at the first index that does not
  belong to it, and an option (`else`, the name or the comma after a parameter) is left out
  only where its first token is absent;
* what is not taken apart ends at an index given by `EndsInitializer`, `Closes` or
  `FirstFrom`.

A declarator carries a flag: it has ended its declaration, by a semicolon or a body of its own,
or it has not. `IsUnit` is the whole-list case. `Derives.bounds` says where the range of a
phrase can lie: inside the list, and of positive length for every phrase but the three runs.
-/

set_option autoImplicit false

namespace LooseC

/-- The phrases of the grammar. -/
inductive Symbol where
  /-- Top-level constructs up to the end of the list. -/
  | items
  | item
  | declaration
  | type
  /-- The node around a list of declarators. -/
  | declaratorList (ended : Bool)
  | declarators (ended : Bool)
  | declarator (ended : Bool)
  | parameterList
  /-- Parameters up to a closing parenthesis, which is not included. -/
  | parameters
  | parameter
  | initializer
  | block
  /-- Statements up to a closing brace, which is not included. -/
  | statements
  | statement
  | guard
deriving DecidableEq

/-- The directives that the tree shows, by the kind of their first token. -/
def directiveNode? : TokenKind → Option NodeKind
  | .includeDirective => some .includeDirective
  | .defineDirective => some .defineDirective
  | _ => none

/-- The loops that begin with their guard, by the kind of their first token. -/
def loopNode? : TokenKind → Option NodeKind
  | .kwWhile => some .whileStatement
  | .kwFor => some .forStatement
  | _ => none

/-- The kinds of token that begin a statement with structure. -/
def beginsStructured : TokenKind → Bool
  | .lbrace | .kwIf | .kwWhile | .kwFor | .kwDo => true
  | _ => false

/-- The tokens of `ts` from one index up to another form a phrase that contributes the given
nodes. -/
inductive Derives (ts : List Token) : Symbol → Nat → Nat → List Node → Prop where
  | itemsNil : Derives ts .items ts.length ts.length []
  | itemsCons {i j k : Nat} {node : Node} {nodes : List Node} :
      Derives ts .item i j [node] → Derives ts .items j k nodes →
      Derives ts .items i k (node :: nodes)
  | directive {i j : Nat} {first : TokenKind} {kind : NodeKind} :
      kindAt? ts i = some first → directiveNode? first = some kind →
      FirstFrom (fun m => rowAt? ts m ≠ rowAt? ts i) (i + 1) j →
      Derives ts .item i j [.leaf kind ⟨i, j⟩]
  | itemDeclaration {i j : Nat} {node : Node} :
      Derives ts .declaration i j [node] → Derives ts .item i j [node]
  | declarationEnded {i j k : Nat} {type list : Node} :
      Derives ts .type i j [type] → Derives ts (.declaratorList true) j k [list] →
      Derives ts .declaration i k [⟨.declaration, ⟨i, k⟩, [type, list]⟩]
  | declarationSemi {i j k : Nat} {type list : Node} :
      Derives ts .type i j [type] → Derives ts (.declaratorList false) j k [list] →
      kindAt? ts k = some .semi →
      Derives ts .declaration i (k + 1) [⟨.declaration, ⟨i, k + 1⟩, [type, list]⟩]
  | typeWords {i j : Nat} :
      TypeWordAt ts i → FirstFrom (fun m => ¬ TypeWordAt ts m) i j →
      Derives ts .type i j [.leaf .type ⟨i, j⟩]
  | typeStruct {i : Nat} :
      kindAt? ts i = some .kwStruct → kindAt? ts (i + 1) = some .identifier →
      Derives ts .type i (i + 2) [.leaf .type ⟨i, i + 2⟩]
  | typeName {i : Nat} :
      kindAt? ts i = some .identifier → Derives ts .type i (i + 1) [.leaf .type ⟨i, i + 1⟩]
  | declaratorList {ended : Bool} {i j : Nat} {nodes : List Node} :
      Derives ts (.declarators ended) i j nodes →
      Derives ts (.declaratorList ended) i j [⟨.declaratorList, ⟨i, j⟩, nodes⟩]
  | declaratorsEnded {i j : Nat} {node : Node} :
      Derives ts (.declarator true) i j [node] → Derives ts (.declarators true) i j [node]
  | declaratorsLast {i j : Nat} {node : Node} :
      Derives ts (.declarator false) i j [node] → kindAt? ts j ≠ some .comma →
      Derives ts (.declarators false) i j [node]
  | declaratorsComma {ended : Bool} {i j k : Nat} {node : Node} {nodes : List Node} :
      Derives ts (.declarator false) i j [node] → kindAt? ts j = some .comma →
      Derives ts (.declarators ended) (j + 1) k nodes →
      Derives ts (.declarators ended) i k (node :: nodes)
  | prototype {i j : Nat} {parameters : Node} :
      kindAt? ts i = some .identifier → Derives ts .parameterList (i + 1) j [parameters] →
      kindAt? ts j = some .semi →
      Derives ts (.declarator true) i (j + 1) [⟨.declarator, ⟨i, j + 1⟩, [parameters]⟩]
  | function {i j k : Nat} {parameters body : Node} :
      kindAt? ts i = some .identifier → Derives ts .parameterList (i + 1) j [parameters] →
      Derives ts .block j k [body] →
      Derives ts (.declarator true) i k [⟨.declarator, ⟨i, k⟩, [parameters, body]⟩]
  | initialized {i j : Nat} {value : Node} :
      kindAt? ts i = some .identifier → Derives ts .initializer (i + 1) j [value] →
      Derives ts (.declarator false) i j [⟨.declarator, ⟨i, j⟩, [value]⟩]
  | plainDeclarator {i : Nat} :
      kindAt? ts i = some .identifier → kindAt? ts (i + 1) ≠ some .lparen →
      kindAt? ts (i + 1) ≠ some .assign →
      Derives ts (.declarator false) i (i + 1) [⟨.declarator, ⟨i, i + 1⟩, []⟩]
  | parameterList {i j : Nat} {nodes : List Node} :
      kindAt? ts i = some .lparen → Derives ts .parameters (i + 1) j nodes →
      kindAt? ts j = some .rparen →
      Derives ts .parameterList i (j + 1) [⟨.parameterList, ⟨i, j + 1⟩, nodes⟩]
  | parametersNil {i : Nat} :
      kindAt? ts i = some .rparen → Derives ts .parameters i i []
  | parametersComma {i j k : Nat} {node : Node} {nodes : List Node} :
      Derives ts .parameter i j [node] → kindAt? ts j = some .comma →
      Derives ts .parameters (j + 1) k nodes → Derives ts .parameters i k (node :: nodes)
  | parametersNext {i j k : Nat} {node : Node} {nodes : List Node} :
      Derives ts .parameter i j [node] → kindAt? ts j ≠ some .comma →
      Derives ts .parameters j k nodes → Derives ts .parameters i k (node :: nodes)
  | parameterNamed {i j : Nat} {type : Node} :
      Derives ts .type i j [type] → kindAt? ts j = some .identifier →
      Derives ts .parameter i (j + 1) [⟨.parameter, ⟨i, j + 1⟩, [type]⟩]
  | parameterUnnamed {i j : Nat} {type : Node} :
      Derives ts .type i j [type] → kindAt? ts j ≠ some .identifier →
      Derives ts .parameter i j [⟨.parameter, ⟨i, j⟩, [type]⟩]
  | initializer {i j : Nat} :
      kindAt? ts i = some .assign → EndsInitializer ts (i + 1) j →
      Derives ts .initializer i j [.leaf .expression ⟨i + 1, j⟩]
  | block {i j : Nat} {nodes : List Node} :
      kindAt? ts i = some .lbrace → Derives ts .statements (i + 1) j nodes →
      kindAt? ts j = some .rbrace →
      Derives ts .block i (j + 1) [⟨.block, ⟨i, j + 1⟩, nodes⟩]
  | statementsNil {i : Nat} :
      kindAt? ts i = some .rbrace → Derives ts .statements i i []
  | statementsCons {i j k : Nat} {node : Node} {nodes : List Node} :
      kindAt? ts i ≠ some .rbrace → Derives ts .statement i j [node] →
      Derives ts .statements j k nodes → Derives ts .statements i k (node :: nodes)
  | statementBlock {i j : Nat} {node : Node} :
      Derives ts .block i j [node] → Derives ts .statement i j [node]
  | ifStatement {i j k : Nat} {condition body : Node} :
      kindAt? ts i = some .kwIf → Derives ts .guard (i + 1) j [condition] →
      Derives ts .statement j k [body] → kindAt? ts k ≠ some .kwElse →
      Derives ts .statement i k [⟨.ifStatement, ⟨i, k⟩, [condition, body]⟩]
  | ifElseStatement {i j k l : Nat} {condition body otherwise : Node} :
      kindAt? ts i = some .kwIf → Derives ts .guard (i + 1) j [condition] →
      Derives ts .statement j k [body] → kindAt? ts k = some .kwElse →
      Derives ts .statement (k + 1) l [otherwise] →
      Derives ts .statement i l [⟨.ifStatement, ⟨i, l⟩, [condition, body, otherwise]⟩]
  | loopStatement {i j k : Nat} {first : TokenKind} {kind : NodeKind} {condition body : Node} :
      kindAt? ts i = some first → loopNode? first = some kind →
      Derives ts .guard (i + 1) j [condition] → Derives ts .statement j k [body] →
      Derives ts .statement i k [⟨kind, ⟨i, k⟩, [condition, body]⟩]
  | doWhileStatement {i j k : Nat} {body condition : Node} :
      kindAt? ts i = some .kwDo → Derives ts .statement (i + 1) j [body] →
      kindAt? ts j = some .kwWhile → Derives ts .guard (j + 1) k [condition] →
      kindAt? ts k = some .semi →
      Derives ts .statement i (k + 1) [⟨.doWhileStatement, ⟨i, k + 1⟩, [body, condition]⟩]
  | plainStatement {i j : Nat} {first : TokenKind} :
      kindAt? ts i = some first → beginsStructured first = false →
      FirstFrom (fun m => kindAt? ts m = some .semi) i j →
      Derives ts .statement i (j + 1) [.leaf .statement ⟨i, j + 1⟩]
  | guard {i j : Nat} :
      Closes ts .lparen .rparen i j →
      Derives ts .guard i (j + 1) [.leaf .expression ⟨i + 1, j⟩]

/-- The tree that the grammar gives to a whole token list: a unit over all of it, with one child
for each top-level construct. -/
def IsUnit (ts : List Token) (tree : Node) : Prop :=
  ∃ nodes, Derives ts .items 0 ts.length nodes ∧ tree = ⟨.unit, ⟨0, ts.length⟩, nodes⟩

/-- The phrases that may be empty. -/
def Symbol.isRun : Symbol → Bool
  | .items | .parameters | .statements => true
  | _ => false

/-- A phrase lies inside the list, and it is not empty unless it is a run. -/
theorem Derives.bounds {ts : List Token} {symbol : Symbol} {i j : Nat} {nodes : List Node}
    (h : Derives ts symbol i j nodes) :
    i ≤ j ∧ j ≤ ts.length ∧ (symbol.isRun = false → i < j) := by
  induction h with
  | itemsNil => simp [Symbol.isRun]
  | directive hi _ hrow =>
    have hle := hrow.le
    -- The row is missing at the end of the list, so the search for another row stops there.
    have hlen := hrow.le_of_holds (lt_length_of_kindAt? hi) (rowAt?_length_ne hi)
    refine ⟨by omega, hlen, fun _ => by omega⟩
  | typeWords hi hfirst =>
    have hlen := hfirst.le_of_holds (Nat.le_of_lt hi.lt_length) fun hend =>
      Nat.lt_irrefl _ hend.lt_length
    have hlt := hfirst.lt_of_not_holds fun hne => hne hi
    exact ⟨hfirst.le, hlen, fun _ => hlt⟩
  | initializer hi hend =>
    have hlt := hend.lt_length
    have hle := hend.le
    exact ⟨by omega, by omega, fun _ => by omega⟩
  | plainStatement _ _ hfirst =>
    have hlt := lt_length_of_kindAt? hfirst.holds
    have hle := hfirst.le
    exact ⟨by omega, by omega, fun _ => by omega⟩
  | guard hcloses =>
    have hlt := hcloses.first.holds.1
    have hle := hcloses.first.le
    exact ⟨by omega, by omega, fun _ => by omega⟩
  | _ =>
    -- Every other rule puts phrases and single tokens next to each other.
    simp only [Symbol.isRun, reduceCtorEq, false_implies, forall_const] at *
    grind

namespace Derives

variable {ts : List Token} {symbol : Symbol} {i j : Nat} {nodes : List Node}

/-- A phrase ends no earlier than it begins. -/
theorem le (h : Derives ts symbol i j nodes) : i ≤ j := h.bounds.1

/-- A phrase ends inside the list. -/
theorem le_length (h : Derives ts symbol i j nodes) : j ≤ ts.length := h.bounds.2.1

/-- A phrase that is no run takes a token. -/
theorem lt (h : Derives ts symbol i j nodes) (hrun : symbol.isRun = false) : i < j :=
  h.bounds.2.2 hrun

end Derives

end LooseC
