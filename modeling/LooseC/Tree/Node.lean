import LooseC.Token.Basic
import LooseC.Tree.Kind

/-!
# The tree

A node holds no tokens. Its span is a range of indices into the token list that the tree was
built from, so the tokens of a node are looked up in that list (`Node.tokens`). A span that
does not fit the list covers no tokens.

`Node.induction` is the induction principle for trees: a property of every child of a node
carries over to the node.
-/

set_option autoImplicit false

namespace LooseC

/-- The token indices from `start` up to, not including, `stop`. -/
structure Span where
  start : Nat
  stop : Nat
deriving DecidableEq, Inhabited

/-- A node of the tree, with its children in source order. -/
structure Node where
  kind : NodeKind
  span : Span
  children : List Node

namespace Node

/-- A node without children. -/
def leaf (kind : NodeKind) (span : Span) : Node := ⟨kind, span, []⟩

/-- The node has no children. -/
def isLeaf (n : Node) : Bool := n.children.isEmpty

/-- The children of one kind, in order. -/
def childrenOf (n : Node) (kind : NodeKind) : List Node :=
  n.children.filter fun child => child.kind == kind

/-- The tokens that the span covers. -/
def tokens (n : Node) (ts : List Token) : List Token :=
  if n.span.stop ≤ ts.length then (ts.take n.span.stop).drop n.span.start else []

/-- The first token that the span covers. -/
def firstToken? (n : Node) (ts : List Token) : Option Token :=
  (n.tokens ts).head?

/-- The lexeme of the first token, empty if the span covers none. -/
def firstLexeme (n : Node) (ts : List Token) : String :=
  ((n.firstToken? ts).map Token.lexeme).getD ""

/-- The lexemes that the span covers, with one space between each two. -/
def text (n : Node) (ts : List Token) : String :=
  String.intercalate " " ((n.tokens ts).map Token.lexeme)

mutual
/-- Two trees are equal if kinds, spans and children are. -/
def decEq : (a b : Node) → Decidable (a = b)
  | ⟨k, s, cs⟩, ⟨k', s', cs'⟩ =>
    if hk : k = k' then
      if hs : s = s' then
        match decEqList cs cs' with
        | isTrue hc => isTrue (by rw [hk, hs, hc])
        | isFalse hc => isFalse fun h => hc (Node.mk.inj h).2.2
      else isFalse fun h => hs (Node.mk.inj h).2.1
    else isFalse fun h => hk (Node.mk.inj h).1
/-- Two forests are equal if they have equal trees in the same order. -/
def decEqList : (as bs : List Node) → Decidable (as = bs)
  | [], [] => isTrue rfl
  | [], _ :: _ => isFalse (by simp)
  | _ :: _, [] => isFalse (by simp)
  | a :: as, b :: bs =>
    match decEq a b, decEqList as bs with
    | isTrue ha, isTrue has => isTrue (by rw [ha, has])
    | isFalse ha, _ => isFalse fun h => ha (List.cons.inj h).1
    | _, isFalse has => isFalse fun h => has (List.cons.inj h).2
end

/-- Trees are compared node by node. -/
instance : DecidableEq Node := decEq

mutual
/-- The number of nodes of a tree. -/
def size : Node → Nat
  | ⟨_, _, cs⟩ => 1 + sizeList cs
/-- The number of nodes of a forest. -/
def sizeList : List Node → Nat
  | [] => 0
  | n :: ns => n.size + sizeList ns
end

/-- Forests side by side have the nodes of both. -/
theorem sizeList_append (as bs : List Node) :
    sizeList (as ++ bs) = sizeList as + sizeList bs := by
  induction as with
  | nil => simp [sizeList]
  | cons a as ih => simp [sizeList, ih, Nat.add_assoc]

/-- What holds of a node whenever it holds of its children holds of every tree. -/
theorem induction {motive : Node → Prop}
    (step : ∀ n : Node, (∀ child ∈ n.children, motive child) → motive n) (n : Node) :
    motive n :=
  n.rec (motive_1 := motive) (motive_2 := fun ns => ∀ child ∈ ns, motive child)
    (fun kind span children ih => step ⟨kind, span, children⟩ ih)
    (fun child hmem => by simp at hmem)
    (fun head tail hhead htail child hmem => by
      rcases List.mem_cons.mp hmem with rfl | h
      · exact hhead
      · exact htail child h)

/-- A span that fits covers as many tokens as it is long. -/
theorem length_tokens {n : Node} {ts : List Token} (h : n.span.stop ≤ ts.length) :
    (n.tokens ts).length = n.span.stop - n.span.start := by
  simp only [tokens, h, if_true, List.length_drop, List.length_take]
  omega

end Node

end LooseC
