import LooseC.Parse.Unit
import LooseC.Proofs.Grammar.Reads
import LooseC.Proofs.Grammar.Spans
import LooseC.Tree.Walk

/-!
# What the productions note

A production notes the guard of a statement before it reads the body, and a declaration after
everything nested in it. So the notes of a production that succeeds are told by the nodes it
answers: the guards of these nodes in pre-order (`Node.guards`).

`Notes ts p Q` says that whenever `p` succeeds, `Q` holds of the answer and of the events noted on
the way. Each building block has one rule, each production one lemma, and `notes_unit` is the last
of them. Productions that use themselves go through `Notes.fix`, which carries the induction.
-/

set_option autoImplicit false

namespace LooseC

/-! ### The guards of a tree -/

/-- The keyword in front of the guard, for a statement that begins with both. -/
def NodeKind.guardKeyword? : NodeKind → Option GuardKeyword
  | .ifStatement => some .kwIf
  | .whileStatement => some .kwWhile
  | .forStatement => some .kwFor
  | _ => none

namespace Node

/-- The keyword and the place of the guard, for a statement that begins with both. The guard is the
expression among the children. -/
def ownGuards (n : Node) : List (GuardKeyword × Span) :=
  match n.kind.guardKeyword? with
  | some keyword => (n.childrenOf .expression).map fun condition => (keyword, condition.span)
  | none => []

/-- The guards of all such statements in a tree, in pre-order of the statements. -/
def guards (n : Node) : List (GuardKeyword × Span) :=
  (n.preorder 0).flatMap fun visit => visit.node.ownGuards

/-- A statement that begins with a keyword and a guard has one expression among its children. -/
def OneGuard (n : Node) : Prop :=
  n.kind.guardKeyword? ≠ none → ∃ condition, n.childrenOf .expression = [condition]

/-- The guards of a tree are that of its root and then those of the children, in order. -/
theorem guards_eq (n : Node) : n.guards = n.ownGuards ++ n.children.flatMap guards := by
  have hmap (m : Node) : m.guards = ((m.preorder 0).map Visit.node).flatMap ownGuards := by
    rw [List.flatMap_map]
    rfl
  rw [hmap, map_node_preorder, List.flatMap_cons, List.flatMap_assoc]
  refine congrArg (n.ownGuards ++ ·) ?_
  rw [List.flatMap_def, List.flatMap_def]
  exact congrArg List.flatten (List.map_congr_left fun child _ => (hmap child).symm)

end Node

/-- The note about a guard. -/
def Event.ofGuard (g : GuardKeyword × Span) : Event := .guard g.1 g.2

/-- The events are the notes about the guards of the nodes, and every statement with a guard in
these trees has just one. -/
structure Noted (nodes : List Node) (events : List Event) : Prop where
  guards : events = (nodes.flatMap Node.guards).map Event.ofGuard
  oneGuard : ∀ n ∈ nodes, n.Everywhere Node.OneGuard

namespace Noted

variable {nodes later children : List Node} {events events' : List Event} {kind : NodeKind}
  {span : Span}

/-- Where there are no nodes, nothing is noted. -/
theorem nil : Noted [] [] where
  guards := rfl
  oneGuard := List.forall_mem_nil _

/-- Two forests side by side, with the notes of one behind those of the other. -/
theorem append (h : Noted nodes events) (hlater : Noted later events') :
    Noted (nodes ++ later) (events ++ events') where
  guards := by rw [h.guards, hlater.guards, List.flatMap_append, List.map_append]
  oneGuard := List.forall_mem_append.mpr ⟨h.oneGuard, hlater.oneGuard⟩

/-- Nothing is noted at the end of a production. -/
theorem append_nil (h : Noted nodes events) : Noted nodes (events ++ []) := by
  rw [List.append_nil]
  exact h

/-- A node without a guard of its own adds no note. -/
theorem node (hkind : kind.guardKeyword? = none) (h : Noted children events) :
    Noted [⟨kind, span, children⟩] events where
  guards := by
    have hown : Node.ownGuards ⟨kind, span, children⟩ = [] := by rw [Node.ownGuards, hkind]
    rw [List.flatMap_cons, List.flatMap_nil, List.append_nil, Node.guards_eq, hown, List.nil_append,
      h.guards]
  oneGuard := List.forall_mem_singleton.mpr (.node (fun hne => absurd hkind hne) h.oneGuard)

/-- A leaf has no guard in it, and nothing is noted about it. -/
theorem leaf (hkind : kind.guardKeyword? = none) : Noted [.leaf kind span] [] :=
  node hkind nil

/-- A statement with a guard adds the note about it in front of the notes of what follows. -/
theorem guarded {keyword : GuardKeyword} {inside : Span}
    (hkeyword : kind.guardKeyword? = some keyword) (h : Noted nodes events) (hnodes : ∀ n ∈ nodes, n.kind ≠ .expression) :
    Noted [⟨kind, span, .leaf .expression inside :: nodes⟩] (.guard keyword inside :: events) := by
  have hchildren : Noted (.leaf .expression inside :: nodes) events := (leaf rfl).append h
  have hone : Node.childrenOf ⟨kind, span, .leaf .expression inside :: nodes⟩ .expression =
      [.leaf .expression inside] := by
    -- The leaf is the only expression: none of the other children is one.
    have hother : nodes.filter (·.kind == .expression) = [] :=
      List.filter_eq_nil_iff.mpr fun n hn hkind => hnodes n hn (eq_of_beq hkind)
    rw [Node.childrenOf, List.filter_cons_of_pos rfl, hother]
  refine ⟨?_, List.forall_mem_singleton.mpr (.node (fun _ => ⟨_, hone⟩) hchildren.oneGuard)⟩
  rw [List.flatMap_cons, List.flatMap_nil, List.append_nil, Node.guards_eq, Node.ownGuards,
    hkeyword, List.map_append, ← hchildren.guards]
  simp only [hone]
  rfl

end Noted

namespace Parse

variable {α β : Type} {ts : List Token}

/-! ### Rules -/

/-- Whenever the production succeeds, `Q` holds of what it answers and of the events on the way. -/
def Notes (ts : List Token) (p : Parse α) (Q : α → List Event → Prop) : Prop :=
  ∀ i a j, p.Reads ts i a j → Q a (p ⟨ts, i⟩).events

/-- The production notes nothing. -/
abbrev Quiet (ts : List Token) (p : Parse α) : Prop := Notes ts p fun _ events => events = []

/-- What is known of the answer and the events may be weakened. -/
theorem Notes.mono {p : Parse α} {P Q : α → List Event → Prop} (h : Notes ts p P)
    (hPQ : ∀ a events, P a events → Q a events) : Notes ts p Q :=
  fun i a j hread => hPQ a _ (h i a j hread)

/-- The events of a sequence are those of its parts, one after the other. -/
theorem events_bind {p : Parse α} {f : α → Parse β} {i j : Nat} {a : α} (h : p.Reads ts i a j) :
    ((p >>= f) ⟨ts, i⟩).events = (p ⟨ts, i⟩).events ++ (f a ⟨ts, j⟩).events := by
  change (Parse.bind p f ⟨ts, i⟩).events = _
  unfold Reads result at h
  unfold Parse.bind
  cases hp : p ⟨ts, i⟩ with
  | mk events actions answer =>
    rw [hp] at h
    cases h
    rfl

/-- Notes in sequence. The second part is asked about the events that come after those of the first.
-/
theorem Notes.bind {p : Parse α} {f : α → Parse β} {P : α → List Event → Prop}
    {Q : β → List Event → Prop} (hp : Notes ts p P)
    (hf : ∀ a events, P a events → Notes ts (f a) fun b later => Q b (events ++ later)) :
    Notes ts (p >>= f) Q := by
  intro i b j hread
  obtain ⟨a, k, ha, hb⟩ := reads_bind_iff.mp hread
  rw [events_bind ha]
  exact hf a _ (hp i a k ha) k b j hb

/-- What comes before a production without notes changes nothing. -/
theorem Quiet.bind {p : Parse α} {f : α → Parse β} {Q : β → List Event → Prop}
    (hp : Quiet ts p) (hf : ∀ a, Notes ts (f a) Q) : Notes ts (p >>= f) Q :=
  Notes.bind hp fun a _ hevents => hevents ▸ hf a

/-- A building block that logs actions only notes nothing. -/
theorem quiet_acting {log : Cursor → List Action} {f : Cursor → Except Failure (α × Nat)} :
    Quiet ts (acting log f) :=
  fun _ _ _ _ => rfl

/-- An answer without work notes nothing. -/
theorem notes_pure {Q : α → List Event → Prop} {a : α} (h : Q a []) :
    Notes ts (pure a : Parse α) Q := by
  intro i b j hread
  rw [(reads_pure_iff.mp hread).1]
  exact h

/-- A production that gives up never succeeds, so anything may be said of its success. -/
theorem notes_fail {Q : α → List Event → Prop} (fault : SyntaxFault) :
    Notes ts (fail fault : Parse α) Q :=
  fun _ _ _ hread => absurd hread not_reads_fail

/-- A note is one event. -/
theorem notes_note (e : Event) : Notes ts (note e) fun _ events => events = [e] :=
  fun _ _ _ _ => rfl

/-- The answer of a question is the answer at some place in the list. -/
theorem notes_ask (f : Cursor → α) :
    Notes ts (ask f) fun a events => events = [] ∧ ∃ i, a = f ⟨ts, i⟩ :=
  fun i _ _ hread => ⟨rfl, i, (ok_pair_eq_iff.mp hread).1⟩

/-- Notes of a choice, each branch under what the test says. -/
theorem Notes.ite {c : Prop} [Decidable c] {p q : Parse α} {Q : α → List Event → Prop}
    (hp : c → Notes ts p Q) (hq : ¬ c → Notes ts q Q) : Notes ts (if c then p else q) Q := by
  by_cases h : c
  · rw [if_pos h]
    exact hp h
  · rw [if_neg h]
    exact hq h

/-- A token that had to come is not noted. -/
theorem quiet_take (kind : TokenKind) (fault : SyntaxFault) : Quiet ts (take kind fault) :=
  Quiet.bind quiet_acting fun _ => quiet_acting

/-- An optional token is not noted, taken or not. -/
theorem quiet_optional (kind : TokenKind) : Quiet ts (optional kind) := by
  refine Quiet.bind quiet_acting fun _ => Notes.ite (fun _ => ?_) fun _ => notes_pure rfl
  exact Quiet.bind quiet_acting fun _ => notes_pure rfl

/-- A span is not noted. -/
theorem quiet_spanFrom (start : Nat) : Quiet ts (spanFrom start) :=
  Quiet.bind quiet_acting fun _ => quiet_acting

/-- A round that is let begin has the events of the round. -/
theorem events_watched {i k : Nat} (p : Parse α) (h : ts.length - k < ts.length - i) :
    (watched ⟨ts, i⟩ p ⟨ts, k⟩).events = (p ⟨ts, k⟩).events := by
  rw [watched_of_lt p h, Outcome.events_after, List.nil_append]

/-- The events of a production that uses itself are those of one round of its body. -/
theorem events_fix (body : Parse α → Parse α) (i : Nat) :
    (Parse.fix body ⟨ts, i⟩).events =
      (body (watched ⟨ts, i⟩ (Parse.fix body)) ⟨ts, i⟩).events := by
  rw [fix_eq]

/-- The induction is on the number of tokens left where a round ends. -/
theorem Notes.fix {body : Parse α → Parse α} {Q : α → List Event → Prop}
    (hbody : ∀ p, Notes ts p Q → Notes ts (body p) Q) : Notes ts (Parse.fix body) Q := by
  -- A round may only begin behind where its caller did, so it has fewer tokens left.
  have hround (i : Nat) : Notes ts (watched ⟨ts, i⟩ (Parse.fix body)) Q := by
    induction hn : ts.length - i using Nat.strongRecOn generalizing i with
    | ind n ih =>
      intro k a j hread
      obtain ⟨hlt, hread⟩ := reads_watched_iff.mp hread
      rw [events_watched _ hlt, events_fix]
      exact hbody _ (ih _ (hn ▸ hlt) k rfl) k a j (reads_fix_iff.mp hread)
  intro i a j hread
  rw [events_fix]
  exact hbody _ (hround i) i a j (reads_fix_iff.mp hread)

/-- The notes of a repetition are those of its items, one after the other. -/
theorem Notes.many {test : Cursor → Bool} {item : Parse α} {P : α → List Event → Prop}
    {Q : List α → List Event → Prop} (hitem : Notes ts item P) (hnil : Q [] [])
    (hcons : ∀ a events as later, P a events → Q as later → Q (a :: as) (events ++ later)) :
    Notes ts (Parse.many test item) Q := by
  -- One round: the test, an item, and the rest of the run, which is the round after it.
  refine Notes.fix fun p hp => ?_
  refine Quiet.bind quiet_acting fun _ => Notes.ite (fun _ => ?_) fun _ => notes_pure hnil
  refine hitem.bind fun a events ha => ?_
  refine hp.bind fun as later has => ?_
  refine notes_pure ?_
  rw [List.append_nil]
  exact hcons a events as later ha has

/-- A run of items that note nothing notes nothing. -/
theorem quiet_many {test : Cursor → Bool} {item : Parse α} (hitem : Quiet ts item) :
    Quiet ts (Parse.many test item) :=
  Notes.many hitem rfl fun _ _ _ _ ha has => by rw [ha, has, List.append_nil]

/-! ### Statements -/

/-- The production notes the guards of the forest that it answers. -/
abbrev NotesForest (ts : List Token) (p : Parse (List Node)) : Prop := Notes ts p Noted

/-- The production notes the guards of the node that it answers. -/
abbrev NotesNode (ts : List Token) (p : Parse Node) : Prop :=
  Notes ts p fun n events => Noted [n] events

/-- The same, and the node is no expression. -/
abbrev NotesStatement (ts : List Token) (p : Parse Node) : Prop :=
  Notes ts p fun n events => Noted [n] events ∧ n.kind ≠ .expression

/-- A run of nodes notes the guards of the forest of them. -/
theorem notes_many_nodes {test : Cursor → Bool} {p : Parse Node} (hp : NotesNode ts p) :
    NotesForest ts (Parse.many test p) :=
  Notes.many hp .nil fun _ _ _ _ hn hns => hn.append hns

/-- A guard is not noted where it is read, but by the statement that it belongs to. -/
theorem notes_guardExpression (owner : GuardOwner) :
    Notes ts (guardExpression owner) fun n events =>
      events = [] ∧ ∃ inside, n = .leaf .expression inside := by
  refine Quiet.bind quiet_acting fun _ => ?_
  refine Quiet.bind quiet_acting fun _ => ?_
  refine Quiet.bind quiet_acting fun _ => ?_
  refine Quiet.bind quiet_acting fun inside => ?_
  refine Quiet.bind quiet_acting fun _ => ?_
  exact notes_pure ⟨rfl, inside, rfl⟩

/-- The guard is noted before the body is read. -/
theorem notes_guarded {p : Parse Node} (hp : NotesStatement ts p) (keyword : GuardKeyword) :
    Notes ts (guarded p keyword) fun nodes events =>
      ∃ inside body later, nodes = [.leaf .expression inside, body] ∧
        events = .guard keyword inside :: later ∧ Noted [body] later ∧ body.kind ≠ .expression := by
  refine Quiet.bind quiet_acting fun _ => ?_
  refine (notes_guardExpression _).bind fun condition _ hcondition => ?_
  obtain ⟨rfl, inside, rfl⟩ := hcondition
  -- From here on the events begin with the note, and those of the body come after it.
  refine (notes_note _).bind fun _ _ hnote => ?_
  subst hnote
  refine hp.bind fun body later hbody => ?_
  exact notes_pure ⟨inside, body, later, rfl, by simp [Node.leaf], hbody.1, hbody.2⟩

/-- The statement after `else` is noted as it is anywhere else. -/
theorem notes_elseBranch {p : Parse Node} (hp : NotesStatement ts p) :
    Notes ts (elseBranch p) fun nodes events =>
      Noted nodes events ∧ ∀ n ∈ nodes, n.kind ≠ .expression := by
  refine (quiet_optional _).bind fun _ => Notes.ite (fun _ => ?_) fun _ => ?_
  · refine hp.bind fun n events hn => notes_pure ?_
    exact ⟨hn.1.append_nil, List.forall_mem_singleton.mpr hn.2⟩
  · exact notes_pure ⟨.nil, List.forall_mem_nil _⟩

/-- The note about the guard of an `if` comes before those of both its branches. -/
theorem notes_ifStatement {p : Parse Node} (hp : NotesStatement ts p) :
    NotesStatement ts (ifStatement p) := by
  refine Quiet.bind quiet_acting fun _ => ?_
  refine (notes_guarded hp _).bind fun children events hchildren => ?_
  obtain ⟨inside, body, later, rfl, rfl, hbody, hkind⟩ := hchildren
  refine (notes_elseBranch hp).bind fun otherwise events' hotherwise => ?_
  refine (quiet_spanFrom _).bind fun whole => notes_pure ⟨?_, nofun⟩
  exact Noted.guarded rfl (hbody.append hotherwise.1.append_nil)
    (List.forall_mem_cons.mpr ⟨hkind, hotherwise.2⟩)

/-- The keyword of a loop can be told from the kind of its node. -/
theorem guardKeyword?_statementKind (keyword : GuardKeyword) :
    keyword.statementKind.guardKeyword? = some keyword := by
  cases keyword <;> rfl

/-- The note about the guard of a loop comes before those of its body. -/
theorem notes_loopStatement {p : Parse Node} (hp : NotesStatement ts p) (keyword : GuardKeyword) :
    NotesStatement ts (loopStatement p keyword) := by
  refine Quiet.bind quiet_acting fun _ => ?_
  refine (notes_guarded hp _).bind fun children events hchildren => ?_
  obtain ⟨inside, body, later, rfl, rfl, hbody, hkind⟩ := hchildren
  refine (quiet_spanFrom _).bind fun whole => notes_pure ⟨.append_nil ?_, ?_⟩
  · exact Noted.guarded (guardKeyword?_statementKind keyword) hbody
      (List.forall_mem_singleton.mpr hkind)
  · cases keyword <;> exact nofun

/-- The guard that closes a `do` statement is not noted. -/
theorem notes_doWhileStatement {p : Parse Node} (hp : NotesStatement ts p) :
    NotesStatement ts (doWhileStatement p) := by
  refine Quiet.bind quiet_acting fun _ => ?_
  refine Quiet.bind quiet_acting fun _ => ?_
  refine hp.bind fun body events hbody => ?_
  refine (quiet_take _ _).bind fun _ => ?_
  refine (notes_guardExpression _).bind fun condition _ hcondition => ?_
  obtain ⟨rfl, inside, rfl⟩ := hcondition
  refine Quiet.bind quiet_acting fun _ => ?_
  refine (quiet_spanFrom _).bind fun whole => notes_pure ⟨?_, nofun⟩
  exact .node rfl (hbody.1.append (.leaf rfl))

/-- A block notes the guards of its statements, and nothing of its own. -/
theorem notes_block {p : Parse Node} (hp : NotesStatement ts p) : NotesStatement ts (block p) := by
  refine Quiet.bind quiet_acting fun _ => ?_
  refine Quiet.bind quiet_acting fun _ => ?_
  refine (notes_many_nodes (hp.mono fun _ _ hn => hn.1)).bind fun nodes events hnodes => ?_
  refine Quiet.bind quiet_acting fun _ => ?_
  refine (quiet_spanFrom _).bind fun whole => notes_pure ⟨.append_nil ?_, nofun⟩
  exact .node rfl hnodes

/-- A plain statement is one leaf, and nothing is noted. -/
theorem notes_plainStatement : NotesStatement ts plainStatement := by
  refine Quiet.bind quiet_acting fun _ => ?_
  refine Quiet.bind quiet_acting fun _ => ?_
  refine Quiet.bind quiet_acting fun _ => ?_
  refine Quiet.bind quiet_acting fun _ => ?_
  exact notes_pure ⟨.leaf rfl, nofun⟩

/-- Every statement notes its guards in pre-order, by induction over the rounds of nested
statements. -/
theorem notes_statement : NotesStatement ts statement := by
  refine Notes.fix fun p hp => ?_
  refine Quiet.bind quiet_acting fun _ => ?_
  refine Quiet.bind quiet_acting fun first => ?_
  -- One case for each production that the first token may choose.
  split
  · exact notes_block hp
  · exact notes_ifStatement hp
  · exact notes_loopStatement hp _
  · exact notes_loopStatement hp _
  · exact notes_doWhileStatement hp
  · exact notes_plainStatement

/-! ### Declarations -/

/-- The tokens of a type are not noted. -/
theorem quiet_typeTokens : Quiet ts typeTokens := by
  refine Quiet.bind quiet_acting fun _ => ?_
  refine Notes.ite (fun _ => ?_) fun _ => Notes.ite (fun _ => ?_) fun _ => ?_
  · exact (quiet_many quiet_acting).bind fun _ => notes_pure rfl
  · refine Quiet.bind quiet_acting fun _ => ?_
    exact (quiet_take _ _).bind fun _ => notes_pure rfl
  · exact (quiet_take _ _).bind fun _ => notes_pure rfl

/-- A type is one leaf. -/
theorem notes_type : NotesNode ts type := by
  refine Quiet.bind quiet_acting fun _ => ?_
  refine quiet_typeTokens.bind fun _ => ?_
  exact (quiet_spanFrom _).bind fun _ => notes_pure (.leaf rfl)

/-- A parameter has no guard in it. -/
theorem notes_parameter : NotesNode ts parameter := by
  refine Quiet.bind quiet_acting fun _ => ?_
  refine notes_type.bind fun n events hn => ?_
  refine (quiet_optional _).bind fun _ => ?_
  refine (quiet_spanFrom _).bind fun _ => notes_pure (.append_nil ?_)
  exact .node rfl hn

/-- Nor has it with its comma. -/
theorem notes_parameterAndComma : NotesNode ts parameterAndComma := by
  refine notes_parameter.bind fun n events hn => ?_
  exact (quiet_optional _).bind fun _ => notes_pure hn.append_nil

/-- Nor has a parameter list. -/
theorem notes_parameterList : NotesNode ts parameterList := by
  refine Quiet.bind quiet_acting fun _ => ?_
  refine Quiet.bind quiet_acting fun _ => ?_
  refine (notes_many_nodes notes_parameterAndComma).bind fun nodes events hnodes => ?_
  refine Quiet.bind quiet_acting fun _ => ?_
  refine (quiet_spanFrom _).bind fun _ => notes_pure (.append_nil ?_)
  exact .node rfl hnodes

/-- An initializer is one leaf, whatever brackets it holds. -/
theorem notes_initializer : NotesNode ts initializer := by
  refine Quiet.bind quiet_acting fun _ => ?_
  refine Quiet.bind quiet_acting fun _ => ?_
  refine Quiet.bind quiet_acting fun _ => ?_
  refine Quiet.bind quiet_acting fun _ => ?_
  exact (quiet_spanFrom _).bind fun _ => notes_pure (.leaf rfl)

/-- The guards of a function are those in its body, if it has one. -/
theorem notes_functionEnd : NotesForest ts functionEnd := by
  refine (quiet_optional _).bind fun _ => Notes.ite (fun _ => notes_pure .nil) fun _ => ?_
  refine Quiet.bind quiet_acting fun _ => Notes.ite (fun _ => ?_) fun _ => notes_fail _
  exact (notes_block notes_statement).bind fun n events hn => notes_pure hn.1.append_nil

/-- The production notes the guards of the forest that it answers beside a flag. -/
abbrev NotesEnded (ts : List Token) (p : Parse (List Node × Bool)) : Prop :=
  Notes ts p fun r events => Noted r.1 events

/-- The guards behind the name of a declarator are those of a body. -/
theorem notes_declaratorRest : NotesEnded ts declaratorRest := by
  refine Quiet.bind quiet_acting fun _ => Notes.ite (fun _ => ?_) fun _ => ?_
  · refine notes_parameterList.bind fun n events hn => ?_
    exact notes_functionEnd.bind fun ns later hns => notes_pure (hn.append hns.append_nil)
  refine Quiet.bind quiet_acting fun _ => Notes.ite (fun _ => ?_) fun _ => notes_pure .nil
  exact notes_initializer.bind fun n events hn => notes_pure hn.append_nil

/-- A declarator has no guard of its own. -/
theorem notes_declarator : Notes ts declarator fun r events => Noted [r.1] events := by
  refine Quiet.bind quiet_acting fun _ => ?_
  refine (quiet_take _ _).bind fun _ => ?_
  refine notes_declaratorRest.bind fun rest events hrest => ?_
  refine (quiet_spanFrom _).bind fun _ => notes_pure (.append_nil ?_)
  exact .node rfl hrest

/-- Declarators note their guards in order, by induction over the commas. -/
theorem notes_declarators : NotesEnded ts declarators := by
  refine Notes.fix fun p hp => ?_
  refine notes_declarator.bind fun first events hfirst => ?_
  refine Notes.ite (fun _ => notes_pure hfirst.append_nil) fun _ => ?_
  refine (quiet_optional _).bind fun _ => Notes.ite (fun _ => ?_) fun _ => ?_
  · exact hp.bind fun later events' hlater => notes_pure (hfirst.append hlater.append_nil)
  · exact notes_pure hfirst.append_nil

/-- A list of declarators has no guard of its own. -/
theorem notes_declaratorList : Notes ts declaratorList fun r events => Noted [r.1] events := by
  refine Quiet.bind quiet_acting fun _ => ?_
  refine notes_declarators.bind fun list events hlist => ?_
  refine (quiet_spanFrom _).bind fun _ => notes_pure (.append_nil ?_)
  exact .node rfl hlist

/-- The end of a declaration is not noted. -/
theorem quiet_declarationEnd (ended : Bool) : Quiet ts (declarationEnd ended) := by
  refine Notes.ite (fun _ => notes_pure rfl) fun _ => ?_
  refine (quiet_optional _).bind fun _ => Notes.ite (fun _ => notes_pure rfl) fun _ => ?_
  exact Quiet.bind quiet_acting fun _ => notes_fail _

/-- The events of a top-level construct: none for a directive; the guards and then the construct
itself for a declaration. -/
def constructEvents (n : Node) : List Event :=
  if n.kind = .declaration then n.guards.map Event.ofGuard ++ [.declaration n.span] else []

/-- The events are those of a top-level construct. -/
abbrev NotesConstruct (ts : List Token) (p : Parse Node) : Prop :=
  Notes ts p fun n events => events = constructEvents n ∧ n.Everywhere Node.OneGuard

/-- The declaration is noted after everything nested in it. -/
theorem notes_declaration : NotesConstruct ts declaration := by
  refine Quiet.bind quiet_acting fun _ => ?_
  refine notes_type.bind fun itsType events htype => ?_
  refine notes_declaratorList.bind fun list later hlist => ?_
  refine (quiet_declarationEnd _).bind fun _ => ?_
  refine (quiet_spanFrom _).bind fun whole => ?_
  refine (notes_note _).bind fun _ _ hnote => ?_
  subst hnote
  -- The guards of the whole node are those of the type, which are none, and of the declarators.
  have hnode : Noted [⟨.declaration, whole, [itsType, list.1]⟩] (events ++ later) :=
    .node rfl (htype.append hlist)
  refine notes_pure ⟨?_, hnode.oneGuard _ List.mem_cons_self⟩
  have hevents := hnode.guards
  rw [List.flatMap_cons, List.flatMap_nil, List.append_nil] at hevents
  rw [constructEvents, if_pos rfl, ← hevents, List.append_nil, List.append_assoc]

/-- A directive is not noted. -/
theorem notes_directive {kind : NodeKind} (hkind : kind.guardKeyword? = none)
    (hdecl : kind ≠ .declaration) : NotesConstruct ts (directive kind) := by
  refine Quiet.bind quiet_acting fun _ => ?_
  refine Quiet.bind quiet_acting fun first => ?_
  refine (quiet_many quiet_acting).bind fun _ => ?_
  refine (quiet_spanFrom _).bind fun whole => notes_pure ⟨(if_neg hdecl).symm, ?_⟩
  exact (Noted.leaf hkind).oneGuard _ List.mem_cons_self

/-- Every construct at the top level notes what `constructEvents` says. -/
theorem notes_topLevel : NotesConstruct ts topLevel := by
  refine Quiet.bind quiet_acting fun first => ?_
  refine Notes.ite (fun _ => notes_directive rfl nofun) fun _ => ?_
  refine Notes.ite (fun _ => notes_directive rfl nofun) fun _ => ?_
  exact Notes.ite (fun _ => notes_declaration) fun _ => notes_fail _

/-- The events of a run of constructs are those of the constructs, one after the other. -/
theorem notes_many_topLevel : Notes ts (Parse.many inUnit topLevel) fun nodes events =>
    events = nodes.flatMap constructEvents ∧ ∀ n ∈ nodes, n.Everywhere Node.OneGuard := by
  refine Notes.many notes_topLevel ⟨rfl, List.forall_mem_nil _⟩ fun n events ns later hn hns => ?_
  exact ⟨by rw [List.flatMap_cons, hn.1, hns.1], List.forall_mem_cons.mpr ⟨hn.2, hns.2⟩⟩

/-- The events of a unit: those of its constructs in order, and then the counts. -/
theorem notes_unit : Notes ts unit fun n events =>
    events = n.children.flatMap constructEvents ++ [.parsedUnit n.children.length ts.length] ∧
      n.Everywhere Node.OneGuard := by
  refine Quiet.bind quiet_acting fun _ => ?_
  refine notes_many_topLevel.bind fun nodes events hnodes => ?_
  refine (quiet_spanFrom _).bind fun whole => ?_
  refine (notes_ask _).bind fun count _ hcount => ?_
  obtain ⟨rfl, i, rfl⟩ := hcount
  refine (notes_note _).bind fun _ _ hnote => ?_
  subst hnote
  refine notes_pure ⟨?_, .node (fun hne => absurd rfl hne) hnodes.2⟩
  -- The count is a question about the whole list, so it is the same wherever the unit ends.
  rw [hnodes.1]
  rfl

end Parse

end LooseC
