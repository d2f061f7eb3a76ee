import LooseC.Cursor.Basic
import LooseC.Trace

/-!
# Outcomes of productions

A production that is begun at a cursor ends with an answer and the position it stopped at, or with
a `Failure`. Either way it leaves two logs behind. The events are notes for whoever follows an
analysis. The actions are what the production did with the cursor, each with the position it was
done at: a log of the actions tells a run that went back and forth from one that went straight to
the same end.
-/

set_option autoImplicit false

namespace LooseC

/-- Why a production gave up, and at which position. -/
structure Failure where
  fault : SyntaxFault
  pos : Nat
deriving DecidableEq

/-- The error that a failure makes in a token list. -/
def Failure.locate (f : Failure) (ts : List Token) : ParseError :=
  (Cursor.mk ts f.pos).error f.fault

namespace Parse

/-- What a production does with the cursor. A test that the cursor passes or not is no action. -/
inductive Action where
  /-- A token is looked at, or stepped over: the cursor goes from `i` to `j`. -/
  | move (i j : Nat)
  /-- The cursor at `i` is put at `k`. -/
  | seek (i k : Nat)
  /-- A span is made while the cursor is at `i`. -/
  | span (i start stop : Nat)
  /-- The tokens from `i` on are searched. -/
  | search (i : Nat)
  /-- A round that began at `i` is over, and the next one begins at `k`. -/
  | round (i k : Nat)
deriving DecidableEq

/-- How a production ended, and what it did and noted until then. -/
structure Outcome (α : Type) where
  events : List Event
  actions : List Action
  answer : Except Failure (α × Nat)

namespace Outcome

variable {α : Type}

/-- The same end, with other events and actions before its own. -/
def after (events : List Event) (actions : List Action) (o : Outcome α) : Outcome α :=
  ⟨events ++ o.events, actions ++ o.actions, o.answer⟩

/-- Earlier events stand in front. -/
@[simp] theorem events_after (events : List Event) (actions : List Action) (o : Outcome α) :
    (o.after events actions).events = events ++ o.events := rfl

/-- Earlier actions stand in front. -/
@[simp] theorem actions_after (events : List Event) (actions : List Action) (o : Outcome α) :
    (o.after events actions).actions = actions ++ o.actions := rfl

/-- What was done before does not change the answer. -/
@[simp] theorem answer_after (events : List Event) (actions : List Action) (o : Outcome α) :
    (o.after events actions).answer = o.answer := rfl

end Outcome

end Parse

end LooseC
