import LooseC.Token.Basic
import LooseC.Tree.Guard
import LooseC.Tree.Node

/-!
# Traces

An analysis can be followed while it runs: it notes each token, guard and declaration as it
comes across them, and a summary after each stage. `Event` is one note, and `Traced` a result
together with the notes that led to it, in order. A result that is an error comes with the
notes up to the error.
-/

set_option autoImplicit false

namespace LooseC

/-- How much detail a reader has to ask for to see an event. -/
inductive EventLevel where
  | trace | debug
deriving DecidableEq

/-- The name of a level. -/
def EventLevel.name : EventLevel → String
  | .trace => "TRACE"
  | .debug => "DEBUG"

/-- One note of an analysis. -/
inductive Event where
  | readToken (token : Token)
  | tokenized (count : Nat)
  | guard (keyword : GuardKeyword) (span : Span)
  | declaration (span : Span)
  | parsedUnit (topLevel tokens : Nat)
  | analysed (name : String) (tokens : Nat)
deriving DecidableEq

/-- A detail of an event. -/
inductive FieldValue where
  | text (s : String)
  | number (n : Nat)
deriving DecidableEq

namespace Event

/-- A construct is worth a trace note, the end of a stage a debug note. -/
def level : Event → EventLevel
  | .readToken _ | .guard _ _ | .declaration _ => .trace
  | .tokenized _ | .parsedUnit _ _ | .analysed _ _ => .debug

/-- The words of an event. -/
def message : Event → String
  | .readToken _ => "read token"
  | .tokenized _ => "tokenized input"
  | .guard _ _ => "guard"
  | .declaration _ => "declaration"
  | .parsedUnit _ _ => "parsed unit"
  | .analysed _ _ => "analysed snapshot"

/-- The details of an event, by name. -/
def fields : Event → List (String × FieldValue)
  | .readToken token => [("token", .text (toString token))]
  | .tokenized count => [("count", .number count)]
  | .guard keyword span =>
    [("keyword", .text keyword.text), ("start", .number span.start), ("end", .number span.stop)]
  | .declaration span => [("start", .number span.start), ("end", .number span.stop)]
  | .parsedUnit topLevel tokens => [("top_level", .number topLevel), ("tokens", .number tokens)]
  | .analysed name tokens => [("name", .text name), ("tokens", .number tokens)]

end Event

/-- A result and the events that led to it. -/
structure Traced (α : Type) where
  events : List Event
  value : α

namespace Traced

variable {α β : Type}

/-- A result that nothing led to. -/
def silent (a : α) : Traced α := ⟨[], a⟩

/-- The same result, with other events before its own. -/
def after (earlier : List Event) (t : Traced α) : Traced α := ⟨earlier ++ t.events, t.value⟩

/-- The same events, with another result. -/
def map (f : α → β) (t : Traced α) : Traced β := ⟨t.events, f t.value⟩

end Traced

end LooseC
