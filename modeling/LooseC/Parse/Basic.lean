import LooseC.Cursor.Search
import LooseC.Parse.Outcome

/-!
# Productions

A production reads part of a token list from a cursor on. It answers a result and the
position it stopped at, or a `Failure`, and logs on its way what it notes and what it does with
the cursor. The token list itself never changes, so a production hands on a position and not a
cursor.

Each building block that moves the cursor or relies on where it stands logs one action: a step, a
search, a jump, a span, a round. Sequences put the logs of their parts together, so the log of a
production lists every such action in the order it was done, whether the production succeeds or
fails.

Repetition and recursion go through one combinator, `Parse.fix`. It watches that each round
begins with fewer tokens left than the round before and fails with `SyntaxFault.stalled`
otherwise, so every production ends on every input. In the same way `Parse.seek` and
`Parse.span` check the positions they are given.

`Parse.result` is the view of a production without its logs, `Parse.actions` that of one log. The
laws of this module say what each building block does to them, and the rules for the grammar are
stated on `Parse.result`.
-/

set_option autoImplicit false

namespace LooseC

/-- A production with results of type `α`. -/
def Parse (α : Type) : Type := Cursor → Parse.Outcome α

namespace Parse

variable {α β : Type}

/-- What a production answers, its logs left out. -/
def result (p : Parse α) (c : Cursor) : Except Failure (α × Nat) := (p c).answer

/-- What a production does with the cursor, in order. -/
def actions (p : Parse α) (c : Cursor) : List Action := (p c).actions

/-- A production that logs these actions and notes no event. -/
def acting (log : Cursor → List Action) (f : Cursor → Except Failure (α × Nat)) : Parse α :=
  fun c => ⟨[], log c, f c⟩

/-- A production that logs nothing. -/
def silent (f : Cursor → Except Failure (α × Nat)) : Parse α := acting (fun _ => []) f

/-- Reads nothing. -/
protected def pure (a : α) : Parse α := silent fun c => .ok (a, c.pos)

/-- One production after another. The second begins where the first stopped and depends on its
result. -/
protected def bind (p : Parse α) (f : α → Parse β) : Parse β := fun c =>
  match p c with
  | ⟨events, actions, .ok (a, i)⟩ => (f a (c.moveTo i)).after events actions
  | ⟨events, actions, .error failure⟩ => ⟨events, actions, .error failure⟩

/-- Productions are put together in sequence. -/
instance : Monad Parse where
  pure := Parse.pure
  bind := Parse.bind

/-- Gives up at the cursor. -/
def fail (fault : SyntaxFault) : Parse α := silent fun c => .error ⟨fault, c.pos⟩

/-- Notes an event and reads nothing. -/
def note (e : Event) : Parse Unit := fun c => ⟨[e], [], .ok ((), c.pos)⟩

/-- The answer of a question about the cursor. -/
def ask (f : Cursor → α) : Parse α := silent fun c => .ok (f c, c.pos)

/-- The position of the cursor. -/
def position : Parse Nat := ask Cursor.pos

/-- The next token is of the given kind. -/
def nextIs (kind : TokenKind) : Parse Bool := ask (·.nextIs kind)

/-- Goes on only if the cursor passes a test. -/
def require (test : Cursor → Bool) (fault : SyntaxFault) : Parse Unit := silent fun c =>
  if test c then .ok ((), c.pos) else .error ⟨fault, c.pos⟩

/-- The answer of a search, which must find something. -/
def find (search : Cursor → Option Nat) (fault : SyntaxFault) : Parse Nat :=
  acting (fun c => [.search c.pos]) fun c =>
    match search c with
    | some i => .ok (i, c.pos)
    | none => .error ⟨fault, c.pos⟩

/-- The step that an operation makes, if it makes one. -/
def stepTaken (f : Cursor → Except SyntaxFault (Token × Cursor)) (c : Cursor) : List Action :=
  match f c with
  | .ok (_, next) => [.move c.pos next.pos]
  | .error _ => []

/-- An operation that steps over a token. -/
def step (f : Cursor → Except SyntaxFault (Token × Cursor)) : Parse Token :=
  acting (stepTaken f) fun c =>
    match f c with
    | .ok (t, next) => .ok (t, next.pos)
    | .error fault => .error ⟨fault, c.pos⟩

/-- The next token, which stays unread. -/
def peek : Parse Token := step fun c => c.peek.map (·, c)

/-- Takes one token. -/
def consume : Parse Token := step Cursor.consume

/-- Takes one token of the given kind, and otherwise says which kind it found. -/
def expect (kind : TokenKind) : Parse Token := step (·.expect kind)

/-- Takes one token of the given kind, and otherwise gives up with the given fault. -/
def take (kind : TokenKind) (fault : SyntaxFault) : Parse Token := do
  require (·.nextIs kind) fault
  consume

/-- Takes one token if it is of the given kind, and says whether it was. -/
def optional (kind : TokenKind) : Parse Bool := do
  if ← nextIs kind then
    let _ ← consume
    return true
  else
    return false

/-- Goes on from position `i`, which must not lie past the end of the list. -/
def seek (i : Nat) : Parse Unit :=
  acting (fun c => [.seek c.pos i]) fun c =>
    if i ≤ c.tokens.length then .ok ((), i) else .error ⟨.seekPastEnd, c.pos⟩

/-- The span between two positions, which must be in order. -/
def span (start stop : Nat) : Parse Span :=
  acting (fun c => [.span c.pos start stop]) fun c =>
    if start ≤ stop then .ok (⟨start, stop⟩, c.pos) else .error ⟨.reversedSpan, c.pos⟩

/-- The span from a position up to the cursor. -/
def spanFrom (start : Nat) : Parse Span := do
  span start (← position)

/-- The production for the next round of one that began at `c`. It may begin only where fewer
tokens are left than there. -/
def watched (c : Cursor) (p : Parse α) : Parse α := fun later =>
  (if later.remaining < c.remaining then p later else fail .stalled later).after []
    [.round c.pos later.pos]

/-- A production defined in terms of itself, where each further round is `watched`. -/
def fix (body : Parse α → Parse α) : Parse α := fun c =>
  body (fun later =>
    (if later.remaining < c.remaining then fix body later else fail .stalled later).after []
      [.round c.pos later.pos]) c
termination_by c => c.remaining

/-- Repeats a production for as long as the cursor passes a test, and collects the results. -/
def many (test : Cursor → Bool) (item : Parse α) : Parse (List α) :=
  fix fun more => do
    if ← ask test then
      let a ← item
      let as ← more
      return a :: as
    else
      return []

/-- What is logged does not change the answer. -/
@[simp] theorem result_acting (log : Cursor → List Action)
    (f : Cursor → Except Failure (α × Nat)) (c : Cursor) : (acting log f).result c = f c := rfl

/-- What is logged is found in the log. -/
@[simp] theorem actions_acting (log : Cursor → List Action)
    (f : Cursor → Except Failure (α × Nat)) (c : Cursor) : (acting log f).actions c = log c := rfl

/-- A building block without a log answers as it says. -/
@[simp] theorem result_silent (f : Cursor → Except Failure (α × Nat)) (c : Cursor) :
    (silent f).result c = f c := rfl

/-- Reading nothing leaves the cursor where it is. -/
@[simp] theorem result_pure (a : α) (c : Cursor) :
    (pure a : Parse α).result c = .ok (a, c.pos) := rfl

/-- A note leaves the cursor where it is. -/
@[simp] theorem result_note (e : Event) (c : Cursor) : (note e).result c = .ok ((), c.pos) := rfl

/-- The answer of a sequence is that of its second part, begun where the first stopped, or the
failure of the first. -/
theorem result_bind (p : Parse α) (f : α → Parse β) (c : Cursor) :
    (p >>= f).result c =
      match p.result c with
      | .ok (a, i) => (f a).result (c.moveTo i)
      | .error failure => .error failure := by
  change (Parse.bind p f c).answer = _
  unfold Parse.bind result
  split <;> simp_all

/-- The actions of a sequence are those of its parts, one after the other. -/
theorem actions_bind_of_ok {p : Parse α} {f : α → Parse β} {c : Cursor} {a : α} {i : Nat}
    (h : p.result c = .ok (a, i)) :
    (p >>= f).actions c = p.actions c ++ (f a).actions (c.moveTo i) := by
  change (Parse.bind p f c).actions = _
  unfold Parse.bind actions
  unfold result at h
  split <;> simp_all

/-- A sequence whose first part fails does nothing more. -/
theorem actions_bind_of_error {p : Parse α} {f : α → Parse β} {c : Cursor} {failure : Failure}
    (h : p.result c = .error failure) : (p >>= f).actions c = p.actions c := by
  change (Parse.bind p f c).actions = _
  unfold Parse.bind actions
  unfold result at h
  split <;> simp_all

/-- A sequence succeeds exactly if both parts do, the second from where the first stopped. -/
theorem result_bind_eq_ok_iff {p : Parse α} {f : α → Parse β} {c : Cursor} {b : β} {j : Nat} :
    (p >>= f).result c = .ok (b, j) ↔
      ∃ a i, p.result c = .ok (a, i) ∧ (f a).result (c.moveTo i) = .ok (b, j) := by
  rw [result_bind]
  cases h : p.result c with
  | error failure => simp
  | ok r =>
    obtain ⟨a, i⟩ := r
    constructor
    · exact fun hf => ⟨a, i, rfl, hf⟩
    · rintro ⟨_, _, heq, hf⟩
      cases heq
      exact hf

/-- A sequence fails exactly if its first part does, or its second part from where the first
stopped. -/
theorem result_bind_eq_error_iff {p : Parse α} {f : α → Parse β} {c : Cursor}
    {failure : Failure} :
    (p >>= f).result c = .error failure ↔
      p.result c = .error failure ∨
        ∃ a i, p.result c = .ok (a, i) ∧ (f a).result (c.moveTo i) = .error failure := by
  rw [result_bind]
  cases h : p.result c with
  | error e => simp
  | ok r =>
    obtain ⟨a, i⟩ := r
    constructor
    · exact fun hf => Or.inr ⟨a, i, rfl, hf⟩
    · rintro (heq | ⟨_, _, heq, hf⟩)
      · cases heq
      · cases heq
        exact hf

/-- Taking a token fails only at the end of the list. -/
theorem result_consume (c : Cursor) :
    consume.result c =
      match c.peek? with
      | some t => .ok (t, c.pos + 1)
      | none => .error ⟨.unexpectedEnd, c.pos⟩ := by
  change (match c.consume with | .ok (t, next) => _ | .error fault => _) = _
  unfold Cursor.consume
  cases c.peek? <;> rfl

/-- A production that uses itself is one round of its body, in which it may only go on with
fewer tokens left. -/
theorem fix_eq (body : Parse α → Parse α) (c : Cursor) :
    fix body c = body (watched c (fix body)) c := by
  rw [fix]
  rfl

end Parse

end LooseC
