import LooseC.Lexer.Session
import LooseC.Proofs.Lexing.Run

/-!
# Mixed reads of one lexer

A token stream can be read token by token, in two forms, or all at once. Whatever the order of the
calls, each answer is a matter of the run that the stream begins with and of the calls before it
(`Run.answer`). Calls for single tokens give the tokens of the run one by one, then the outcome of
the run once. A call for all tokens gives what is left of them, or the error of the run. Then the
stream is finished, and nothing is left for any kind of call.

The step is `answer_call`: the run that a call leaves behind answers later calls as the run before
it does, with that call counted. `session_eq_mapIdx` follows by induction over the calls, and
`session_answers` is the statement for a source.
-/

set_option autoImplicit false

namespace LooseC

namespace Lexer

/-- The answer to a call that finds nothing left. -/
def Call.nothing : Call → Answer
  | .readNext | .next => .finished
  | .tokenize => .tokens []

/-- How a run ends, as the answer to a call for one token. -/
def Run.outcome (r : Run) : Answer :=
  match r.failure with
  | some e => .failed e
  | none => .finished

/-- The answer to a call on the lexer of the run, after the calls `before`. Nothing is left if
one of them was for all tokens, or if they were more than the tokens. -/
def Run.answer (r : Run) (before : List Call) (c : Call) : Answer :=
  if .tokenize ∈ before ∨ r.tokens.length < before.length then c.nothing
  else
    match c with
    | .readNext | .next =>
      match r.tokens[before.length]? with
      | some t => .token t
      | none => r.outcome
    | .tokenize =>
      match r.failure with
      | some e => .failed e
      | none => .tokens (r.tokens.drop before.length)

/-- While tokens are left, a call for one token gives the next. -/
theorem answer_of_lt {r : Run} {before : List Call} {c : Call} (hbefore : .tokenize ∉ before)
    (hc : c ≠ .tokenize) (hlt : before.length < r.tokens.length) :
    r.answer before c = .token r.tokens[before.length] := by
  unfold Run.answer
  rw [if_neg (not_or.mpr ⟨hbefore, Nat.not_lt.mpr (Nat.le_of_lt hlt)⟩)]
  cases c with
  | tokenize => exact absurd rfl hc
  | readNext => rw [List.getElem?_eq_getElem hlt]
  | next => rw [List.getElem?_eq_getElem hlt]

/-- An empty run has nothing left for any call. -/
theorem answer_of_empty (before : List Call) (c : Call) :
    (Run.mk [] none).answer before c = c.nothing := by
  unfold Run.answer
  split
  · rfl
  · cases c <;> simp [Run.outcome, Call.nothing]

/-- Behind a token the run goes on as the run with the token does, one call later. -/
theorem answer_cons (r : Run) (t : Token) {c : Call} (hc : c ≠ .tokenize) (before : List Call)
    (d : Call) :
    (Run.mk (t :: r.tokens) r.failure).answer (c :: before) d = r.answer before d := by
  unfold Run.answer
  simp only [List.mem_cons, Ne.symm hc, false_or, List.length_cons, Nat.add_lt_add_iff_right,
    List.getElem?_cons_succ, List.drop_succ_cons]
  rfl

/-- After a call for all tokens, or after the outcome, nothing is left. -/
theorem answer_of_over {r : Run} {c : Call} (h : c = .tokenize ∨ r.tokens = [])
    (before : List Call) (d : Call) : r.answer (c :: before) d = d.nothing := by
  refine if_pos ?_
  rcases h with rfl | h
  · exact .inl List.mem_cons_self
  · rw [h, List.length_nil, List.length_cons]
    exact .inr (Nat.succ_pos _)

/-- The first call of all, if it is for one token. -/
theorem answer_nil (r : Run) {c : Call} (hc : c ≠ .tokenize) :
    r.answer [] c = match r.tokens[0]? with
      | some t => .token t
      | none => r.outcome := by
  cases c with
  | tokenize => exact absurd rfl hc
  | readNext => rfl
  | next => rfl

end Lexer

namespace TokenStream

open Lexer (Call Answer answer_nil answer_cons answer_of_over answer_of_empty)

variable {s : TokenStream}

/-! ### One call -/

/-- The two forms of a call for one token are one call. -/
theorem call_next (s : TokenStream) : s.call .next = s.call .readNext := by
  unfold call next?
  match s.readNext with
  | (⟨_, .ok none⟩, next) => rfl
  | (⟨_, .ok (some t)⟩, next) => rfl
  | (⟨_, .error e⟩, next) => rfl

/-- A finished stream has nothing left for any call. -/
theorem answer_of_finished (h : s.finished = true) (before : List Call) (c : Call) :
    s.run.answer before c = c.nothing := by
  rw [run_of_finished h, answer_of_empty]

/-- A call for one token, and what the stream after it answers. -/
theorem answer_readNext (s : TokenStream) {c : Call} (hc : c ≠ .tokenize) :
    (s.call .readNext).1 = s.run.answer [] c ∧ ∀ before d,
      (s.call .readNext).2.run.answer before d = s.run.answer (c :: before) d := by
  rw [answer_nil _ hc, call]
  rcases s.readNext_cases with ⟨last, hread, hfinished, hrun⟩ | ⟨token, next, hread, hrun⟩ |
    ⟨e, last, hread, hfinished, hrun⟩
  · rw [hread, hrun]
    refine ⟨rfl, fun before d => ?_⟩
    rw [answer_of_over (.inr rfl), answer_of_finished hfinished]
  · rw [hread, hrun]
    exact ⟨rfl, fun before d => (answer_cons next.run token hc before d).symm⟩
  · rw [hread, hrun]
    refine ⟨rfl, fun before d => ?_⟩
    rw [answer_of_over (.inr rfl), answer_of_finished hfinished]

/-- A call answers what the run says, and the run of the stream after it answers every later call
as the run before it does with this call counted. -/
theorem answer_call (s : TokenStream) (c : Call) :
    (s.call c).1 = s.run.answer [] c ∧ ∀ before d,
      (s.call c).2.run.answer before d = s.run.answer (c :: before) d := by
  cases c with
  | readNext => exact answer_readNext s (by decide)
  | next =>
    rw [call_next]
    exact answer_readNext s (by decide)
  | tokenize =>
    refine ⟨?_, fun before d => ?_⟩
    · rw [call, value_tokenize, Lexer.Run.result, Lexer.Run.answer]
      cases s.run.failure <;> rfl
    · rw [answer_of_over (.inl rfl), call, answer_of_finished s.finished_tokenize]

/-! ### All calls -/

/-- Each answer of a session is decided by the run and by the calls before it. -/
theorem session_eq_mapIdx (s : TokenStream) (calls : List Call) :
    s.session calls = calls.mapIdx fun i c => s.run.answer (calls.take i) c := by
  induction calls generalizing s with
  | nil => rfl
  | cons c calls ih =>
    obtain ⟨hfirst, hlater⟩ := answer_call s c
    rw [session, ih, List.mapIdx_cons, hfirst]
    simp only [hlater, List.take_zero, List.take_succ_cons]

end TokenStream

namespace Lexer

/-- The same for a stream that begins with a lexer. -/
theorem session_eq_mapIdx (lx : Lexer) (calls : List Call) :
    lx.session calls = calls.mapIdx fun i c => lx.run.answer (calls.take i) c :=
  TokenStream.session_eq_mapIdx (.ofLexer lx) calls

/-- The reads of a source in any order. Let `run` be all that a lexer yields on the source. The
answer to a call is that of the run: the next token while there is one, then the outcome once; for
a call for all tokens, the tokens that are left or the error; and nothing once all tokens were
asked for or the outcome was given. -/
theorem session_answers (source : String) (calls : List Call) :
    (ofSource source).session calls =
      calls.mapIdx fun i c => (ofSource source).run.answer (calls.take i) c :=
  session_eq_mapIdx (ofSource source) calls

/-- One token on its own, the rest at once, and then nothing is left. -/
example : (ofSource "a b").session [.next, .tokenize, .readNext] =
    [.token ⟨.identifier, "a", ⟨0, 0⟩⟩, .tokens [⟨.identifier, "b", ⟨0, 2⟩⟩], .finished] := by
  decide +kernel

end Lexer

end LooseC
