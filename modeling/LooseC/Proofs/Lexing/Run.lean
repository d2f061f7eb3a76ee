import LooseC.Lexer.Stream

/-!
# What a lexer does, read by read

A read takes the trivia off the text and then finds the end, one token, or a fault. Each outcome
has one lemma that says what a whole run looks like from there: `run_of_end`, `run_of_token`
and `run_of_fault`. `run_induction` is the induction that follows them, and every fact about
all the tokens of a text is proved by it.

`TokenStream.run` is what a stream still yields: the run of its lexer, or nothing once it is
finished. `TokenStream.readNext_cases` says what one read takes off this run and which event it
makes, and `TokenStream.readAll_eq` what reading on to the end gives, by induction over the reads.
-/

set_option autoImplicit false

namespace LooseC.Lexer

variable {cs gap r : List Char} {c : Char} {p : Position} {s : Scanned} {f : ScanFailure}

/-- The lexer behind trivia and a token. -/
def behind (p : Position) (gap : List Char) (s : Scanned) : Lexer :=
  ⟨s.rest, (p.advanceAll gap).advanceAll s.lexeme⟩

/-- The token that is read behind trivia, at the place where the trivia ends. -/
def tokenBehind (p : Position) (gap : List Char) (s : Scanned) : Token :=
  ⟨s.kind, String.ofList s.lexeme, p.advanceAll gap⟩

/-- Nothing but trivia: the run is over. -/
theorem run_of_end (hsplit : Trivia.split cs = (gap, [])) :
    run ⟨cs, p⟩ = ⟨[], none⟩ := by
  have hread : readNext ⟨cs, p⟩ = (.ok none, ⟨[], p.advanceAll gap⟩) := by
    rw [readNext, hsplit, readToken]
  exact run_of_readNext_none hread

/-- A token behind trivia: the run goes on behind the token. -/
theorem run_of_token (hsplit : Trivia.split cs = (gap, c :: r)) (hs : scanToken c r = .ok s) :
    run ⟨cs, p⟩ = ⟨tokenBehind p gap s :: (behind p gap s).run.tokens,
      (behind p gap s).run.failure⟩ := by
  refine run_of_readNext_some ?_
  rw [readNext, hsplit, readToken, hs]
  rfl

/-- No token behind trivia: the run ends with the fault. -/
theorem run_of_fault (hsplit : Trivia.split cs = (gap, c :: r))
    (hf : scanToken c r = .error f) :
    run ⟨cs, p⟩ = ⟨[], some ⟨f.fault, (p.advanceAll gap).advanceAll f.passed⟩⟩ := by
  have hread : readNext ⟨cs, p⟩ =
      (.error ⟨f.fault, (p.advanceAll gap).advanceAll f.passed⟩,
        (Lexer.mk (c :: r) (p.advanceAll gap)).skip (f.passed.length + 1)) := by
    rw [readNext, hsplit, readToken, hf]
  exact run_of_readNext_error hread

/-- The text behind a token is shorter than the text before its trivia. -/
theorem length_rest_lt (hsplit : Trivia.split cs = (gap, c :: r)) (hs : scanToken c r = .ok s) :
    s.rest.length < cs.length := by
  have hsplits := (scanToken_splits hs).length_rest_lt
  have hle := Trivia.length_split_le cs
  rw [hsplit] at hle
  exact Nat.lt_of_lt_of_le hsplits hle

/-- The induction over a run. Each token is one step, and it leaves less to be read. -/
theorem run_induction {motive : Lexer → Run → Prop}
    (stop : ∀ cs p gap, Trivia.split cs = (gap, []) → motive ⟨cs, p⟩ ⟨[], none⟩)
    (token : ∀ cs p gap c r s, Trivia.split cs = (gap, c :: r) → scanToken c r = .ok s →
      motive (behind p gap s) (behind p gap s).run →
      motive ⟨cs, p⟩ ⟨tokenBehind p gap s :: (behind p gap s).run.tokens,
        (behind p gap s).run.failure⟩)
    (fault : ∀ cs p gap c r f, Trivia.split cs = (gap, c :: r) → scanToken c r = .error f →
      motive ⟨cs, p⟩ ⟨[], some ⟨f.fault, (p.advanceAll gap).advanceAll f.passed⟩⟩)
    (cs : List Char) (p : Position) : motive ⟨cs, p⟩ (run ⟨cs, p⟩) := by
  induction hn : cs.length using Nat.strongRecOn generalizing cs p with
  | ind n ih =>
    -- Nothing behind the trivia, a token, or a fault: the three outcomes of a read.
    cases hsplit : Trivia.split cs with
    | mk gap rest =>
      cases rest with
      | nil =>
        rw [run_of_end hsplit]
        exact stop cs p gap hsplit
      | cons c r =>
        cases hs : scanToken c r with
        | ok s =>
          rw [run_of_token hsplit hs]
          exact token cs p gap c r s hsplit hs
            (ih s.rest.length (hn ▸ length_rest_lt hsplit hs) s.rest _ rfl)
        | error f =>
          rw [run_of_fault hsplit hs]
          exact fault cs p gap c r f hsplit hs

end LooseC.Lexer

namespace LooseC

namespace TokenStream

variable {s last next : TokenStream} {events : List Event} {token : Token} {e : LexError}

/-- All that a stream still yields. -/
def run (s : TokenStream) : Lexer.Run := if s.finished then ⟨[], none⟩ else s.lexer.run

/-- A finished stream yields nothing. -/
theorem run_of_finished (h : s.finished = true) : s.run = ⟨[], none⟩ := if_pos h

/-- A stream that has just begun reads all of its lexer. -/
@[simp] theorem run_ofLexer (lx : Lexer) : (ofLexer lx).run = lx.run := rfl

/-- The outcomes of a read. It finds nothing and the stream is finished, or it takes the first token
off the run, or it reports the error of the run and the stream is finished. -/
theorem readNext_cases (s : TokenStream) :
    (∃ last, s.readNext = (⟨[], .ok none⟩, last) ∧ last.finished = true ∧ s.run = ⟨[], none⟩) ∨
      (∃ token next, s.readNext = (⟨[.readToken token], .ok (some token)⟩, next) ∧
        s.run = ⟨token :: next.run.tokens, next.run.failure⟩) ∨
      ∃ e last, s.readNext = (⟨[], .error e⟩, last) ∧ last.finished = true ∧
        s.run = ⟨[], some e⟩ := by
  unfold readNext run
  split
  · rename_i hfinished
    exact .inl ⟨s, rfl, hfinished, rfl⟩
  · match hread : s.lexer.readNext with
    | (.ok none, last) => exact .inl ⟨_, rfl, rfl, Lexer.run_of_readNext_none hread⟩
    | (.ok (some token), next) =>
      exact .inr (.inl ⟨token, _, rfl, Lexer.run_of_readNext_some hread⟩)
    | (.error e, last) => exact .inr (.inr ⟨e, _, rfl, rfl, Lexer.run_of_readNext_error hread⟩)

/-- Where a read finds nothing, reading on does not either. -/
theorem readAll_of_none (h : s.readNext = (⟨events, .ok none⟩, last)) :
    s.readAll = (⟨events, .ok []⟩, last) := by
  rw [readAll]
  split <;> simp_all

/-- Where a read fails, reading on does. -/
theorem readAll_of_error (h : s.readNext = (⟨events, .error e⟩, last)) :
    s.readAll = (⟨events, .error e⟩, last) := by
  rw [readAll]
  split <;> simp_all

/-- Behind a token, reading on puts the token and its events in front. -/
theorem readAll_of_some (h : s.readNext = (⟨events, .ok (some token)⟩, next)) :
    s.readAll = ((next.readAll.1.map fun tokens => tokens.map (token :: ·)).after events,
      next.readAll.2) := by
  rw [readAll]
  split <;> simp_all

/-- Reading on gives the tokens of the run or its error, with one event for each token, and leaves
the stream finished. The induction is on the text that is left. -/
theorem readAll_eq (s : TokenStream) :
    s.readAll.1 = ⟨s.run.tokens.map Event.readToken, s.run.result⟩ ∧
      s.readAll.2.finished = true := by
  induction hn : s.lexer.rest.length using Nat.strongRecOn generalizing s with
  | ind n ih =>
    -- A read finishes the stream or answers a token and leaves less to be read.
    rcases s.readNext_cases with ⟨last, hread, hfinished, hrun⟩ | ⟨token, next, hread, hrun⟩ |
      ⟨e, last, hread, hfinished, hrun⟩
    · rw [readAll_of_none hread, hrun]
      exact ⟨rfl, hfinished⟩
    · obtain ⟨hlater, hfinished⟩ := ih _ (hn ▸ length_rest_lt_of_readNext hread) next rfl
      rw [readAll_of_some hread, hrun, hlater]
      refine ⟨?_, hfinished⟩
      unfold Lexer.Run.result
      cases next.run.failure <;> rfl
    · rw [readAll_of_error hread, hrun]
      exact ⟨rfl, hfinished⟩

/-- Asked for all tokens, a stream answers what its run says. -/
theorem value_tokenize (s : TokenStream) : s.tokenize.1.value = s.run.result := by
  -- What is reported on top are events only.
  have hall := s.readAll_eq.1
  unfold tokenize
  split <;> simp_all

/-- Each token is an event, and their number is one if there is no error. -/
theorem events_tokenize (s : TokenStream) :
    s.tokenize.1.events = s.run.tokens.map Event.readToken ++
      match s.run.failure with
      | none => [.tokenized s.run.tokens.length]
      | some _ => [] := by
  have hall := s.readAll_eq.1
  unfold Lexer.Run.result at hall
  unfold tokenize
  cases hfailure : s.run.failure <;> split <;> simp_all

/-- Asked for all tokens, a stream is finished. -/
theorem finished_tokenize (s : TokenStream) : s.tokenize.2.finished = true := by
  have hall := s.readAll_eq.2
  unfold tokenize
  split <;> simp_all

end TokenStream

/-- A source is lexed into what its run says. -/
theorem tokenize_eq (source : String) : tokenize source = (Lexer.ofSource source).run.result :=
  TokenStream.value_tokenize _

namespace Lexer

/-- A source is lexed into the tokens of its run, provided the run ends well. -/
theorem tokenize_eq_ok_iff {source : String} {tokens : List Token} :
    LooseC.tokenize source = .ok tokens ↔
      (ofSource source).run.failure = none ∧ (ofSource source).run.tokens = tokens := by
  rw [tokenize_eq, Run.result]
  cases (ofSource source).run.failure with
  | none => simp
  | some e => simp

/-- A source is not lexed for the failure of its run. -/
theorem tokenize_eq_error_iff {source : String} {e : LexError} :
    LooseC.tokenize source = .error e ↔ (ofSource source).run.failure = some e := by
  rw [tokenize_eq, Run.result]
  cases (ofSource source).run.failure with
  | none => simp
  | some e => simp

end Lexer

end LooseC
