import LooseC.Token.Basic
import LooseC.Token.Scan
import LooseC.Token.Trivia

/-!
# The lexer

A lexer is the text that is still to be read and the place where it begins. `readNext` skips
trivia and reads one token. An error leaves the text behind the character at fault; that nothing
is read from there on is a matter of the stream that the lexer feeds (`TokenStream`).

`run` reads to the end or to the first error and keeps what it read on the way.
-/

set_option autoImplicit false

namespace LooseC

/-- A source text that is being read, from the front. -/
structure Lexer where
  /-- The text still to be read. -/
  rest : List Char
  /-- The place where that text begins. -/
  position : Position

namespace Lexer

/-- A lexer at the front of a text. -/
def ofChars (cs : List Char) : Lexer := ⟨cs, .origin⟩

/-- A lexer at the front of a source. -/
def ofSource (source : String) : Lexer := ofChars source.toList

/-- Takes the given number of characters, or all that are left if they are fewer. -/
def skip (lx : Lexer) (n : Nat) : Lexer :=
  ⟨lx.rest.drop n, lx.position.advanceAll (lx.rest.take n)⟩

/-- Reads the token at the front of a text that begins at `p`, or nothing if the text is
empty. No trivia may stand before the token. A fault takes the characters in front of it, and the
one at it unless the text ends there. -/
def readToken (p : Position) : List Char → Except LexError (Option Token) × Lexer
  | [] => (.ok none, ⟨[], p⟩)
  | c :: r =>
    match scanToken c r with
    | .ok s => (.ok (some ⟨s.kind, String.ofList s.lexeme, p⟩), ⟨s.rest, p.advanceAll s.lexeme⟩)
    | .error failure =>
      (.error ⟨failure.fault, p.advanceAll failure.passed⟩,
        (Lexer.mk (c :: r) p).skip (failure.passed.length + 1))

/-- The next token, or nothing at the end of the text. -/
def readNext (lx : Lexer) : Except LexError (Option Token) × Lexer :=
  readToken (lx.position.advanceAll (Trivia.split lx.rest).1) (Trivia.split lx.rest).2

/-- A token that is read at the front takes characters. -/
theorem length_rest_lt_of_readToken {p : Position} {cs : List Char} {token : Token}
    {next : Lexer} (h : readToken p cs = (.ok (some token), next)) :
    next.rest.length < cs.length := by
  unfold readToken at h
  split at h
  · simp at h
  · split at h
    · rename_i s hs
      cases h
      exact (scanToken_splits hs).length_rest_lt
    · simp at h

/-- A token leaves less to be read. -/
theorem length_rest_lt_of_readNext {lx next : Lexer} {token : Token}
    (h : lx.readNext = (.ok (some token), next)) : next.rest.length < lx.rest.length :=
  Nat.lt_of_lt_of_le (length_rest_lt_of_readToken h) (Trivia.length_split_le lx.rest)

/-- All that one lexer yields: the tokens before the end or the first error, and that error. -/
structure Run where
  tokens : List Token
  failure : Option LexError

/-- Reads until the text ends or an error comes. -/
def run (lx : Lexer) : Run :=
  match _h : lx.readNext with
  | (.error e, _) => ⟨[], some e⟩
  | (.ok none, _) => ⟨[], none⟩
  | (.ok (some token), next) =>
    let later := next.run
    ⟨token :: later.tokens, later.failure⟩
termination_by lx.rest.length
decreasing_by exact length_rest_lt_of_readNext (by assumption)

/-- The tokens of a run, or its error. -/
def Run.result (r : Run) : Except LexError (List Token) :=
  match r.failure with
  | some e => .error e
  | none => .ok r.tokens

/-- A run that begins with an error is over. -/
theorem run_of_readNext_error {lx last : Lexer} {e : LexError}
    (h : lx.readNext = (.error e, last)) : lx.run = ⟨[], some e⟩ := by
  rw [run]
  split <;> simp_all

/-- A run that begins at the end is over. -/
theorem run_of_readNext_none {lx last : Lexer} (h : lx.readNext = (.ok none, last)) :
    lx.run = ⟨[], none⟩ := by
  rw [run]
  split <;> simp_all

/-- A run that begins with a token goes on behind it. -/
theorem run_of_readNext_some {lx next : Lexer} {token : Token}
    (h : lx.readNext = (.ok (some token), next)) :
    lx.run = ⟨token :: next.run.tokens, next.run.failure⟩ := by
  rw [run]
  split <;> simp_all

end Lexer

end LooseC
