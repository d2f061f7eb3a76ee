import LooseC.Lexer.Basic
import LooseC.Trace

/-!
# Token streams

A token stream is a lexer together with a flag: once the end of the text or an error was reported,
the stream is finished and every later read finds nothing. Each token is an event when it is read,
also before an error. The number of tokens is one more event, and it follows only if all of them
could be read.
-/

set_option autoImplicit false

namespace LooseC

/-- A source that is read token by token. -/
structure TokenStream where
  lexer : Lexer
  /-- The end of the text or an error was reported. -/
  finished : Bool

namespace TokenStream

/-- A stream that begins with a lexer. -/
def ofLexer (lx : Lexer) : TokenStream := ⟨lx, false⟩

/-- The next token, or nothing at the end of the text. The end and an error finish the stream. -/
def readNext (s : TokenStream) : Traced (Except LexError (Option Token)) × TokenStream :=
  if s.finished then (.silent (.ok none), s)
  else
    match s.lexer.readNext with
    | (.ok none, last) => (.silent (.ok none), ⟨last, true⟩)
    | (.ok (some token), next) => (⟨[.readToken token], .ok (some token)⟩, ⟨next, false⟩)
    | (.error e, last) => (.silent (.error e), ⟨last, true⟩)

/-- The next token or error, or nothing at the end of the text: `readNext` for a caller who
reads until nothing comes. -/
def next? (s : TokenStream) : Traced (Option (Except LexError Token)) × TokenStream :=
  let read := s.readNext
  (read.1.map fun
    | .ok none => none
    | .ok (some token) => some (.ok token)
    | .error e => some (.error e), read.2)

/-- A token leaves less to be read. -/
theorem length_rest_lt_of_readNext {s next : TokenStream} {events : List Event} {token : Token}
    (h : s.readNext = (⟨events, .ok (some token)⟩, next)) :
    next.lexer.rest.length < s.lexer.rest.length := by
  unfold readNext at h
  split at h
  · cases h
  · split at h
    · cases h
    · rename_i hread
      cases h
      exact Lexer.length_rest_lt_of_readNext hread
    · cases h

/-- Reads tokens until nothing comes or an error does. -/
def readAll (s : TokenStream) : Traced (Except LexError (List Token)) × TokenStream :=
  match _h : s.readNext with
  | (⟨events, .error e⟩, last) => (⟨events, .error e⟩, last)
  | (⟨events, .ok none⟩, last) => (⟨events, .ok []⟩, last)
  | (⟨events, .ok (some token)⟩, next) =>
    let later := next.readAll
    ((later.1.map fun tokens => tokens.map (token :: ·)).after events, later.2)
termination_by s.lexer.rest.length
decreasing_by exact length_rest_lt_of_readNext (by assumption)

/-- All remaining tokens, or the first error. Their number is an event. -/
def tokenize (s : TokenStream) : Traced (Except LexError (List Token)) × TokenStream :=
  match s.readAll with
  | (⟨events, .ok tokens⟩, last) => (⟨events ++ [.tokenized tokens.length], .ok tokens⟩, last)
  | (⟨events, .error e⟩, last) => (⟨events, .error e⟩, last)

end TokenStream

/-- The tokens of a source or its first lexical error, with the events on the way. -/
def tokenizeTraced (source : String) : Traced (Except LexError (List Token)) :=
  (TokenStream.ofLexer (.ofSource source)).tokenize.1

/-- The tokens of a source, or its first lexical error. -/
def tokenize (source : String) : Except LexError (List Token) :=
  (tokenizeTraced source).value

end LooseC
