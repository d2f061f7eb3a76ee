import LooseC.Lexer.Stream

/-!
# Sequences of reads

A token stream can be read token by token, in two forms, or all at once, and a caller may mix the
three. `Lexer.Call` is one such read as a value, and `Lexer.session` the answers to a sequence
of them on one stream.
-/

set_option autoImplicit false

namespace LooseC

namespace Lexer

/-- One read of a token stream. -/
inductive Call where
  /-- The next token, with the end of the text as an empty success. -/
  | readNext
  /-- The next token or error, with the end of the text as nothing. -/
  | next
  /-- All remaining tokens. -/
  | tokenize
deriving DecidableEq

/-- The answer to one read. -/
inductive Answer where
  | token (t : Token)
  | finished
  | tokens (ts : List Token)
  | failed (e : LexError)
deriving DecidableEq

/-- The answer to a read of the next token. -/
def Answer.ofReadNext : Except LexError (Option Token) → Answer
  | .ok (some t) => .token t
  | .ok none => .finished
  | .error e => .failed e

/-- The answer to a read of the next token or error. -/
def Answer.ofNext : Option (Except LexError Token) → Answer
  | some (.ok t) => .token t
  | some (.error e) => .failed e
  | none => .finished

/-- The answer to a read of all remaining tokens. -/
def Answer.ofTokenize : Except LexError (List Token) → Answer
  | .ok ts => .tokens ts
  | .error e => .failed e

end Lexer

namespace TokenStream

open Lexer (Call Answer)

/-- One read: its answer and the stream after it. -/
def call (s : TokenStream) : Call → Answer × TokenStream
  | .readNext => (.ofReadNext s.readNext.1.value, s.readNext.2)
  | .next => (.ofNext s.next?.1.value, s.next?.2)
  | .tokenize => (.ofTokenize s.tokenize.1.value, s.tokenize.2)

/-- The answers to a sequence of reads, each on the stream that the read before it left. -/
def session (s : TokenStream) : List Call → List Answer
  | [] => []
  | c :: cs => (s.call c).1 :: (s.call c).2.session cs

end TokenStream

/-- The answers to a sequence of reads of a stream that begins with the lexer. -/
def Lexer.session (lx : Lexer) (calls : List Call) : List Answer :=
  (TokenStream.ofLexer lx).session calls

end LooseC
