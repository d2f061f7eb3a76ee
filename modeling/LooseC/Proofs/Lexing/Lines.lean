import LooseC.Proofs.Lexing.Rescan
import LooseC.Proofs.Lexing.Tiling

/-!
# Lexing line by line

A newline ends every token and every line comment, and nothing but the place survives from one
token to the next. So two texts with a newline between them are lexed one after the other, the
second as it would be alone and only further down (`tokenize_newline`). The one thing that a
newline does not end is a block comment, so the first text must not leave one open
(`EndsInBlock`).

* `Lexer.run_down`: a run that begins `n` rows further down is the same run, `n` rows further
  down;
* `Lexer.run_of_gap`: trivia in front of a text only moves the place where the text begins;
* `Lexer.run_append_newline`: the two runs, one after the other. The induction is over the first
  run.
-/

set_option autoImplicit false

namespace LooseC

/-! ### Further down -/

/-- The place `n` rows further down, in the same column. -/
def Position.down (n : Nat) (p : Position) : Position := ⟨p.row + n, p.column⟩

/-- The token `n` rows further down. -/
def Token.down (n : Nat) (t : Token) : Token := ⟨t.kind, t.lexeme, t.position.down n⟩

/-- The error `n` rows further down. -/
def LexError.down (n : Nat) (e : LexError) : LexError := ⟨e.fault, e.position.down n⟩

namespace Position

/-- To go over a character and to go down are independent of each other. -/
theorem advance_down (n : Nat) (p : Position) (c : Char) :
    (p.down n).advance c = (p.advance c).down n := by
  unfold advance
  split
  · rw [down, down, Nat.add_right_comm]
  · rfl

/-- And so it is over a whole text. -/
theorem advanceAll_down (n : Nat) (p : Position) (cs : List Char) :
    (p.down n).advanceAll cs = (p.advanceAll cs).down n := by
  induction cs generalizing p with
  | nil => rfl
  | cons c cs ih => rw [advanceAll_cons, advanceAll_cons, advance_down, ih]

/-- The line behind a text begins as many rows down as the text has newlines, and one more. -/
theorem advance_newline_advanceAll (cs : List Char) :
    (origin.advanceAll cs).advance '\n' = origin.down (cs.count '\n' + 1) := by
  have hrow := row_advanceAll origin cs
  rw [advance, if_pos rfl, hrow]
  rfl

end Position

namespace Lexer

/-- The run with everything `n` rows further down. -/
def Run.down (n : Nat) (run : Run) : Run :=
  ⟨run.tokens.map (Token.down n), run.failure.map (LexError.down n)⟩

/-- The run with other tokens in front of its own. -/
def Run.after (earlier : List Token) (run : Run) : Run :=
  ⟨earlier ++ run.tokens, run.failure⟩

/-- Rows do not decide what is read. -/
theorem run_down (n : Nat) (cs : List Char) (p : Position) :
    run ⟨cs, p.down n⟩ = (run ⟨cs, p⟩).down n := by
  -- By induction over the run: at its end, behind a token, and at a fault.
  refine run_induction
    (motive := fun lx out => run ⟨lx.rest, lx.position.down n⟩ = out.down n) ?_ ?_ ?_ cs p
  · intro cs p gap hsplit
    rw [run_of_end hsplit]
    rfl
  · intro cs p gap c r s hsplit hs ih
    have hbehind : behind (p.down n) gap s =
        ⟨(behind p gap s).rest, (behind p gap s).position.down n⟩ := by
      rw [behind, Position.advanceAll_down, Position.advanceAll_down]
      rfl
    have htoken : tokenBehind (p.down n) gap s = (tokenBehind p gap s).down n := by
      rw [tokenBehind, Position.advanceAll_down]
      rfl
    rw [run_of_token hsplit hs, hbehind, htoken, ih]
    rfl
  · intro cs p gap c r f hsplit hf
    rw [run_of_fault hsplit hf, Position.advanceAll_down, Position.advanceAll_down]
    rfl

/-- What comes of a run further down: its tokens and its error further down. -/
theorem result_down (n : Nat) (run : Run) :
    (run.down n).result = match run.result with
      | .ok tokens => .ok (tokens.map (Token.down n))
      | .error e => .error (e.down n) := by
  unfold Run.down Run.result
  cases run.failure <;> rfl

/-- What comes of a run with tokens in front: those tokens first, and the same error. -/
theorem result_after (earlier : List Token) (run : Run) :
    (run.after earlier).result = match run.result with
      | .ok tokens => .ok (earlier ++ tokens)
      | .error e => .error e := by
  unfold Run.after Run.result
  cases run.failure <;> rfl

/-- A run is decided by its first read. -/
theorem run_congr {lx lx' : Lexer} (h : lx.readNext = lx'.readNext) : lx.run = lx'.run := by
  cases hread : lx'.readNext with
  | mk answer next =>
    rw [hread] at h
    match answer with
    | .error e => rw [run_of_readNext_error h, run_of_readNext_error hread]
    | .ok none => rw [run_of_readNext_none h, run_of_readNext_none hread]
    | .ok (some t) => rw [run_of_readNext_some h, run_of_readNext_some hread]

/-- Trivia in front of a text only moves the place where the text begins. -/
theorem run_of_gap {gap : List Char} (h : Gap gap) (rest : List Char) (p : Position) :
    run ⟨gap ++ rest, p⟩ = run ⟨rest, p.advanceAll gap⟩ := by
  refine run_congr ?_
  rw [readNext, readNext, Trivia.split_append_of_gap h, Position.advanceAll_append]

end Lexer

/-! ### What a newline ends -/

/-- The trivia ends inside a block comment that nothing closes. -/
def EndsInBlock (gap : List Char) : Prop :=
  ∃ closed body, Gap closed ∧ ¬ ['*', '/'] <:+: body ∧ gap = closed ++ '/' :: '*' :: body

/-- Trivia behind trivia is trivia. -/
theorem Gap.append {gap later : List Char} (h : Gap gap) (hlater : Gap later) :
    Gap (gap ++ later) := by
  induction h with
  | nil => exact hlater
  | cons hpiece _ ih =>
    rw [List.append_assoc]
    exact .cons hpiece ih

/-- One piece of trivia that is closed. -/
theorem ClosedTrivia.gap {piece : List Char} (h : ClosedTrivia piece) : Gap piece := by
  have hgap := Gap.cons h .nil
  rw [List.append_nil] at hgap
  exact hgap

/-- A newline closes the last gap of a text, unless a block comment is open. -/
theorem FinalGap.newline {gap : List Char} (h : FinalGap gap) (hopen : ¬ EndsInBlock gap) :
    Gap (gap ++ ['\n']) := by
  obtain ⟨closed, last, hclosed, hlast, rfl⟩ := h
  rw [List.append_assoc]
  refine hclosed.append ?_
  -- The last piece is empty, a line comment, or a block comment that nothing closes.
  rcases hlast with rfl | hcomment
  · exact (ClosedTrivia.blank isBlank_newline).gap
  · cases hcomment with
    | line hbody => exact (ClosedTrivia.line hbody).gap
    | block hbody => exact absurd ⟨closed, _, hclosed, hbody, rfl⟩ hopen

/-- Every token ends in front of a newline. -/
theorem stops_newline (ds : List Char) : Stops ('\n' :: ds) :=
  StartsBlank.stops ⟨'\n', ds, rfl, isBlank_newline⟩

namespace Lexer

variable {cs gap r : List Char} {c : Char} {s : Scanned}

/-- A token is read in front of a newline as it is read at the end of the text, and wherever it
was read before. -/
theorem read_append_newline (hsplit : Trivia.split cs = (gap, c :: r))
    (hs : scanToken c r = .ok s) (ds : List Char) :
    Trivia.split (cs ++ '\n' :: ds) = (gap, c :: (s.lexeme.tail ++ (s.rest ++ '\n' :: ds))) ∧
      scanToken c (s.lexeme.tail ++ (s.rest ++ '\n' :: ds)) =
        .ok (s.before (s.rest ++ '\n' :: ds)) := by
  have hread := split_rescan hsplit hs ((stops_newline ds).endsLike_append s.rest)
  rwa [← List.append_assoc (gap ++ s.lexeme), append_of_token hsplit hs] at hread

/-- The text behind a token ends where the whole text does. -/
theorem advanceAll_behind (hsplit : Trivia.split cs = (gap, c :: r)) (hs : scanToken c r = .ok s)
    (p : Position) :
    (behind p gap s).position.advanceAll (behind p gap s).rest = p.advanceAll cs := by
  rw [← append_of_token hsplit hs, Position.advanceAll_append, Position.advanceAll_append]
  rfl

/-- Behind a newline the run goes on as if it began there. -/
theorem run_append_newline {tail : List Char} {p : Position}
    (hgood : (run ⟨cs, p⟩).failure = none) (htail : Leaves p cs (run ⟨cs, p⟩).tokens tail)
    (hopen : ¬ EndsInBlock tail) (ds : List Char) :
    run ⟨cs ++ '\n' :: ds, p⟩ =
      (run ⟨ds, (p.advanceAll cs).advance '\n'⟩).after (run ⟨cs, p⟩).tokens := by
  revert hgood htail
  refine run_induction (motive := fun lx out => out.failure = none →
    Leaves lx.position lx.rest out.tokens tail → run ⟨lx.rest ++ '\n' :: ds, lx.position⟩ =
      (run ⟨ds, (lx.position.advanceAll lx.rest).advance '\n'⟩).after out.tokens) ?_ ?_ ?_ cs p
  · -- Nothing but trivia is left, and with the newline it is closed.
    intro cs p gap hsplit _ htail
    have hfinal := (Trivia.split_spec cs).1
    have happend := Trivia.split_append cs
    rw [hsplit] at hfinal happend
    rw [List.append_nil] at happend
    rw [leaves_nil_iff.mp htail, ← happend] at hopen
    have hrun := run_of_gap (hfinal.newline hopen) ds p
    rw [List.append_assoc, happend, Position.advanceAll_append] at hrun
    exact hrun
  · -- The token is read again, and the run behind it is known.
    intro cs p gap c r s hsplit hs ih hgood htail
    obtain ⟨hsplit', hs'⟩ := read_append_newline hsplit hs ds
    have hlater := ih hgood ((leaves_token_iff hsplit hs).mp htail)
    have hbehind : behind p gap (s.before (s.rest ++ '\n' :: ds)) =
        ⟨(behind p gap s).rest ++ '\n' :: ds, (behind p gap s).position⟩ := rfl
    rw [advanceAll_behind hsplit hs] at hlater
    rw [run_of_token hsplit' hs', hbehind, hlater]
    rfl
  · intro cs p gap c r f _ _ hgood
    cases hgood

end Lexer

/-- Two texts with a newline between them are lexed one after the other. If the first can be lexed
and its last gap, `tail`, does not end in a block comment that is still open, then the tokens of
both together are those of the first and then those of the second, as many rows down as the first
has lines; and the error of the second, as many rows down, is the error of both together. -/
theorem tokenize_newline {s₁ s₂ : String} {tokens : List Token} {tail : List Char}
    (h : tokenize s₁ = .ok tokens) (htail : Leaves .origin s₁.toList tokens tail)
    (hopen : ¬ EndsInBlock tail) :
    tokenize (s₁ ++ "\n" ++ s₂) = match tokenize s₂ with
      | .ok later => .ok (tokens ++ later.map (Token.down (s₁.toList.count '\n' + 1)))
      | .error e => .error (e.down (s₁.toList.count '\n' + 1)) := by
  obtain ⟨hgood, rfl⟩ := Lexer.tokenize_eq_ok_iff.mp h
  have hrun := Lexer.run_append_newline hgood htail hopen s₂.toList
  have hsource : Lexer.ofSource (s₁ ++ "\n" ++ s₂) =
      ⟨s₁.toList ++ '\n' :: s₂.toList, .origin⟩ := by
    rw [Lexer.ofSource, Lexer.ofChars, String.toList_append, String.toList_append,
      List.append_assoc]
    rfl
  -- The second text begins at the front of a row, so it is lexed as from the origin.
  rw [Position.advance_newline_advanceAll, Lexer.run_down] at hrun
  rw [tokenize_eq, tokenize_eq, hsource, hrun, Lexer.result_after, Lexer.result_down,
    Lexer.ofSource, Lexer.ofChars]
  cases (Lexer.run ⟨s₂.toList, .origin⟩).result <;> rfl

/-- A line comment ends with its line, and what follows it is lexed, or fails, one row down. -/
theorem tokenize_newline_comment :
    tokenize ("a//b" ++ "\n" ++ "c") =
        .ok [⟨.identifier, "a", ⟨0, 0⟩⟩, ⟨.identifier, "c", ⟨1, 0⟩⟩] ∧
      tokenize ("a//b" ++ "\n" ++ " @") = .error ⟨.unrecognized '@', ⟨1, 1⟩⟩ := by
  have hfirst : tokenize "a//b" = .ok [⟨.identifier, "a", ⟨0, 0⟩⟩] :=
    Lexer.tokenize_eq_ok_iff.mpr (by decide +kernel)
  have htail : Leaves .origin "a//b".toList [⟨.identifier, "a", ⟨0, 0⟩⟩] "//b".toList :=
    ⟨[([], ⟨.identifier, "a", ⟨0, 0⟩⟩)], rfl, by decide, .cons .nil (by decide) rfl .nil⟩
  have hopen : ¬ EndsInBlock "//b".toList := by
    rintro ⟨closed, body, -, -, htext⟩
    -- A block comment has a star.
    have hstar : '*' ∈ closed ++ '/' :: '*' :: body := by simp
    rw [← htext] at hstar
    exact absurd hstar (by decide)
  have hok : tokenize "c" = .ok [⟨.identifier, "c", ⟨0, 0⟩⟩] :=
    Lexer.tokenize_eq_ok_iff.mpr (by decide +kernel)
  have herror : tokenize " @" = .error ⟨.unrecognized '@', ⟨0, 1⟩⟩ :=
    Lexer.tokenize_eq_error_iff.mpr (by decide +kernel)
  refine ⟨?_, ?_⟩
  · rw [tokenize_newline hfirst htail hopen, hok]
    rfl
  · rw [tokenize_newline hfirst htail hopen, herror]
    rfl

end LooseC
