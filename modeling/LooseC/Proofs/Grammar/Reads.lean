import LooseC.Parse.Basic
import LooseC.Proofs.Grammar.Index

/-!
# What a production reads

`p.Reads ts i a j` says that the production `p` takes the tokens of `ts` from index `i` up to
`j` and answers `a`. Every building block of productions has one law here, in terms of what
stands at an index, so that a production unfolds into a statement about indices:

* `reads_bind_iff`: a sequence splits its range at some index;
* `reads_expect_bind_iff`, `reads_take_bind_iff`, `reads_optional_bind_iff`: one token of a
  kind, then the rest;
* `reads_many_iff`: a repetition is over, or it reads one item and goes on;
* `reads_fix_iff`: a production that uses itself is one round of its body.

`reads_many_iff_of_step` is the induction over a repetition: a relation on ranges that unfolds
the way the repetition does is what the repetition reads.
-/

set_option autoImplicit false

namespace LooseC.Parse

variable {α β : Type} {ts : List Token} {i j : Nat}

/-- The production takes the tokens from `i` up to `j` and answers `a`. -/
def Reads (p : Parse α) (ts : List Token) (i : Nat) (a : α) (j : Nat) : Prop :=
  p.result ⟨ts, i⟩ = .ok (a, j)

/-- What is logged beside an answer does not matter to what is read. -/
theorem reads_acting_iff {log : Cursor → List Action} {f : Cursor → Except Failure (α × Nat)}
    {a : α} : (acting log f).Reads ts i a j ↔ f ⟨ts, i⟩ = .ok (a, j) := Iff.rfl

/-- Two successes are the same in both parts. -/
theorem ok_pair_eq_iff {a b : α} :
    (Except.ok (b, i) : Except Failure (α × Nat)) = .ok (a, j) ↔ a = b ∧ j = i := by
  constructor
  · intro h
    cases h
    exact ⟨rfl, rfl⟩
  · rintro ⟨rfl, rfl⟩
    rfl

/-! ### Building blocks that take no token -/

/-- A production that reads nothing stops where it began. -/
@[simp] theorem reads_pure_iff {a b : α} : (pure b : Parse α).Reads ts i a j ↔ a = b ∧ j = i :=
  ok_pair_eq_iff

/-- A sequence reads a range in two parts. -/
theorem reads_bind_iff {p : Parse α} {f : α → Parse β} {b : β} :
    (p >>= f).Reads ts i b j ↔ ∃ a k, p.Reads ts i a k ∧ (f a).Reads ts k b j :=
  result_bind_eq_ok_iff

/-- A choice by a condition that no token decides. -/
theorem reads_ite_iff {c : Prop} [Decidable c] {p q : Parse α} {a : α} :
    (if c then p else q).Reads ts i a j ↔ if c then p.Reads ts i a j else q.Reads ts i a j := by
  split <;> rfl

/-- A production that gives up reads nothing. -/
@[simp] theorem not_reads_fail {fault : SyntaxFault} {a : α} : ¬ (fail fault).Reads ts i a j := by
  simp [fail, silent, reads_acting_iff]

/-- A note is not part of what is read. -/
@[simp] theorem reads_note_bind_iff {e : Event} {f : Unit → Parse β} {b : β} :
    (note e >>= f).Reads ts i b j ↔ (f ()).Reads ts i b j := by
  simp [Reads, result_bind, Cursor.moveTo]

/-- What follows a question goes on with its answer, from the same place. -/
@[simp] theorem reads_ask_bind_iff {g : Cursor → α} {f : α → Parse β} {b : β} :
    (ask g >>= f).Reads ts i b j ↔ (f (g ⟨ts, i⟩)).Reads ts i b j := by
  simp [Reads, result_bind, ask, Cursor.moveTo]

/-- The position is the index that the production has come to. -/
@[simp] theorem reads_position_bind_iff {f : Nat → Parse β} {b : β} :
    (position >>= f).Reads ts i b j ↔ (f i).Reads ts i b j :=
  reads_ask_bind_iff

/-- What follows a test is read only where the test holds. -/
theorem reads_require_bind_iff {test : Cursor → Bool} {fault : SyntaxFault} {f : Unit → Parse β}
    {b : β} : (require test fault >>= f).Reads ts i b j ↔
      test ⟨ts, i⟩ = true ∧ (f ()).Reads ts i b j := by
  by_cases h : test ⟨ts, i⟩ = true <;> simp [Reads, result_bind, require, h, Cursor.moveTo]

/-- A search that finds something answers it and stays where it is. -/
theorem result_find_of_some {search : Cursor → Option Nat} {c : Cursor}
    (h : search c = some j) (fault : SyntaxFault) :
    (find search fault).result c = .ok (j, c.pos) := by
  simp [find, h]

/-- A search that finds nothing gives up where it is. -/
theorem result_find_of_none {search : Cursor → Option Nat} {c : Cursor}
    (h : search c = none) (fault : SyntaxFault) :
    (find search fault).result c = .error ⟨fault, c.pos⟩ := by
  simp [find, h]

/-- What follows a search goes on with the index it finds. -/
theorem reads_find_bind_iff {search : Cursor → Option Nat} {fault : SyntaxFault}
    {f : Nat → Parse β} {b : β} : (find search fault >>= f).Reads ts i b j ↔
      ∃ k, search ⟨ts, i⟩ = some k ∧ (f k).Reads ts i b j := by
  cases h : search ⟨ts, i⟩ <;> simp [Reads, result_bind, find, h, Cursor.moveTo]

/-- What follows a jump is read from the new place on, which is not past the end. -/
theorem reads_seek_bind_iff {k : Nat} {f : Unit → Parse β} {b : β} :
    (seek k >>= f).Reads ts i b j ↔ k ≤ ts.length ∧ (f ()).Reads ts k b j := by
  by_cases h : k ≤ ts.length <;> simp [Reads, result_bind, seek, h, Cursor.moveTo]

/-- What follows a span goes on with it, and it is in order. -/
theorem reads_span_bind_iff {start stop : Nat} {f : Span → Parse β} {b : β} :
    (span start stop >>= f).Reads ts i b j ↔ start ≤ stop ∧ (f ⟨start, stop⟩).Reads ts i b j := by
  by_cases h : start ≤ stop <;> simp [Reads, result_bind, span, h, Cursor.moveTo]

/-- The same for a span that ends at the cursor. -/
theorem reads_spanFrom_bind_iff {start : Nat} {f : Span → Parse β} {b : β} :
    (spanFrom start >>= f).Reads ts i b j ↔ start ≤ i ∧ (f ⟨start, i⟩).Reads ts i b j := by
  by_cases h : start ≤ i <;>
    simp [Reads, spanFrom, result_bind, position, ask, span, h, Cursor.moveTo]

/-! ### Building blocks that look at a token -/

/-- The next token is the one at the index. -/
theorem nextIs_iff {kind : TokenKind} : (Cursor.mk ts i).nextIs kind = true ↔
    kindAt? ts i = some kind := by
  simp [Cursor.nextIs, Cursor.peek?, kindAt?]

/-- The end of the list is reached where no index is left. -/
theorem atEnd_iff : (Cursor.mk ts i).atEnd = true ↔ ts.length ≤ i := by
  simp [Cursor.atEnd]

/-- Looking at a token answers it and stays where it is. -/
theorem result_peek_of_some {t : Token} (h : ts[i]? = some t) :
    peek.result ⟨ts, i⟩ = .ok (t, i) := by
  simp [peek, step, Cursor.peek, Cursor.peek?, h, Except.map]

/-- There is nothing to look at behind the list. -/
theorem result_peek_of_none (h : ts[i]? = none) :
    peek.result ⟨ts, i⟩ = .error ⟨.unexpectedEnd, i⟩ := by
  simp [peek, step, Cursor.peek, Cursor.peek?, h, Except.map]

/-- Taking a token goes one index on. -/
theorem result_consume_of_some {t : Token} (h : ts[i]? = some t) :
    consume.result ⟨ts, i⟩ = .ok (t, i + 1) := by
  rw [result_consume, Cursor.peek?, h]

/-- There is nothing to take behind the list. -/
theorem result_consume_of_none (h : ts[i]? = none) :
    consume.result ⟨ts, i⟩ = .error ⟨.unexpectedEnd, i⟩ := by
  rw [result_consume, Cursor.peek?, h]

/-- A token of another kind is not taken. -/
theorem result_expect_of_some {t : Token} (h : ts[i]? = some t) (kind : TokenKind) :
    (expect kind).result ⟨ts, i⟩ =
      if t.kind = kind then .ok (t, i + 1) else .error ⟨.mismatch kind t.kind, i⟩ := by
  by_cases hk : t.kind = kind <;>
    simp [expect, step, Cursor.expect, Cursor.peek?, h, hk, Cursor.moveTo]

/-- There is nothing to expect behind the list. -/
theorem result_expect_of_none (h : ts[i]? = none) (kind : TokenKind) :
    (expect kind).result ⟨ts, i⟩ = .error ⟨.unexpectedEnd, i⟩ := by
  simp [expect, step, Cursor.expect, Cursor.peek?, h]

/-- A choice by the kind of the next token. -/
theorem reads_nextIs_iff {kind : TokenKind} {p q : Parse α} {a : α} :
    (do if ← nextIs kind then p else q).Reads ts i a j ↔
      if kindAt? ts i = some kind then p.Reads ts i a j else q.Reads ts i a j := by
  simp only [nextIs, reads_ask_bind_iff, reads_ite_iff, nextIs_iff]

/-- A token is looked at, and what follows may depend on it. -/
theorem reads_peek_bind_iff {f : Token → Parse β} {b : β} :
    (peek >>= f).Reads ts i b j ↔ ∃ t, ts[i]? = some t ∧ (f t).Reads ts i b j := by
  cases h : ts[i]? <;>
    simp [Reads, result_bind, peek, step, Cursor.peek, Cursor.peek?, h, Except.map, Cursor.moveTo]

/-- Taking reads one token. -/
theorem reads_consume_iff {t : Token} :
    consume.Reads ts i t j ↔ ts[i]? = some t ∧ j = i + 1 := by
  rw [Reads, result_consume, Cursor.peek?]
  cases ts[i]? <;> simp [eq_comm]

/-- One token is taken, and what follows may depend on it. -/
theorem reads_consume_bind_iff {f : Token → Parse β} {b : β} :
    (consume >>= f).Reads ts i b j ↔ ∃ t, ts[i]? = some t ∧ (f t).Reads ts (i + 1) b j := by
  simp only [reads_bind_iff, reads_consume_iff]
  grind

/-- A token of the wanted kind is taken, and what follows does not depend on it. -/
theorem reads_take_bind_iff {kind : TokenKind} {fault : SyntaxFault} {p : Parse β} {b : β} :
    (do let _ ← take kind fault; p).Reads ts i b j ↔
      kindAt? ts i = some kind ∧ p.Reads ts (i + 1) b j := by
  have htake {t : Token} {k : Nat} : (take kind fault).Reads ts i t k ↔
      kindAt? ts i = some kind ∧ ts[i]? = some t ∧ k = i + 1 := by
    rw [take, reads_require_bind_iff, nextIs_iff, reads_consume_iff]
  simp only [reads_bind_iff, htake, kindAt?_eq_some_iff]
  grind

/-- Expecting a kind reads one token, which is of that kind. -/
theorem reads_expect_iff {kind : TokenKind} {t : Token} :
    (expect kind).Reads ts i t j ↔ (ts[i]? = some t ∧ t.kind = kind) ∧ j = i + 1 := by
  rw [expect, step, reads_acting_iff, Cursor.expect, Cursor.peek?]
  cases ts[i]? with
  | none => simp
  | some u => by_cases hu : u.kind = kind <;> grind [Cursor.moveTo]

/-- A token of the wanted kind is taken, and what follows does not depend on it. -/
theorem reads_expect_bind_iff {kind : TokenKind} {p : Parse β} {b : β} :
    (do let _ ← expect kind; p).Reads ts i b j ↔
      kindAt? ts i = some kind ∧ p.Reads ts (i + 1) b j := by
  simp only [reads_bind_iff, reads_expect_iff, kindAt?_eq_some_iff]
  grind

/-- A token that may be there is taken if it is. -/
theorem reads_optional_bind_iff {kind : TokenKind} {f : Bool → Parse β} {b : β} :
    (optional kind >>= f).Reads ts i b j ↔
      if kindAt? ts i = some kind then (f true).Reads ts (i + 1) b j
      else (f false).Reads ts i b j := by
  have hoptional {flag : Bool} {k : Nat} : (optional kind).Reads ts i flag k ↔
      if kindAt? ts i = some kind then flag = true ∧ k = i + 1 else flag = false ∧ k = i := by
    rw [optional, reads_nextIs_iff, reads_consume_bind_iff, reads_pure_iff]
    split
    · rename_i hkind
      obtain ⟨t, ht, -⟩ := kindAt?_eq_some_iff.mp hkind
      simp [ht]
    · exact reads_pure_iff
  simp only [reads_bind_iff, hoptional]
  split <;> simp

/-! ### Repetition and recursion -/

/-- A round that is let begin is logged, and then runs as it is. -/
theorem watched_of_lt {k : Nat} (p : Parse α) (h : ts.length - k < ts.length - i) :
    watched ⟨ts, i⟩ p ⟨ts, k⟩ = (p ⟨ts, k⟩).after [] [.round i k] :=
  congrArg (Outcome.after [] [.round i k]) (if_pos h)

/-- A round gives up where no token has been taken since the one before began. -/
theorem result_watched (p : Parse α) (ts : List Token) (i k : Nat) :
    (watched ⟨ts, i⟩ p).result ⟨ts, k⟩ =
      if ts.length - k < ts.length - i then p.result ⟨ts, k⟩ else .error ⟨.stalled, k⟩ :=
  apply_ite Outcome.answer _ _ _

/-- A production that uses itself is one round of its body, in which it may only go on further
on. -/
theorem result_fix (body : Parse α → Parse α) (ts : List Token) (i : Nat) :
    (fix body).result ⟨ts, i⟩ = (body (watched ⟨ts, i⟩ (fix body))).result ⟨ts, i⟩ := by
  rw [result, fix_eq]
  rfl

/-- A round that reads something has begun with fewer tokens left. -/
theorem reads_watched_iff {k : Nat} {p : Parse α} {a : α} :
    (watched ⟨ts, i⟩ p).Reads ts k a j ↔
      ts.length - k < ts.length - i ∧ p.Reads ts k a j := by
  rw [Reads, result_watched]
  split
  · rename_i hlt
    exact (and_iff_right hlt).symm
  · rename_i hge
    simp [hge]

/-- A production that uses itself reads what one round of its body does. -/
theorem reads_fix_iff {body : Parse α → Parse α} {a : α} :
    (fix body).Reads ts i a j ↔ (body (watched ⟨ts, i⟩ (fix body))).Reads ts i a j := by
  rw [Reads, result_fix]
  rfl

/-- A repetition is over where its test fails; elsewhere it reads one item, which must take a
token, and goes on. -/
theorem reads_many_iff {test : Cursor → Bool} {item : Parse α} {as : List α} :
    (many test item).Reads ts i as j ↔
      (test ⟨ts, i⟩ = false ∧ as = [] ∧ j = i) ∨
        (test ⟨ts, i⟩ = true ∧ ∃ a k later, item.Reads ts i a k ∧ ts.length - k < ts.length - i ∧
          (many test item).Reads ts k later j ∧ as = a :: later) := by
  unfold many
  rw [reads_fix_iff, reads_ask_bind_iff, reads_ite_iff]
  by_cases htest : test ⟨ts, i⟩ = true
  · simp only [htest, if_true, reads_bind_iff, reads_watched_iff, reads_pure_iff]
    grind
  · simp [htest]

/-- Where its test holds, a repetition is its first item and then the repetition under watch. -/
theorem result_many_of_test {test : Cursor → Bool} {item : Parse α}
    (htest : test ⟨ts, i⟩ = true) :
    (many test item).result ⟨ts, i⟩ =
      (item >>= fun a => watched ⟨ts, i⟩ (many test item) >>= fun as =>
        pure (a :: as)).result ⟨ts, i⟩ := by
  unfold many
  rw [result_fix, result_bind]
  simp only [ask, result_silent, Cursor.moveTo, htest, if_true]

/-- A repetition whose first item is known is that item and the repetition behind it, also where
the repetition fails. -/
theorem result_many_of_reads {test : Cursor → Bool} {item : Parse α} {a : α}
    (htest : test ⟨ts, i⟩ = true) (ha : item.Reads ts i a j) (hlt : i < j) (hle : j ≤ ts.length) :
    (many test item).result ⟨ts, i⟩ =
      ((many test item).result ⟨ts, j⟩).map fun r => (a :: r.1, r.2) := by
  -- The item took a token, so the watch lets the repetition go on.
  have hwatched : (watched ⟨ts, i⟩ (many test item)).result ⟨ts, j⟩ =
      (many test item).result ⟨ts, j⟩ := by
    rw [result_watched, if_pos (by omega)]
  rw [result_many_of_test htest, result_bind, ha]
  simp only [result_bind, Cursor.moveTo, hwatched]
  cases (many test item).result ⟨ts, j⟩ <;> rfl

/-- A repetition fails where one of its items does, or where the watch ends a round, after items
that were read. -/
theorem result_many_eq_error {test : Cursor → Bool} {item : Parse α} {failure : Failure}
    (h : (many test item).result ⟨ts, i⟩ = .error failure) :
    test ⟨ts, i⟩ = true ∧ (item.result ⟨ts, i⟩ = .error failure ∨
      ∃ a k, item.Reads ts i a k ∧
        (watched ⟨ts, i⟩ (many test item)).result ⟨ts, k⟩ = .error failure) := by
  cases htest : test ⟨ts, i⟩ with
  | false =>
    have hend : (many test item).Reads ts i [] i := reads_many_iff.mpr (.inl ⟨htest, rfl, rfl⟩)
    rw [hend] at h
    cases h
  | true =>
    rw [result_many_of_test htest, result_bind_eq_error_iff] at h
    refine ⟨rfl, h.imp_right ?_⟩
    rintro ⟨a, k, hread, hlater⟩
    rcases result_bind_eq_error_iff.mp hlater with hlater | ⟨as, l, -, hpure⟩
    · exact ⟨a, k, hread, hlater⟩
    · cases hpure

/-- What every item of a repetition keeps true holds where the repetition stops, and there its
test fails. -/
theorem Reads.many_invariant {test : Cursor → Bool} {item : Parse α} {I : Nat → Prop}
    {as : List α} (h : (many test item).Reads ts i as j) (hi : I i)
    (hitem : ∀ k a l, I k → item.Reads ts k a l → I l) : I j ∧ test ⟨ts, j⟩ = false := by
  induction hn : ts.length - i using Nat.strongRecOn generalizing i as with
  | ind n ih =>
    rcases reads_many_iff.mp h with ⟨htest, rfl, rfl⟩ | ⟨-, a, k, later, ha, hlt, hlater, rfl⟩
    · exact ⟨hi, htest⟩
    · exact ih (ts.length - k) (hn ▸ hlt) hlater (hitem i a k hi ha) rfl

/-- A relation on ranges that unfolds the way a repetition does is what the repetition reads, up
to a place where `Q` holds. Only ranges from `low` on matter. The induction is on the number of
tokens left. -/
theorem reads_many_iff_of_step {test : Cursor → Bool} {item : Parse α} {Q : Nat → Prop}
    {R : Nat → List α → Nat → Prop} {low : Nat} (hlow : low ≤ i)
    (hstep : ∀ i as j, low ≤ i → (R i as j ↔ (test ⟨ts, i⟩ = false ∧ as = [] ∧ j = i ∧ Q j) ∨
      (test ⟨ts, i⟩ = true ∧ ∃ a k later, item.Reads ts i a k ∧ ts.length - k < ts.length - i ∧
        R k later j ∧ as = a :: later))) (as : List α) :
    (many test item).Reads ts i as j ∧ Q j ↔ R i as j := by
  induction hn : ts.length - i using Nat.strongRecOn generalizing i as with
  | ind n ih =>
    -- Behind an item fewer tokens are left, so there the statement is known.
    have hlater {k : Nat} (hlt : ts.length - k < ts.length - i) (later : List α) :=
      ih (ts.length - k) (hn ▸ hlt) (i := k) (by omega) later rfl
    rw [reads_many_iff, hstep i as j hlow, or_and_right]
    refine or_congr (by simp only [and_assoc]) ?_
    constructor
    · rintro ⟨⟨htest, a, k, later, hitem, hlt, hmore, heq⟩, hQ⟩
      exact ⟨htest, a, k, later, hitem, hlt, (hlater hlt later).mp ⟨hmore, hQ⟩, heq⟩
    · rintro ⟨htest, a, k, later, hitem, hlt, hR, heq⟩
      obtain ⟨hmore, hQ⟩ := (hlater hlt later).mpr hR
      exact ⟨⟨htest, a, k, later, hitem, hlt, hmore, heq⟩, hQ⟩

/-- A run of single tokens ends at the first index where the test fails. -/
theorem reads_many_consume_iff {test : Cursor → Bool} {P : Nat → Prop}
    (htest : ∀ k, test ⟨ts, k⟩ = true ↔ P k) (hlt : ∀ k, P k → k < ts.length) :
    (∃ as, (many test consume).Reads ts i as j) ↔ FirstFrom (fun m => ¬ P m) i j := by
  induction hn : ts.length - i using Nat.strongRecOn generalizing i with
  | ind n ih =>
    rw [FirstFrom.step]
    by_cases hi : P i
    -- A token is there to be taken, and then the run goes on one index further.
    · have hlen := hlt i hi
      have hmore := ih (ts.length - (i + 1)) (by omega) (i := i + 1) rfl
      have htrue := (htest i).mpr hi
      rw [← hmore]
      constructor
      · rintro ⟨as, has⟩
        rw [reads_many_iff] at has
        simp only [htrue, reads_consume_iff] at has
        grind
      · rintro (⟨hneg, -⟩ | ⟨-, as, has⟩)
        · exact absurd hi hneg
        · refine ⟨ts[i] :: as, reads_many_iff.mpr (.inr ?_)⟩
          refine ⟨htrue, ts[i], i + 1, as, ?_, ?_, has, rfl⟩
          · exact reads_consume_iff.mpr ⟨List.getElem?_eq_getElem hlen, rfl⟩
          · omega
    · -- Where the test fails at once, the run is empty.
      have hfalse : test ⟨ts, i⟩ = false := by rw [← Bool.not_eq_true, htest]; exact hi
      have hend (as : List Token) :
          (many test consume).Reads ts i as j ↔ as = [] ∧ j = i := by
        rw [reads_many_iff, hfalse]
        simp
      simp [hend, hi]

end LooseC.Parse
