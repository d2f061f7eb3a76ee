import LooseC.Cursor.Session
import LooseC.Proofs.Grammar.Search

/-!
# What every sequence of cursor operations keeps

A cursor is moved by three operations: a seek, and `consume` and `expect` where they take a token.
One lemma says so for all operations (`apply_snd`): the cursor behind an operation is the one before
it, moved to `Op.target`. Two more lemmas are about the answer. An operation that needs a token
answers the one under the cursor, if that is of a kind it admits, and fails otherwise
(`answer_of_needsToken`). Each error is one that `Cursor.error` makes (`eq_error_of_apply`), so one
lemma locates them all (`locatedAt_error`).

So an operation keeps the cursor in its list (`StandsIn.apply`), and by induction a sequence of them
does (`StandsIn.after`), where no seek asks for a place past the end. `session_invariant` states for
each point of a session what a caller relies on there (`WellPlaced`), and for each operation what it
does (`LawfulStep`).
-/

set_option autoImplicit false

namespace LooseC.Cursor

/-- The operation needs a token under the cursor. -/
def Op.needsToken : Op → Bool
  | .peek | .consume | .expect _ => true
  | _ => false

/-- A token of this kind will do for the operation. -/
def Op.admits : Op → TokenKind → Bool
  | .expect wanted, kind => decide (kind = wanted)
  | _, _ => true

/-- The position behind an operation at position `i`. A seek goes where it is told, a token that is
taken moves the cursor by one, and nothing else moves it. -/
def Op.target : Op → Answer → Nat → Nat
  | .seek j, _, _ => j
  | .consume, .token _, i | .expect _, .token _, i => i + 1
  | _, _, i => i

/-- The cursor after a sequence of operations. -/
def after (c : Cursor) (ops : List Op) : Cursor := ops.foldl (fun c op => (c.apply op).2) c

/-- One of the searches from the cursor answers the index `j`. -/
inductive Finds (c : Cursor) (j : Nat) : Prop where
  | next (kind : TokenKind) (h : c.findNext kind = some j)
  | matching (opening closing : TokenKind) (h : c.findMatching opening closing = some j)
  | sameLevel (p : Token → Bool) (h : c.findAtSameLevel p = some j)

/-- The error carries the position and the kind of the token at `i`, or of the last token once the
list has ended. It carries none exactly if there is no token at all. -/
structure LocatedAt (ts : List Token) (i : Nat) (e : ParseError) : Prop where
  current : ∀ t, ts[i]? = some t → e.position = some t.position ∧ e.found = some t.kind
  exhausted : ts.length ≤ i → ∀ t, ts.getLast? = some t →
    e.position = some t.position ∧ e.found = some t.kind
  position_eq_none_iff : e.position = none ↔ ts = []
  found_eq_none_iff : e.found = none ↔ ts = []

/-- The cursor is at a token of the list or at its end. -/
structure StandsIn (ts : List Token) (c : Cursor) : Prop where
  tokens_eq : c.tokens = ts
  pos_le : c.pos ≤ ts.length

/-- A cursor that stands in its list can go on behind whatever a search finds, and it can take the
tokens that it is said to have ahead, but no others. -/
structure WellPlaced (ts : List Token) (c : Cursor) : Prop extends StandsIn ts c where
  finds : ∀ j, c.Finds j →
    c.pos ≤ j ∧ j < ts.length ∧ c.apply (.seek (j + 1)) = (.done, ⟨ts, j + 1⟩)
  nextAre_iff : ∀ kinds, c.nextAre kinds = true ↔
    ∀ step ∈ c.session (kinds.map .expect), ∃ t, step.1 = .token (some t)

/-- What one operation does to a cursor `c` in the list: where it leaves the cursor, when it answers
a token and which one, and where its errors point. -/
structure LawfulStep (ts : List Token) (c : Cursor) (op : Op) (answer : Answer) (next : Cursor) :
    Prop where
  pos_eq : next.pos = op.target answer c.pos
  fetches : op.needsToken = true →
    (∃ t, ts[c.pos]? = some t ∧ op.admits t.kind = true ∧ answer = .token (some t)) ∨
      (∀ t, ts[c.pos]? = some t → op.admits t.kind = false) ∧ ∃ e, answer = .error e
  fails : ∀ e, answer = .error e → next = c ∧ LocatedAt ts c.pos e

variable {ts : List Token} {c : Cursor} {op : Op} {i j : Nat}

/-! ### One operation -/

/-- A seek goes where it is told, an operation that took a token goes one further, and any other
stays. -/
theorem Op.target_cases (op : Op) (answer : Answer) (i : Nat) :
    op = .seek (op.target answer i) ∨
      (op.needsToken = true ∧ (∃ t, answer = .token t) ∧ op.target answer i = i + 1) ∨
      op.target answer i = i := by
  unfold target
  split
  · exact .inl rfl
  · exact .inr (.inl ⟨rfl, ⟨_, rfl⟩, rfl⟩)
  · exact .inr (.inl ⟨rfl, ⟨_, rfl⟩, rfl⟩)
  · exact .inr (.inr rfl)

/-- A failed operation does not move the cursor. -/
theorem Op.target_error (op : Op) (e : ParseError) (i : Nat) (hop : ∀ j, op ≠ .seek j) :
    op.target (.error e) i = i := by
  cases op with
  | seek j => exact absurd rfl (hop j)
  | _ => rfl

/-- An operation does not change the list, and it leaves the cursor at its target. -/
theorem apply_snd (c : Cursor) (op : Op) (hseek : ∀ i, op = .seek i → i ≤ c.tokens.length) :
    (c.apply op).2 = c.moveTo (op.target (c.apply op).1 c.pos) := by
  -- The operations that move the cursor are told apart, and the answer decides about a token.
  cases op with
  | seek i =>
    show c.moveTo (min i c.tokens.length) = c.moveTo i
    rw [Nat.min_eq_left (hseek i rfl)]
  | peek =>
    unfold apply
    cases c.peek <;> rfl
  | consume =>
    unfold apply consume
    cases c.peek? <;> rfl
  | expect kind =>
    unfold apply Cursor.expect
    cases c.peek? with
    | none => rfl
    | some t =>
      by_cases hkind : t.kind = kind
      · simp only [if_pos hkind]
        rfl
      · simp only [if_neg hkind]
        rfl
  | _ => rfl

/-- An operation that needs a token answers the one under the cursor or fails. -/
theorem answer_of_needsToken (c : Cursor) (op : Op) (hop : op.needsToken = true) :
    (∃ t, c.peek? = some t ∧ op.admits t.kind = true ∧ (c.apply op).1 = .token (some t)) ∨
      (∀ t, c.peek? = some t → op.admits t.kind = false) ∧
        ∃ fault, (c.apply op).1 = .error (c.error fault) := by
  -- At the end each of the three fails, and on a token only a wrong kind makes one fail.
  cases hpeek : c.peek? with
  | none =>
    refine .inr ⟨nofun, .unexpectedEnd, ?_⟩
    cases op with
    | peek => simp only [apply, peek, hpeek]
    | consume => simp only [apply, consume, hpeek, ofStep]
    | expect kind => simp only [apply, Cursor.expect, hpeek, ofStep]
    | _ => cases hop
  | some t =>
    cases op with
    | peek => exact .inl ⟨t, rfl, rfl, by simp only [apply, peek, hpeek]⟩
    | consume => exact .inl ⟨t, rfl, rfl, by simp only [apply, consume, hpeek, ofStep]⟩
    | expect kind =>
      by_cases hkind : t.kind = kind
      · refine .inl ⟨t, rfl, decide_eq_true hkind, ?_⟩
        simp only [apply, Cursor.expect, hpeek, ofStep, if_pos hkind]
      · refine .inr ⟨?_, .mismatch kind t.kind, ?_⟩
        · rintro _ ⟨⟩
          exact decide_eq_false hkind
        · simp only [apply, Cursor.expect, hpeek, ofStep, if_neg hkind]
    | _ => cases hop

/-- Every error is one that the cursor makes. -/
theorem eq_error_of_apply {e : ParseError} (h : (c.apply op).1 = .error e) :
    ∃ fault, e = c.error fault := by
  -- What needs a token fails as said before, and of the rest only a request for an error makes one.
  cases hop : op.needsToken with
  | true =>
    rcases answer_of_needsToken c op hop with ⟨t, -, -, hanswer⟩ | ⟨-, fault, hanswer⟩
    · rw [hanswer] at h
      cases h
    · rw [hanswer] at h
      cases h
      exact ⟨fault, rfl⟩
  | false =>
    cases op with
    | error message =>
      cases h
      exact ⟨_, rfl⟩
    | peek | consume | expect kind => cases hop
    | _ => cases h

/-! ### Where errors point -/

/-- Only in an empty list is there no token to point at. -/
theorem whereToken?_eq_none_iff : c.whereToken? = none ↔ c.tokens = [] := by
  rw [whereToken?, Option.or_eq_none_iff, List.getLast?_eq_none_iff, and_iff_right_iff_imp]
  intro h
  rw [peek?, h, List.getElem?_nil]

/-- Every error that a cursor makes is located. -/
theorem locatedAt_error (c : Cursor) (fault : SyntaxFault) :
    LocatedAt c.tokens c.pos (c.error fault) := by
  -- An error carries what is known of the token that it points at.
  have hcarries {t : Token} (h : c.whereToken? = some t) :
      (c.error fault).position = some t.position ∧ (c.error fault).found = some t.kind := by
    rw [error, h]
    exact ⟨rfl, rfl⟩
  constructor
  · intro t ht
    refine hcarries ?_
    rw [whereToken?, peek?, ht, Option.some_or]
  · intro hend t ht
    refine hcarries ?_
    rw [whereToken?, peek?, List.getElem?_eq_none hend, Option.none_or, ht]
  · rw [error, Option.map_eq_none_iff, whereToken?_eq_none_iff]
  · rw [error, Option.map_eq_none_iff, whereToken?_eq_none_iff]

/-! ### Where searches lead -/

/-- A bracket that opens and closes at once is never closed: each one opens another. -/
theorem closingIndex?_self (kind : TokenKind) (depth : Nat) (ts : List Token) :
    closingIndex? kind kind depth ts = none := by
  induction ts generalizing depth with
  | nil => rfl
  | cons t ts ih =>
    rw [closingIndex?.eq_def]
    simp only [ih, Option.map_none]
    split <;> rfl

/-- A search for a bracket that closes itself finds nothing. -/
theorem findMatching_self (c : Cursor) (kind : TokenKind) : c.findMatching kind kind = none := by
  unfold findMatching
  split
  · rfl
  · simp only [closingIndex?_self, Option.map_none, ite_self]

/-- A search finds a token of the list, at the cursor or behind it. -/
theorem Finds.bounds (h : c.Finds j) : c.pos ≤ j ∧ j < c.tokens.length := by
  -- Each search answers the first index with some property, from the cursor on.
  cases h with
  | next kind h =>
    have hfirst := (findNext_eq_some_iff kind c.pos j).mp h
    exact ⟨hfirst.le, lt_length_of_kindAt? hfirst.holds⟩
  | matching opening closing h =>
    by_cases hne : opening = closing
    · rw [hne, findMatching_self] at h
      cases h
    · have hcloses := (findMatching_eq_some_iff hne c.pos j).mp h
      exact ⟨Nat.le_of_lt hcloses.first.le, hcloses.first.holds.1⟩
  | sameLevel p h =>
    have hfirst := (findAtSameLevel_eq_some_iff p c.pos j).mp h
    obtain ⟨-, t, ht, -⟩ := hfirst.holds
    exact ⟨hfirst.le, (List.getElem?_eq_some_iff.mp ht).1⟩

/-! ### Tokens that are said to be ahead -/

/-- What is ahead is the kind under the cursor and what is ahead one token further on. -/
theorem nextAre_cons_iff (c : Cursor) (kind : TokenKind) (kinds : List TokenKind) :
    c.nextAre (kind :: kinds) = true ↔
      (∃ t, c.peek? = some t ∧ t.kind = kind) ∧ (c.moveTo (c.pos + 1)).nextAre kinds = true := by
  have hrest : (c.moveTo (c.pos + 1)).rest = c.rest.tail := List.tail_drop.symm
  rw [nextAre, nextAre, hrest, peek?_eq_head?_rest]
  cases c.rest with
  | nil => simp
  | cons t us =>
    simp only [List.map_cons, List.isPrefixOf_cons_cons, Bool.and_eq_true, beq_iff_eq,
      List.head?_cons, Option.some.injEq, exists_eq_left', List.tail_cons]
    exact and_congr_left' eq_comm

/-- The kinds ahead are those that can be taken one after another. The induction takes one kind
and one token at a time. -/
theorem nextAre_iff_session (c : Cursor) (kinds : List TokenKind) :
    c.nextAre kinds = true ↔
      ∀ step ∈ c.session (kinds.map .expect), ∃ t, step.1 = .token (some t) := by
  induction kinds generalizing c with
  | nil => simp [nextAre, session]
  | cons kind kinds ih =>
    rw [nextAre_cons_iff, List.map_cons, session, List.forall_mem_cons, ih]
    -- The first kind is expected at the cursor, and the others behind the token that it takes.
    have hnext := apply_snd c (.expect kind) nofun
    rcases answer_of_needsToken c (.expect kind) rfl with
      ⟨t, ht, hkind, hanswer⟩ | ⟨hother, fault, hanswer⟩
    · have hkind : t.kind = kind := of_decide_eq_true hkind
      rw [hnext, hanswer]
      exact and_congr_left' ⟨fun _ => ⟨t, rfl⟩, fun _ => ⟨t, ht, hkind⟩⟩
    · -- The first of the kinds is neither ahead nor can it be taken.
      have hnot : ¬ ∃ t, c.peek? = some t ∧ t.kind = kind :=
        fun ⟨t, ht, hkind⟩ => of_decide_eq_false (hother t ht) hkind
      rw [hanswer]
      exact iff_of_false (fun h => hnot h.1) fun h => nomatch h.1

/-! ### A sequence of operations -/

/-- Two sequences of operations are done one after the other. -/
theorem after_append (c : Cursor) (ops later : List Op) :
    c.after (ops ++ later) = (c.after ops).after later := List.foldl_append

/-- An operation of a session answers what it answers at the cursor after those before it. -/
theorem getElem?_session (c : Cursor) (ops : List Op) (k : Nat) :
    (c.session ops)[k]? = ops[k]?.map (c.after (ops.take k)).apply := by
  induction ops generalizing c k with
  | nil => rfl
  | cons op ops ih =>
    cases k with
    | zero => rfl
    | succ k => exact ih (c.apply op).2 k

/-- One operation more is done at the cursor that those before it leave. -/
theorem after_take_succ {ops : List Op} {k : Nat} (hop : ops[k]? = some op) :
    c.after (ops.take (k + 1)) = ((c.after (ops.take k)).apply op).2 := by
  rw [List.take_add_one, hop, after_append]
  rfl

namespace StandsIn

/-- A cursor at the front is in its list. -/
theorem start (ts : List Token) : StandsIn ts (.start ts) := ⟨rfl, Nat.zero_le _⟩

/-- An operation leaves the cursor in its list. -/
theorem apply (h : StandsIn ts c) (hseek : ∀ i, op = .seek i → i ≤ ts.length) :
    StandsIn ts (c.apply op).2 := by
  obtain ⟨rfl, hpos⟩ := h
  rw [apply_snd c op hseek]
  refine ⟨rfl, ?_⟩
  show op.target (c.apply op).1 c.pos ≤ c.tokens.length
  rcases op.target_cases (c.apply op).1 c.pos with hop | ⟨hneeds, ⟨t, ht⟩, htarget⟩ | htarget
  · exact hseek _ hop
  · -- The token that was taken stands at the position before.
    rcases answer_of_needsToken c op hneeds with ⟨u, hu, -⟩ | ⟨-, fault, hanswer⟩
    · rw [htarget]
      exact (List.getElem?_eq_some_iff.mp hu).1
    · rw [hanswer] at ht
      cases ht
  · rwa [htarget]

/-- A sequence of operations leaves the cursor in its list. -/
theorem after {ops : List Op} (h : StandsIn ts c) (hseek : ∀ i, .seek i ∈ ops → i ≤ ts.length) :
    StandsIn ts (c.after ops) := by
  -- The cursor is general, since each operation hands its own on to the rest.
  induction ops generalizing c with
  | nil => exact h
  | cons op ops ih =>
    have hfirst : StandsIn ts (c.apply op).2 :=
      h.apply fun i hi => hseek i (hi ▸ List.mem_cons_self)
    exact ih hfirst fun i hi => hseek i (List.mem_cons_of_mem op hi)

/-- A cursor in its list is well placed: what it finds is ahead, and it can go behind it. -/
theorem wellPlaced (h : StandsIn ts c) : WellPlaced ts c where
  toStandsIn := h
  finds := by
    intro j hj
    obtain ⟨rfl, -⟩ := h
    obtain ⟨hpos, hlt⟩ := hj.bounds
    refine ⟨hpos, hlt, ?_⟩
    show (Answer.done, c.moveTo (min (j + 1) c.tokens.length)) = _
    rw [Nat.min_eq_left hlt]
    rfl
  nextAre_iff := nextAre_iff_session c

/-- Each operation on a cursor in its list does what is said of it. -/
theorem lawfulStep (h : StandsIn ts c) (hseek : ∀ i, op = .seek i → i ≤ ts.length) :
    LawfulStep ts c op (c.apply op).1 (c.apply op).2 := by
  obtain ⟨rfl, -⟩ := h
  have hnext := apply_snd c op hseek
  constructor
  · rw [hnext]
    rfl
  · intro hop
    rcases answer_of_needsToken c op hop with hfetched | ⟨hother, fault, hanswer⟩
    · exact .inl hfetched
    · exact .inr ⟨hother, _, hanswer⟩
  · intro e he
    obtain ⟨fault, rfl⟩ := eq_error_of_apply he
    refine ⟨?_, locatedAt_error c fault⟩
    have hop : ∀ j, op ≠ .seek j := by
      rintro j rfl
      cases he
    rw [hnext, he, Op.target_error op _ _ hop]
    rfl

end StandsIn

/-- What every session keeps. Let operations be applied one after another to a cursor at the front
of a list, with seeks inside the list only. Before and after each of them, and so at the end, the
cursor is in the list, the searches from it find places from which it can go on, and it has ahead
the kinds that it can take. Each operation moves the cursor only if it is a seek, or takes a token
and moves by one. One that needs a token answers the one under the cursor if that will do, and
otherwise fails. One that fails leaves the cursor as it was, and its error points at the token
under it, at the last token at the end of the list, and nowhere only in an empty list. -/
theorem session_invariant {ts : List Token} {ops : List Op}
    (hseek : ∀ i, .seek i ∈ ops → i ≤ ts.length) :
    (∀ k, WellPlaced ts ((start ts).after (ops.take k))) ∧
      ∀ k op, ops[k]? = some op → ∃ answer next,
        ((start ts).session ops)[k]? = some (answer, next) ∧
        next = (start ts).after (ops.take (k + 1)) ∧
        LawfulStep ts ((start ts).after (ops.take k)) op answer next := by
  have hstands (k : Nat) : StandsIn ts ((start ts).after (ops.take k)) :=
    (StandsIn.start ts).after fun i hi => hseek i (List.mem_of_mem_take hi)
  refine ⟨fun k => (hstands k).wellPlaced, fun k op hop => ?_⟩
  refine ⟨_, _, ?_, (after_take_succ hop).symm, (hstands k).lawfulStep fun i hi => ?_⟩
  · rw [getElem?_session, hop]
    rfl
  · exact hseek i (hi ▸ List.mem_of_getElem? hop)

/-- A name in brackets, `(a)`. -/
def bareGuard : List Token := tokensOnRow 0 [.lparen, .identifier, .rparen]

/-- Find the closing bracket, go behind it, and ask for a semicolon there. -/
def skipGuard : List Op := [.findMatching .lparen .rparen, .seek 3, .expect .semi]

/-- The bracket found is at index 2, so the cursor can go to 3. No token is left there, and the
error is at the closing bracket. -/
theorem session_invariant_skipped :
    (∀ i, .seek i ∈ skipGuard → i ≤ bareGuard.length) ∧
      (start bareGuard).findMatching .lparen .rparen = some 2 ∧
      (start bareGuard).apply (.seek 3) = (.done, ⟨bareGuard, 3⟩) ∧
      ∃ e, ((start bareGuard).session skipGuard)[2]? = some (.error e, ⟨bareGuard, 3⟩) ∧
        e.found = some .rparen := by
  have hseek (i : Nat) (hi : .seek i ∈ skipGuard) : i ≤ bareGuard.length := by
    simp only [skipGuard, List.mem_cons, reduceCtorEq, Op.seek.injEq, List.not_mem_nil, or_false,
      false_or] at hi
    exact Nat.le_of_eq hi
  have hfound : (start bareGuard).findMatching .lparen .rparen = some 2 := by decide
  obtain ⟨hplaced, hsteps⟩ := session_invariant hseek
  obtain ⟨-, -, hbehind⟩ := (hplaced 0).finds 2 (.matching .lparen .rparen hfound)
  obtain ⟨answer, next, hsession, -, hstep⟩ := hsteps 2 (.expect .semi) rfl
  obtain ⟨e, rfl⟩ : ∃ e, answer = .error e := by
    rcases hstep.fetches rfl with ⟨t, ht, -⟩ | ⟨-, herror⟩
    · cases ht
    · exact herror
  obtain ⟨rfl, hlocated⟩ := hstep.fails e rfl
  exact ⟨hseek, hfound, hbehind, e, hsession, (hlocated.exhausted (Nat.le_refl 3) _ rfl).2⟩

end LooseC.Cursor
