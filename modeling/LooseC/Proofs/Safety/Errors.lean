import LooseC.Proofs.Grammar.Layout
import LooseC.Proofs.Grammar.Spans
import LooseC.Proofs.Safety.Productions

/-!
# Where the parser gives up

A parse fails in one top-level construct. Those before it were read, and cover the list up to where
the failing one begins (`GivesUp`). From there on the failing construct takes the cursor forward
and never out of the list, so the cursor stands behind that place, or at it, when the error is
made. The error names the token under the cursor, or the last token if the cursor is at the end.

`result_many_eq_error_iff` says of any repetition where it fails: some rounds of it went through
(`Rounds`), and its item fails behind them. What takes the failing item to its failure does not
matter there. It is known from the safety of the productions, for all of them alike, so the places
where errors are made need not be gone through once more.
-/

set_option autoImplicit false

namespace LooseC

variable {ts : List Token} {i j m : Nat}

namespace Parse

variable {α : Type}

/-! ### The rounds of a repetition -/

/-- Rounds of a repetition go through from `i` up to `m`: its test holds where each begins, and its
item reads the tokens up to where the next one begins. -/
inductive Rounds (test : Cursor → Bool) (item : Parse α) (ts : List Token) :
    Nat → List α → Nat → Prop where
  | nil {i : Nat} : Rounds test item ts i [] i
  | cons {i j m : Nat} {a : α} {as : List α} (htest : test ⟨ts, i⟩ = true)
      (hitem : item.Reads ts i a j) (hlater : Rounds test item ts j as m) :
      Rounds test item ts i (a :: as) m

/-- A repetition whose items take tokens fails exactly if, behind some rounds, its test still holds
and its item fails. One direction is by induction on the number of tokens left, the other on the
rounds. -/
theorem result_many_eq_error_iff {test : Cursor → Bool} {item : Parse α} {failure : Failure}
    (hitem : ∀ k a l, item.Reads ts k a l → k < l ∧ l ≤ ts.length) :
    (many test item).result ⟨ts, i⟩ = .error failure ↔
      ∃ as m, Rounds test item ts i as m ∧ test ⟨ts, m⟩ = true ∧
        item.result ⟨ts, m⟩ = .error failure := by
  constructor
  · intro h
    induction hn : ts.length - i using Nat.strongRecOn generalizing i with
    | ind n ih =>
      obtain ⟨htest, hfailed | ⟨a, k, ha, hlater⟩⟩ := result_many_eq_error h
      · exact ⟨[], i, .nil, htest, hfailed⟩
      · -- The item took a token, so it is not the watch that fails.
        obtain ⟨hik, hk⟩ := hitem i a k ha
        rw [result_watched, if_pos (by omega)] at hlater
        obtain ⟨as, m, hrounds, hm⟩ := ih (ts.length - k) (by omega) hlater rfl
        exact ⟨a :: as, m, .cons htest ha hrounds, hm⟩
  · rintro ⟨as, m, hrounds, htest, hfailed⟩
    -- Backwards the rounds are put in front of the failing one, last first.
    induction hrounds with
    | nil => rw [result_many_of_test htest, result_bind, hfailed]
    | cons hbegun ha _ ih =>
      obtain ⟨hij, hj⟩ := hitem _ _ _ ha
      rw [result_many_of_reads hbegun ha hij hj, ih htest hfailed]
      rfl

/-! ### The failing construct -/

/-- A top-level construct takes a token and stays inside the list. -/
theorem bounds_of_reads_topLevel {n : Node} (h : topLevel.Reads ts i n j) :
    i < j ∧ j ≤ ts.length := by
  rw [reads_topLevel_iff] at h
  exact ⟨h.lt rfl, h.le_length⟩

/-- Constructs that the unit loop completes stand one behind the other. -/
theorem Rounds.tiles {nodes : List Node} (h : Rounds inUnit topLevel ts i nodes m) :
    Tiles i m nodes := by
  induction h with
  | nil => rfl
  | cons _ hitem _ ih => exact ((reads_topLevel_iff.mp hitem).tiles rfl).cons ih

end Parse

open Parse

/-- The unit loop completes constructs up to `m`, and the construct that it begins there fails. -/
structure GivesUp (ts : List Token) (nodes : List Node) (m : Nat) (failure : Failure) : Prop where
  completed : Rounds inUnit topLevel ts 0 nodes m
  begun : inUnit ⟨ts, m⟩ = true
  failed : topLevel.result ⟨ts, m⟩ = .error failure

namespace GivesUp

variable {nodes : List Node} {failure : Failure}

/-- The loop fails exactly if one of its constructs does, and with the same failure. -/
theorem exists_iff : (∃ nodes m, GivesUp ts nodes m failure) ↔
    (many inUnit topLevel).result ⟨ts, 0⟩ = .error failure := by
  rw [result_many_eq_error_iff fun _ _ _ => bounds_of_reads_topLevel]
  constructor
  · rintro ⟨nodes, m, h⟩
    exact ⟨nodes, m, h.completed, h.begun, h.failed⟩
  · rintro ⟨nodes, m, hcompleted, hbegun, hfailed⟩
    exact ⟨nodes, m, hcompleted, hbegun, hfailed⟩

/-- The construct that fails has begun on a token. -/
theorem lt_length (h : GivesUp ts nodes m failure) : m < ts.length := inUnit_iff.mp h.begun

/-- The log of the failing construct leads to its failure by actions in range. -/
theorem safeRun (h : GivesUp ts nodes m failure) : SafeRun ts topLevel m :=
  (advances_topLevel m (Nat.zero_le m) (Nat.le_of_lt h.lt_length)).1

/-- The cursor stands in the failing construct, or at the end of the list. -/
theorem bounds (h : GivesUp ts nodes m failure) : m ≤ failure.pos ∧ failure.pos ≤ ts.length := by
  have hbounds := h.safeRun.bounds (Nat.le_of_lt h.lt_length)
  rw [h.failed] at hbounds
  exact hbounds

/-- The error is made of the token under the cursor, or of the last one. -/
theorem located (h : GivesUp ts nodes m failure) : ∃ k t, ts[k]? = some t ∧
    parse ts = .error ⟨failure.fault, some t.position, some t.kind⟩ ∧ m ≤ k ∧
    (k = failure.pos ∨ failure.pos = ts.length ∧ k + 1 = ts.length) := by
  obtain ⟨hm, hlength⟩ := h.bounds
  have hlt := h.lt_length
  have hrun := exists_iff.mp ⟨nodes, m, h⟩
  -- A list with a failing construct is not empty, so there is a last token.
  have hk : min failure.pos (ts.length - 1) < ts.length := by omega
  have ht := List.getElem?_eq_getElem hk
  exact ⟨_, _, ht, parse_eq_error hrun ht, by omega, by omega⟩

end GivesUp

/-- An error points at the right token. A parse that fails has a list with tokens in it and gives
up in one construct, with the failure of the whole loop. The constructs before that one cover the
list up to `m`, which is before the end, and what the failing construct logs leads from `m` to
where it fails by actions in range. The error names the position and the kind of one token, at `m`
or behind it: the one under the cursor at the failure, or the last one if the cursor is at the
end. -/
theorem parse_error_located {e : ParseError} (h : parse ts = .error e) :
    ts ≠ [] ∧ (∃ nodes m failure, GivesUp ts nodes m failure) ∧
      ∀ nodes m failure, GivesUp ts nodes m failure →
        (many inUnit topLevel).result ⟨ts, 0⟩ = .error failure ∧ Tiles 0 m nodes ∧
        m < ts.length ∧ SafeRun ts topLevel m ∧
        ∃ k t, ts[k]? = some t ∧ e = ⟨failure.fault, some t.position, some t.kind⟩ ∧ m ≤ k ∧
          (k = failure.pos ∨ failure.pos = ts.length ∧ k + 1 = ts.length) := by
  have hgives : ∃ nodes m failure, GivesUp ts nodes m failure := by
    -- The loop over the constructs is all of the parser that can fail.
    rw [parse_eq] at h
    cases hrun : (many inUnit topLevel).result ⟨ts, 0⟩ with
    | ok answer =>
      rw [hrun] at h
      cases h
    | error failure =>
      obtain ⟨nodes, m, hgives⟩ := GivesUp.exists_iff.mpr hrun
      exact ⟨nodes, m, failure, hgives⟩
  refine ⟨?_, hgives, ?_⟩
  · rintro rfl
    obtain ⟨nodes, m, failure, hgives⟩ := hgives
    exact Nat.not_lt_zero m hgives.lt_length
  · intro nodes m failure hgives
    obtain ⟨k, t, ht, hparse, hk⟩ := hgives.located
    rw [hparse] at h
    cases h
    exact ⟨GivesUp.exists_iff.mp ⟨nodes, m, hgives⟩, hgives.completed.tiles, hgives.lt_length,
      hgives.safeRun, k, t, ht, rfl, hk⟩

/-- A declaration, and then a function whose body is never closed: `t x; int f() {`. -/
def openBody : List Token :=
  tokensOnRow 0
    [.identifier, .identifier, .semi, .tyInt, .identifier, .lparen, .rparen, .lbrace]

/-- The declaration is read, and the function gives up at the end of the list. The error is at the
brace, which is the last token. -/
theorem parse_error_located_openBody :
    GivesUp openBody [⟨.declaration, ⟨0, 3⟩, [.leaf .type ⟨0, 1⟩,
      ⟨.declaratorList, ⟨1, 2⟩, [⟨.declarator, ⟨1, 2⟩, []⟩]⟩]⟩] 3 ⟨.unexpectedEnd, 8⟩ ∧
      ∃ e k t, parse openBody = .error e ∧ openBody[k]? = some t ∧ k + 1 = openBody.length ∧
        e = ⟨.unexpectedEnd, some t.position, some t.kind⟩ := by
  have hdeclaration : topLevel.Reads openBody 0 ⟨.declaration, ⟨0, 3⟩, [.leaf .type ⟨0, 1⟩,
      ⟨.declaratorList, ⟨1, 2⟩, [⟨.declarator, ⟨1, 2⟩, []⟩]⟩]⟩ 3 := by
    have htype : Derives openBody .type 0 1 [.leaf .type ⟨0, 1⟩] := .typeName rfl
    have hname : Derives openBody (.declarator false) 1 2 [⟨.declarator, ⟨1, 2⟩, []⟩] :=
      .plainDeclarator rfl nofun nofun
    have hlist := Derives.declaratorList (.declaratorsLast hname nofun)
    exact reads_topLevel_iff.mpr (.itemDeclaration (.declarationSemi htype hlist rfl))
  have hfailed : topLevel.result ⟨openBody, 3⟩ = .error ⟨.unexpectedEnd, 8⟩ := by
    have hfailure : (match topLevel.result ⟨openBody, 3⟩ with
        | .ok _ => none
        | .error failure => some failure) = some ⟨.unexpectedEnd, 8⟩ := by decide +kernel
    split at hfailure
    · cases hfailure
    · rename_i failure hresult
      rw [hresult, Option.some.inj hfailure]
  have hgives : GivesUp openBody _ 3 ⟨.unexpectedEnd, 8⟩ :=
    ⟨.cons rfl hdeclaration .nil, rfl, hfailed⟩
  obtain ⟨k, t, ht, hparse, -⟩ := hgives.located
  obtain ⟨-, -, hlocated⟩ := parse_error_located hparse
  obtain ⟨-, -, -, -, l, u, hu, he, -, hl⟩ := hlocated _ _ _ hgives
  refine ⟨hgives, _, l, u, hparse, hu, ?_, he⟩
  -- The cursor is at the end, so the error is at the last token.
  have hlength : openBody.length = 8 := rfl
  have hlt := (List.getElem?_eq_some_iff.mp hu).1
  simp only [hlength] at hl hlt ⊢
  omega

end LooseC
