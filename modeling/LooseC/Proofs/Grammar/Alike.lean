import LooseC.Proofs.Grammar.Unit

/-!
# Lists that the parser cannot tell apart

From index `d` on, `us` is like `ts` (`Alike d ts us`): the same kinds, and the same tokens on
one row, whatever the rows are. Then every production does the same on both lists, `d` indices
further on in `us`: it succeeds with the same result, spans shifted by `d`, or it fails with the
same fault at a position shifted by `d`.

`Sim ts us d R p q` says this of two productions whose results are related by `R`. Here are the
laws of `Sim`, one for each building block of productions, with `Sim.bind` for sequences,
`sim_fix` for recursion and `sim_many` for repetition. `Proofs/Grammar/Shift.lean` applies them
to the productions.
-/

set_option autoImplicit false

namespace LooseC

/-- The span `d` indices further on. -/
def Span.shift (d : Nat) (s : Span) : Span := ⟨d + s.start, d + s.stop⟩

namespace Node

mutual
/-- The tree with every span `d` indices further on. -/
def shift (d : Nat) : Node → Node
  | ⟨kind, span, children⟩ => ⟨kind, span.shift d, shiftList d children⟩
/-- The forest with every span `d` indices further on. -/
def shiftList (d : Nat) : List Node → List Node
  | [] => []
  | n :: ns => n.shift d :: shiftList d ns
end

/-- A forest is shifted tree by tree. -/
theorem shiftList_eq_map (d : Nat) (ns : List Node) : shiftList d ns = ns.map (shift d) := by
  induction ns with
  | nil => rfl
  | cons n ns ih => rw [shiftList, ih, List.map_cons]

/-- A node is shifted with all its children. -/
@[simp] theorem shift_mk (d : Nat) (kind : NodeKind) (span : Span) (children : List Node) :
    shift d ⟨kind, span, children⟩ = ⟨kind, span.shift d, children.map (shift d)⟩ := by
  rw [shift, shiftList_eq_map]

/-- A leaf has its span only. -/
@[simp] theorem shift_leaf (d : Nat) (kind : NodeKind) (span : Span) :
    shift d (leaf kind span) = leaf kind (span.shift d) := by
  simp [leaf]

/-- A tree that is not moved is the same tree. -/
theorem shift_zero (n : Node) : n.shift 0 = n := by
  induction n using Node.induction with
  | step n ih =>
    obtain ⟨kind, span, children⟩ := n
    have hspan : span.shift 0 = span := by rw [Span.shift, Nat.zero_add, Nat.zero_add]
    rw [shift_mk, hspan, List.map_congr_left ih, List.map_id']

end Node

/-- From index `d` on, `us` has the kinds of `ts`, and it has two tokens on one row where `ts`
has. -/
structure Alike (d : Nat) (ts us : List Token) : Prop where
  length : us.length = d + ts.length
  kind : ∀ i, kindAt? us (d + i) = kindAt? ts i
  row : ∀ i j, rowAt? us (d + i) = rowAt? us (d + j) ↔ rowAt? ts i = rowAt? ts j

/-- At indices that correspond stand tokens of one kind, or none. -/
theorem Alike.getElem? {ts us : List Token} {d : Nat} (h : Alike d ts us) (i : Nat) :
    (ts[i]? = none ∧ us[d + i]? = none) ∨
      ∃ t u, ts[i]? = some t ∧ us[d + i]? = some u ∧ u.kind = t.kind := by
  have hkind := h.kind i
  unfold kindAt? at hkind
  cases ht : ts[i]? with
  | none =>
    rw [ht, Option.map_none, Option.map_eq_none_iff] at hkind
    exact .inl ⟨rfl, hkind⟩
  | some t =>
    rw [ht, Option.map_some, Option.map_eq_some_iff] at hkind
    obtain ⟨u, hu, heq⟩ := hkind
    exact .inr ⟨t, u, rfl, hu, heq⟩

/-- Between indices that correspond stand as many tokens of each kind. -/
theorem Alike.countKind {ts us : List Token} {d : Nat} (h : Alike d ts us) (kind : TokenKind)
    (i j : Nat) : countKind us kind (d + i) (d + j) = countKind ts kind i j :=
  countKind_shift fun m _ _ => h.kind m

/-- As many tokens are left at indices that correspond. -/
theorem Alike.remaining {ts us : List Token} {d : Nat} (h : Alike d ts us) (i : Nat) :
    us.length - (d + i) = ts.length - i := by
  rw [h.length, Nat.add_sub_add_left]

/-- A list is like itself behind any other list. -/
theorem alike_append (ts us : List Token) : Alike ts.length us (ts ++ us) where
  length := List.length_append
  kind i := by rw [kindAt?, kindAt?, List.getElem?_append_right (by omega), Nat.add_sub_cancel_left]
  row i j := by
    have hrow (k : Nat) : rowAt? (ts ++ us) (ts.length + k) = rowAt? us k := by
      rw [rowAt?, rowAt?, List.getElem?_append_right (by omega), Nat.add_sub_cancel_left]
    rw [hrow, hrow]

namespace Parse

variable {α β γ δ : Type} {ts us : List Token} {d : Nat}

/-- Answers that differ by a shift: related results, or one fault, at positions `d` apart. -/
inductive Agree (d : Nat) (R : α → β → Prop) :
    Except Failure (α × Nat) → Except Failure (β × Nat) → Prop where
  | ok {a : α} {b : β} {i : Nat} : R a b → Agree d R (.ok (a, i)) (.ok (b, d + i))
  | error {fault : SyntaxFault} {i : Nat} : Agree d R (.error ⟨fault, i⟩) (.error ⟨fault, d + i⟩)

/-- What two answers that agree are. -/
theorem Agree.outcomes {R : α → β → Prop} {x : Except Failure (α × Nat)}
    {y : Except Failure (β × Nat)} (h : Agree d R x y) :
    (∃ a b i, x = .ok (a, i) ∧ y = .ok (b, d + i) ∧ R a b) ∨
      ∃ fault i, x = .error ⟨fault, i⟩ ∧ y = .error ⟨fault, d + i⟩ := by
  cases h with
  | ok hab => exact .inl ⟨_, _, _, rfl, rfl, hab⟩
  | error => exact .inr ⟨_, _, rfl, rfl⟩

/-- The two productions agree wherever they begin, the second `d` indices further on. -/
def Sim (ts us : List Token) (d : Nat) (R : α → β → Prop) (p : Parse α) (q : Parse β) : Prop :=
  ∀ i, Agree d R (p.result ⟨ts, i⟩) (q.result ⟨us, d + i⟩)

/-- The two tokens stand at indices that correspond. -/
def SameToken (ts us : List Token) (d : Nat) (t u : Token) : Prop :=
  ∃ i, ts[i]? = some t ∧ us[d + i]? = some u

/-! ### Building blocks -/

/-- Sequences agree if their parts do. The second parts begin at places that correspond. -/
theorem Sim.bind {R : α → β → Prop} {S : γ → δ → Prop} {p : Parse α} {q : Parse β}
    {f : α → Parse γ} {g : β → Parse δ} (hp : Sim ts us d R p q)
    (hf : ∀ a b, R a b → Sim ts us d S (f a) (g b)) : Sim ts us d S (p >>= f) (q >>= g) := by
  intro i
  rw [result_bind, result_bind]
  -- Only how the two answers agree matters, not where they come from.
  have hi := hp i
  revert hi
  generalize p.result ⟨ts, i⟩ = r
  generalize q.result ⟨us, d + i⟩ = r'
  intro hi
  cases hi with
  | ok hab => exact hf _ _ hab _
  | error => exact .error

/-- Related answers agree wherever they are given. -/
theorem sim_pure {R : α → β → Prop} {a : α} {b : β} (h : R a b) :
    Sim ts us d R (pure a) (pure b) :=
  fun _ => .ok h

/-- The same fault agrees with itself, wherever it is raised. -/
theorem sim_fail {R : α → β → Prop} (fault : SyntaxFault) :
    Sim ts us d R (fail fault) (fail fault) :=
  fun _ => .error

/-- Events may differ: they are no part of what a production answers. -/
theorem sim_note (e e' : Event) : Sim ts us d Eq (note e) (note e') :=
  fun _ => .ok rfl

/-- Questions agree if their answers are related. -/
theorem sim_ask {R : α → β → Prop} {f : Cursor → α} {g : Cursor → β}
    (h : ∀ i, R (f ⟨ts, i⟩) (g ⟨us, d + i⟩)) : Sim ts us d R (ask f) (ask g) :=
  fun i => .ok (h i)

/-- The second cursor is always `d` indices further on. -/
theorem sim_position : Sim ts us d (fun i j => j = d + i) position position :=
  sim_ask fun _ => rfl

/-- Choices agree if both sides choose alike. -/
theorem Sim.ite {R : α → β → Prop} {c c' : Prop} [Decidable c] [Decidable c'] {p q : Parse α}
    {p' q' : Parse β} (hc : c ↔ c') (hp : c → Sim ts us d R p p')
    (hq : ¬ c → Sim ts us d R q q') :
    Sim ts us d R (if c then p else q) (if c' then p' else q') := by
  by_cases h : c
  · rw [if_pos h, if_pos (hc.mp h)]
    exact hp h
  · rw [if_neg h, if_neg fun h' => h (hc.mpr h')]
    exact hq h

/-- Tests of the cursor agree if they give the same answer at places that correspond. -/
theorem sim_require {test test' : Cursor → Bool} (h : ∀ i, test ⟨ts, i⟩ = test' ⟨us, d + i⟩)
    (fault : SyntaxFault) : Sim ts us d Eq (require test fault) (require test' fault) := by
  intro i
  show Agree d Eq (if test ⟨ts, i⟩ = true then _ else _)
    (if test' ⟨us, d + i⟩ = true then _ else _)
  rw [h i]
  split
  · exact .ok rfl
  · exact .error

/-- Searches agree if they find tokens at indices that correspond, or both find none. -/
theorem sim_find {search : Cursor → Option Nat}
    (h : ∀ i, search ⟨us, d + i⟩ = (search ⟨ts, i⟩).map (d + ·)) (fault : SyntaxFault) :
    Sim ts us d (fun i j => j = d + i) (find search fault) (find search fault) := by
  intro i
  have hi := h i
  cases hs : search ⟨ts, i⟩ with
  | none =>
    rw [hs, Option.map_none] at hi
    rw [result_find_of_none hs, result_find_of_none hi]
    exact .error
  | some j =>
    rw [hs, Option.map_some] at hi
    rw [result_find_of_some hs, result_find_of_some hi]
    exact .ok rfl

/-- Spans between places that correspond are spans that correspond. -/
theorem sim_span {start start' stop stop' : Nat} (hstart : start' = d + start)
    (hstop : stop' = d + stop) :
    Sim ts us d (fun s s' => s' = s.shift d) (span start stop) (span start' stop') := by
  intro i
  show Agree d _ (if start ≤ stop then _ else _) (if start' ≤ stop' then _ else _)
  subst hstart hstop
  by_cases h : start ≤ stop
  · rw [if_pos h, if_pos (Nat.add_le_add_left h d)]
    exact .ok rfl
  · rw [if_neg h, if_neg fun h' => h (Nat.le_of_add_le_add_left h')]
    exact .error

/-- The same for a span that ends at the cursor. -/
theorem sim_spanFrom {start start' : Nat} (hstart : start' = d + start) :
    Sim ts us d (fun s s' => s' = s.shift d) (spanFrom start) (spanFrom start') :=
  sim_position.bind fun _ _ hstop => sim_span hstart hstop

/-! ### Building blocks that look at a token -/

variable (h : Alike d ts us)
include h

/-- Tokens at indices that correspond are of one kind. -/
theorem SameToken.kind {t u : Token} (htu : SameToken ts us d t u) : u.kind = t.kind := by
  obtain ⟨i, ht, hu⟩ := htu
  have hkind := h.kind i
  rw [kindAt?, kindAt?, ht, hu] at hkind
  exact Option.some.inj hkind

/-- The question for a kind has one answer at places that correspond. -/
theorem nextIs_shift (kind : TokenKind) (i : Nat) :
    (Cursor.mk ts i).nextIs kind = (Cursor.mk us (d + i)).nextIs kind := by
  show (kindAt? ts i == some kind) = (kindAt? us (d + i) == some kind)
  rw [h.kind]

/-- The ends of the two lists correspond. -/
theorem atEnd_shift (i : Nat) : (Cursor.mk ts i).atEnd = (Cursor.mk us (d + i)).atEnd := by
  rw [Bool.eq_iff_iff, atEnd_iff, atEnd_iff, h.length]
  omega

/-- Asking for a kind gives the same answer. -/
theorem sim_nextIs (kind : TokenKind) : Sim ts us d Eq (nextIs kind) (nextIs kind) :=
  sim_ask (nextIs_shift h kind)

/-- Looking at a token gives tokens that correspond. -/
theorem sim_peek : Sim ts us d (SameToken ts us d) peek peek := by
  intro i
  rcases h.getElem? i with ⟨ht, hu⟩ | ⟨t, u, ht, hu, -⟩
  · rw [result_peek_of_none ht, result_peek_of_none hu]
    exact .error
  · rw [result_peek_of_some ht, result_peek_of_some hu]
    exact .ok ⟨i, ht, hu⟩

/-- Taking a token gives tokens that correspond, and both fail at the end only. -/
theorem sim_consume : Sim ts us d (SameToken ts us d) consume consume := by
  intro i
  rcases h.getElem? i with ⟨ht, hu⟩ | ⟨t, u, ht, hu, -⟩
  · rw [result_consume_of_none ht, result_consume_of_none hu]
    exact .error
  · rw [result_consume_of_some ht, result_consume_of_some hu, Nat.add_assoc]
    exact .ok ⟨i, ht, hu⟩

/-- A token that is not of the wanted kind is so on both sides, and the fault names one kind. -/
theorem sim_expect (kind : TokenKind) :
    Sim ts us d (SameToken ts us d) (expect kind) (expect kind) := by
  intro i
  rcases h.getElem? i with ⟨ht, hu⟩ | ⟨t, u, ht, hu, hkind⟩
  · rw [result_expect_of_none ht, result_expect_of_none hu]
    exact .error
  · rw [result_expect_of_some ht, result_expect_of_some hu, hkind, Nat.add_assoc]
    by_cases hk : t.kind = kind
    · rw [if_pos hk, if_pos hk]
      exact .ok ⟨i, ht, hu⟩
    · rw [if_neg hk, if_neg hk]
      exact .error

/-- The same for a token that is asked for first. -/
theorem sim_take (kind : TokenKind) (fault : SyntaxFault) :
    Sim ts us d (SameToken ts us d) (take kind fault) (take kind fault) :=
  (sim_require (nextIs_shift h kind) fault).bind fun _ _ _ => sim_consume h

/-- A token that may be there is there on both sides or on none. -/
theorem sim_optional (kind : TokenKind) : Sim ts us d Eq (optional kind) (optional kind) := by
  refine (sim_nextIs h kind).bind fun _ _ heq => ?_
  subst heq
  exact Sim.ite Iff.rfl (fun _ => (sim_consume h).bind fun _ _ _ => sim_pure rfl)
    (fun _ => sim_pure rfl)

/-- Jumps to places that correspond agree, also where they would lead out of the list. -/
theorem sim_seek {k k' : Nat} (hk : k' = d + k) : Sim ts us d Eq (seek k) (seek k') := by
  intro i
  show Agree d _ (if k ≤ ts.length then _ else _) (if k' ≤ us.length then _ else _)
  subst hk
  rw [h.length]
  by_cases hle : k ≤ ts.length
  · rw [if_pos hle, if_pos (Nat.add_le_add_left hle d)]
    exact .ok rfl
  · rw [if_neg hle, if_neg fun hle' => hle (Nat.le_of_add_le_add_left hle')]
    exact .error

/-! ### Searches -/

omit h in
/-- Two searches for the first index with corresponding properties have corresponding
answers. -/
theorem search_shift {P Q : Nat → Prop} {found found' : Option Nat} {i : Nat}
    (hfound : ∀ j, found = some j ↔ FirstFrom P i j)
    (hfound' : ∀ j, found' = some j ↔ FirstFrom Q (d + i) j)
    (hPQ : ∀ m, i ≤ m → (Q (d + m) ↔ P m)) : found' = found.map (d + ·) := by
  have hfirst (j : Nat) : FirstFrom Q (d + i) (d + j) ↔ found = some j := by
    rw [hfound, FirstFrom.shift]
    exact FirstFrom.congr_iff hPQ
  -- No answer of the second search lies before the place where it begins, so each is shifted.
  refine Option.ext fun j' => ?_
  rw [hfound', Option.map_eq_some_iff]
  constructor
  · intro hQ
    have hle := hQ.le
    refine ⟨j' - d, (hfirst _).mp ?_, by omega⟩
    rwa [show d + (j' - d) = j' by omega]
  · rintro ⟨j, hj, rfl⟩
    exact (hfirst j).mpr hj

/-- The next token of a kind is the corresponding one. -/
theorem findNext_shift (kind : TokenKind) (i : Nat) :
    (Cursor.mk us (d + i)).findNext kind = ((Cursor.mk ts i).findNext kind).map (d + ·) :=
  search_shift (findNext_eq_some_iff kind i) (findNext_eq_some_iff kind (d + i))
    fun m _ => by rw [h.kind]

/-- So is the end of an initializer, since the brackets before it are counted alike. -/
theorem findInitializerEnd_shift (i : Nat) :
    (Cursor.mk us (d + i)).findAtSameLevel endsInitializer =
      ((Cursor.mk ts i).findAtSameLevel endsInitializer).map (d + ·) := by
  refine search_shift (fun j => findInitializerEnd_eq_some_iff)
    (fun j => findInitializerEnd_eq_some_iff) fun m _ => ?_
  rw [h.kind]
  exact and_congr_left fun _ => levelAt_congr fun kind => h.countKind kind i m

/-- So is the closing bracket of a bracket. -/
theorem findMatching_shift {opening closing : TokenKind} (hne : opening ≠ closing) (i : Nat) :
    (Cursor.mk us (d + i)).findMatching opening closing =
      ((Cursor.mk ts i).findMatching opening closing).map (d + ·) := by
  have hkind := h.kind i
  by_cases hopens : kindAt? ts i = some opening
  · rw [hopens] at hkind
    -- Behind an opening bracket this is a search for equal counts.
    refine search_shift (i := i + 1)
      (fun j => (findMatching_eq_some_iff hne i j).trans ⟨Closes.first, Closes.mk hopens⟩)
      (fun j => (findMatching_eq_some_iff hne (d + i) j).trans ⟨Closes.first, Closes.mk hkind⟩)
      fun m _ => ?_
    have h1 : LooseC.countKind us opening (d + i) (d + m + 1) = _ := h.countKind opening i (m + 1)
    have h2 : LooseC.countKind us closing (d + i) (d + m + 1) = _ := h.countKind closing i (m + 1)
    rw [h1, h2, h.length, Nat.add_lt_add_iff_left]
  · -- Without an opening bracket under the cursor neither search begins.
    have hnone {ws : List Token} {k : Nat} (hk : kindAt? ws k ≠ some opening) :
        (Cursor.mk ws k).findMatching opening closing = none := by
      rw [Option.eq_none_iff_forall_ne_some]
      intro j hj
      exact hk ((findMatching_eq_some_iff hne k j).mp hj).opens
    rw [hnone hopens, hnone (hkind ▸ hopens), Option.map_none]

/-! ### Repetition and recursion -/

/-- The induction is on the number of tokens left where a round ends. -/
theorem sim_fix {R : α → β → Prop} {body : Parse α → Parse α} {body' : Parse β → Parse β}
    (hbody : ∀ p q, Sim ts us d R p q → Sim ts us d R (body p) (body' q)) :
    Sim ts us d R (fix body) (fix body') := by
  have hround (i : Nat) : Sim ts us d R (watched ⟨ts, i⟩ (fix body))
      (watched ⟨us, d + i⟩ (fix body')) := by
    induction hn : ts.length - i using Nat.strongRecOn generalizing i with
    | ind n ih =>
      intro k
      -- As many tokens are left on both sides, so both watches let the round begin or neither.
      rw [result_watched, result_watched, h.remaining, h.remaining]
      by_cases hlt : ts.length - k < ts.length - i
      · rw [if_pos hlt, if_pos hlt, result_fix, result_fix]
        exact hbody _ _ (ih _ (hn ▸ hlt) k rfl) k
      · rw [if_neg hlt, if_neg hlt]
        exact .error
  intro i
  rw [result_fix, result_fix]
  exact hbody _ _ (hround i) i

/-- Repetitions agree if their tests and their items do, and collecting preserves the relation. -/
theorem sim_many {R : α → β → Prop} {S : List α → List β → Prop} {test test' : Cursor → Bool}
    {item : Parse α} {item' : Parse β} (htest : ∀ i, test ⟨ts, i⟩ = test' ⟨us, d + i⟩)
    (hitem : Sim ts us d R item item') (hnil : S [] [])
    (hcons : ∀ a b as bs, R a b → S as bs → S (a :: as) (b :: bs)) :
    Sim ts us d S (many test item) (many test' item') := by
  refine sim_fix h fun p q hpq => ?_
  refine (sim_ask htest).bind fun more more' hmore => ?_
  subst hmore
  refine Sim.ite Iff.rfl (fun _ => ?_) (fun _ => sim_pure hnil)
  refine hitem.bind fun a b hab => ?_
  exact hpq.bind fun as bs habs => sim_pure (hcons a b as bs hab habs)

end Parse

end LooseC
