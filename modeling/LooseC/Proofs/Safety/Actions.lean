import LooseC.Proofs.Grammar.Reads

/-!
# What a production does to the cursor

A production logs what it does with the cursor (`Parse.actions`): the tokens it looks at and steps
over, its searches, jumps and spans, and the rounds of productions that use themselves. What an
action may do is left to `Action.InRange`, which asks for what the checks of the building blocks ask
for, and for the cursor to go forward. `Trail` says that a log hangs together, each action being
done where the one before left the cursor.

`SafeRun ts p i` says that the log of `p`, begun at `i`, is a trail of actions in range up to where
`p` ends, and `Safe ts p i Q` adds that `Q` holds of a success and that a failure is not that of a
check. `Safe.bind` puts two safe productions together, and `safe_fix` carries the induction over the
rounds of a production that uses itself.
-/

set_option autoImplicit false

namespace LooseC

/-- The faults that a production finds in its own work and not in the tokens. -/
def SyntaxFault.isCheck : SyntaxFault → Bool
  | .stalled | .seekPastEnd | .reversedSpan => true
  | _ => false

namespace Parse

/-! ### Actions -/

namespace Action

/-- Where the cursor is before an action. -/
def before : Action → Nat
  | .move i _ | .seek i _ | .span i _ _ | .search i | .round _ i => i

/-- Where the cursor is after an action. -/
def after : Action → Nat
  | .move _ j | .seek _ j | .span j _ _ | .search j | .round _ j => j

/-- The action stays inside the list and goes forward. A step takes one token at most, a span ends
no earlier than it starts, and a round has taken a token. -/
def InRange (ts : List Token) : Action → Prop
  | .move i j => i ≤ j ∧ j ≤ i + 1 ∧ j ≤ ts.length
  | .seek i k => i ≤ k ∧ k ≤ ts.length
  | .span _ start stop => start ≤ stop
  | .search i => i ≤ ts.length
  | .round i k => i < k ∧ k ≤ ts.length

end Action

/-- The actions lead the cursor from `i` to `j`, each from where the one before left it. -/
def Trail : Nat → List Action → Nat → Prop
  | i, [], j => i = j
  | i, action :: actions, j => action.before = i ∧ Trail action.after actions j

variable {α β : Type} {ts : List Token} {i j k low : Nat} {actions : List Action}

/-- A log whose second half begins where the first ends hangs together. -/
theorem Trail.append {later : List Action} (h : Trail i actions j) (hlater : Trail j later k) :
    Trail i (actions ++ later) k := by
  -- The place is general: each action of the log hands on another one.
  induction actions generalizing i with
  | nil =>
    cases h
    exact hlater
  | cons action actions ih => exact ⟨h.1, ih h.2⟩

/-- One action in range leaves the cursor further on and inside the list. -/
theorem Action.InRange.bounds {action : Action} (h : action.InRange ts)
    (hbefore : action.before ≤ ts.length) :
    action.before ≤ action.after ∧ action.after ≤ ts.length := by
  cases action with
  | move i j => exact ⟨h.1, h.2.2⟩
  | seek i k => exact h
  | span i start stop => exact ⟨Nat.le_refl i, hbefore⟩
  | search i => exact ⟨Nat.le_refl i, hbefore⟩
  | round i k => exact ⟨Nat.le_refl k, hbefore⟩

/-- Actions in range leave the cursor further on and inside the list. -/
theorem Trail.bounds (h : Trail i actions j) (hrange : ∀ action ∈ actions, action.InRange ts)
    (hi : i ≤ ts.length) : i ≤ j ∧ j ≤ ts.length := by
  induction actions generalizing i with
  | nil =>
    cases h
    exact ⟨Nat.le_refl _, hi⟩
  | cons action actions ih =>
    obtain ⟨rfl, htrail⟩ := h
    obtain ⟨haction, hrange⟩ := List.forall_mem_cons.mp hrange
    obtain ⟨hle, hlength⟩ := haction.bounds hi
    obtain ⟨hlater, hj⟩ := ih htrail hrange hlength
    exact ⟨Nat.le_trans hle hlater, hj⟩

/-- The places that the cursor comes to: where it begins, and where each action leaves it. -/
def places (i : Nat) (actions : List Action) : List Nat := i :: actions.map Action.after

/-- Actions in range never take the cursor back or out of the list. -/
theorem Trail.places_sorted (h : Trail i actions j)
    (hrange : ∀ action ∈ actions, action.InRange ts) (hi : i ≤ ts.length) :
    (places i actions).Pairwise (· ≤ ·) ∧ ∀ k ∈ places i actions, i ≤ k ∧ k ≤ ts.length := by
  induction actions generalizing i with
  | nil => exact ⟨List.pairwise_singleton _ _, List.forall_mem_singleton.mpr ⟨Nat.le_refl i, hi⟩⟩
  | cons action actions ih =>
    obtain ⟨rfl, htrail⟩ := h
    obtain ⟨haction, hrange⟩ := List.forall_mem_cons.mp hrange
    obtain ⟨hle, hlength⟩ := haction.bounds hi
    obtain ⟨hsorted, hbounds⟩ := ih htrail hrange hlength
    -- Every later place lies behind the one that this action leads to.
    have hbehind : ∀ k ∈ places action.after actions, action.before ≤ k ∧ k ≤ ts.length :=
      fun k hk => ⟨Nat.le_trans hle (hbounds k hk).1, (hbounds k hk).2⟩
    refine ⟨List.pairwise_cons.mpr ⟨fun k hk => (hbehind k hk).1, hsorted⟩, ?_⟩
    exact List.forall_mem_cons.mpr ⟨⟨Nat.le_refl _, hi⟩, hbehind⟩

/-! ### Safety -/

/-- Where a result leaves the cursor. -/
def endOf : Except Failure (α × Nat) → Nat
  | .ok (_, j) => j
  | .error failure => failure.pos

/-- Begun at `i`, the production logs actions that lead the cursor from `i` to where it ends, and
they are all in range. -/
structure SafeRun (ts : List Token) (p : Parse α) (i : Nat) : Prop where
  trail : Trail i (p.actions ⟨ts, i⟩) (endOf (p.result ⟨ts, i⟩))
  inRange : ∀ action ∈ p.actions ⟨ts, i⟩, action.InRange ts

/-- A safe run ends further on and inside the list. -/
theorem SafeRun.bounds {p : Parse α} (h : SafeRun ts p i) (hi : i ≤ ts.length) :
    i ≤ endOf (p.result ⟨ts, i⟩) ∧ endOf (p.result ⟨ts, i⟩) ≤ ts.length :=
  h.trail.bounds h.inRange hi

/-- Nowhere does a safe run take the cursor back or out of the list. -/
theorem SafeRun.within {p : Parse α} (h : SafeRun ts p i) (hi : i ≤ ts.length) :
    SafeRun ts p i ∧ (places i (p.actions ⟨ts, i⟩)).Pairwise (· ≤ ·) ∧
      ∀ k ∈ places i (p.actions ⟨ts, i⟩), k ≤ ts.length := by
  obtain ⟨hsorted, hbounds⟩ := h.trail.places_sorted h.inRange hi
  exact ⟨h, hsorted, fun k hk => (hbounds k hk).2⟩

/-- A success has the property, and a failure is not that of a check. -/
def Meets (Q : α → Nat → Prop) : Except Failure (α × Nat) → Prop
  | .ok (a, j) => Q a j
  | .error failure => failure.fault.isCheck = false

/-- Begun at `i`, the production runs safely, and if it succeeds then `Q` holds of what it answers
and of where it stops. -/
def Safe (ts : List Token) (p : Parse α) (i : Nat) (Q : α → Nat → Prop) : Prop :=
  i ≤ ts.length → SafeRun ts p i ∧ Meets Q (p.result ⟨ts, i⟩)

/-- From `low` on the production is safe, and it takes a token wherever it succeeds. -/
def Advances (ts : List Token) (low : Nat) (p : Parse α) : Prop :=
  ∀ i, low ≤ i → Safe ts p i fun _ j => i < j

section Rules

variable {p : Parse α} {f : α → Parse β} {P : α → Nat → Prop} {Q : β → Nat → Prop}

/-- Safety in sequence. The second part begins no earlier than the first. -/
theorem Safe.bind (hp : Safe ts p i P) (hf : ∀ a j, i ≤ j → P a j → Safe ts (f a) j Q) :
    Safe ts (p >>= f) i Q := by
  intro hi
  obtain ⟨⟨htrail, hrange⟩, hmeets⟩ := hp hi
  -- A failure of the first part is that of the whole, and its log is then the whole log. After a
  -- success the second log is appended, and it begins where the first one ends.
  cases hr : p.result ⟨ts, i⟩ with
  | error failure =>
    -- The log and the result of the sequence are those of its first part.
    have hresult : (p >>= f).result ⟨ts, i⟩ = .error failure := by rw [result_bind, hr]
    rw [hr] at htrail hmeets
    refine ⟨⟨?_, ?_⟩, ?_⟩
    · rw [actions_bind_of_error hr, hresult]
      exact htrail
    · rw [actions_bind_of_error hr]
      exact hrange
    · rw [hresult]
      exact hmeets
  | ok answer =>
    obtain ⟨a, j⟩ := answer
    rw [hr] at htrail hmeets
    obtain ⟨hij, hj⟩ := htrail.bounds hrange hi
    obtain ⟨⟨hlater, hlaterRange⟩, hmeets⟩ := hf a j hij hmeets hj
    have hresult : (p >>= f).result ⟨ts, i⟩ = (f a).result ⟨ts, j⟩ := by rw [result_bind, hr]; rfl
    refine ⟨⟨?_, ?_⟩, ?_⟩
    · rw [actions_bind_of_ok hr, hresult]
      exact htrail.append hlater
    · rw [actions_bind_of_ok hr]
      exact List.forall_mem_append.mpr ⟨hrange, hlaterRange⟩
    · rw [hresult]
      exact hmeets

/-- A first part that ends at a known place. -/
theorem Safe.bind_at {P : α → Prop} (hp : Safe ts p i fun a j => P a ∧ j = k)
    (hf : ∀ a, P a → Safe ts (f a) k Q) : Safe ts (p >>= f) i Q := by
  refine hp.bind fun a j _ ha => ?_
  obtain ⟨ha, rfl⟩ := ha
  exact hf a ha

/-- Safety in sequence behind a production that takes a token: the second part begins strictly
further on. -/
theorem Advances.bind (hp : Advances ts low p) (hlow : low ≤ i)
    (hf : ∀ a j, i < j → Safe ts (f a) j Q) : Safe ts (p >>= f) i Q :=
  (hp i hlow).bind fun a j _ hij => hf a j hij

/-- A production that is safe from `low` on is safe from any later place on. -/
theorem Advances.mono {low' : Nat} (hp : Advances ts low p) (h : low ≤ low') :
    Advances ts low' p :=
  fun i hi => hp i (Nat.le_trans h hi)

/-- What is known of the answer may be weakened. -/
theorem Safe.mono {P' : α → Nat → Prop} (hp : Safe ts p i P) (h : ∀ a j, P a j → P' a j) :
    Safe ts p i P' := by
  intro hi
  obtain ⟨hrun, hmeets⟩ := hp hi
  refine ⟨hrun, ?_⟩
  cases hr : p.result ⟨ts, i⟩ with
  | error failure =>
    rw [hr] at hmeets
    exact hmeets
  | ok answer =>
    rw [hr] at hmeets
    exact h answer.1 answer.2 hmeets

/-- A production is safe if what it logs leads to its end and is in range. -/
theorem safe_of_log {r : Except Failure (α × Nat)} {log : List Action}
    (hresult : p.result ⟨ts, i⟩ = r) (hlog : p.actions ⟨ts, i⟩ = log)
    (htrail : Trail i log (endOf r))
    (hrange : i ≤ ts.length → ∀ action ∈ log, action.InRange ts) (hmeets : Meets P r) :
    Safe ts p i P := by
  subst hresult hlog
  exact fun hi => ⟨⟨htrail, hrange hi⟩, hmeets⟩

/-- One that logs nothing is safe if it ends where it began. -/
theorem safe_of_log_nil {r : Except Failure (α × Nat)} (hresult : p.result ⟨ts, i⟩ = r)
    (hlog : p.actions ⟨ts, i⟩ = []) (hend : endOf r = i) (hmeets : Meets P r) : Safe ts p i P :=
  safe_of_log hresult hlog hend.symm (fun _ => List.forall_mem_nil _) hmeets

/-- One that logs one action is safe if the action is in range and leads to its end. -/
theorem safe_of_log_singleton {r : Except Failure (α × Nat)} {action : Action}
    (hresult : p.result ⟨ts, i⟩ = r) (hlog : p.actions ⟨ts, i⟩ = [action])
    (htrail : action.before = i ∧ action.after = endOf r)
    (hrange : i ≤ ts.length → action.InRange ts) (hmeets : Meets P r) : Safe ts p i P :=
  safe_of_log hresult hlog htrail (fun hi => List.forall_mem_singleton.mpr (hrange hi)) hmeets

/-- An answer without work logs nothing, so it is safe wherever it has the property. -/
theorem safe_pure {a : α} (h : P a i) : Safe ts (pure a) i P :=
  safe_of_log_nil rfl rfl rfl h

/-- To give up logs nothing, so it is safe unless the fault is that of a check. -/
theorem safe_fail {fault : SyntaxFault} (hfault : fault.isCheck = false) :
    Safe ts (fail fault) i P :=
  safe_of_log_nil rfl rfl rfl hfault

/-- Safety of a choice, each branch under what the test says. -/
theorem Safe.ite {c : Prop} [Decidable c] {q : Parse α} (hp : c → Safe ts p i P)
    (hq : ¬ c → Safe ts q i P) : Safe ts (if c then p else q) i P := by
  by_cases h : c
  · rw [if_pos h]
    exact hp h
  · rw [if_neg h]
    exact hq h

/-! ### Primitives -/

/-- A noted event is no action on the cursor. -/
theorem Safe.note_bind {e : Event} {f : Unit → Parse β} (h : Safe ts (f ()) i Q) :
    Safe ts (note e >>= f) i Q := by
  have hnote : Safe ts (note e) i fun _ j => True ∧ j = i :=
    safe_of_log_nil rfl rfl rfl ⟨trivial, rfl⟩
  exact hnote.bind_at fun _ _ => h

/-- A question put to the cursor leaves it where it is, and the rest works on the answer. -/
theorem Safe.ask_bind {g : Cursor → α} (h : Safe ts (f (g ⟨ts, i⟩)) i Q) :
    Safe ts (ask g >>= f) i Q := by
  have hask : Safe ts (ask g) i fun a j => a = g ⟨ts, i⟩ ∧ j = i :=
    safe_of_log_nil rfl rfl rfl ⟨rfl, rfl⟩
  exact hask.bind_at fun a ha => ha ▸ h

/-- Asked for its place, the cursor at `i` answers `i`. -/
theorem Safe.position_bind {f : Nat → Parse β} (h : Safe ts (f i) i Q) :
    Safe ts (position >>= f) i Q :=
  .ask_bind h

/-- What follows a requirement may use it. The fault of an unmet one must not be that of a check. -/
theorem Safe.require_bind {test : Cursor → Bool} {fault : SyntaxFault} {f : Unit → Parse β}
    (hfault : fault.isCheck = false) (h : test ⟨ts, i⟩ = true → Safe ts (f ()) i Q) :
    Safe ts (require test fault >>= f) i Q := by
  have hrequire : Safe ts (require test fault) i fun _ j => test ⟨ts, i⟩ = true ∧ j = i := by
    by_cases htest : test ⟨ts, i⟩ = true
    · exact safe_of_log_nil (if_pos htest) rfl rfl ⟨htest, rfl⟩
    · exact safe_of_log_nil (if_neg htest) rfl rfl hfault
  exact hrequire.bind_at fun _ htest => h htest

/-- A search is safe wherever the cursor is. -/
theorem Safe.find_bind {search : Cursor → Option Nat} {fault : SyntaxFault} {f : Nat → Parse β}
    (hfault : fault.isCheck = false) (h : ∀ k, search ⟨ts, i⟩ = some k → Safe ts (f k) i Q) :
    Safe ts (find search fault >>= f) i Q := by
  have hfind : Safe ts (find search fault) i fun k j => search ⟨ts, i⟩ = some k ∧ j = i := by
    cases hsearch : search ⟨ts, i⟩ with
    | some k =>
      exact safe_of_log_singleton (result_find_of_some hsearch fault) rfl ⟨rfl, rfl⟩ id ⟨rfl, rfl⟩
    | none =>
      exact safe_of_log_singleton (result_find_of_none hsearch fault) rfl ⟨rfl, rfl⟩ id hfault
  exact hfind.bind_at h

/-- A jump is safe if it goes forward and not past the end. -/
theorem Safe.seek_bind {f : Unit → Parse β} (hik : i ≤ k) (hk : k ≤ ts.length)
    (h : Safe ts (f ()) k Q) : Safe ts (seek k >>= f) i Q := by
  have hseek : Safe ts (seek k) i fun _ j => True ∧ j = k :=
    safe_of_log_singleton (if_pos hk) rfl ⟨rfl, rfl⟩ (fun _ => ⟨hik, hk⟩) ⟨trivial, rfl⟩
  exact hseek.bind_at fun _ _ => h

/-- A span is safe if it ends no earlier than it starts: that is what its check asks for. -/
theorem safe_span {start stop : Nat} (hle : start ≤ stop) :
    Safe ts (span start stop) i fun s j => s = ⟨start, stop⟩ ∧ j = i :=
  safe_of_log_singleton (if_pos hle) rfl ⟨rfl, rfl⟩ (fun _ => hle) ⟨rfl, rfl⟩

/-- What follows a span goes on with it at the same place. -/
theorem Safe.span_bind {start stop : Nat} {f : Span → Parse β} (hle : start ≤ stop)
    (h : Safe ts (f ⟨start, stop⟩) i Q) : Safe ts (span start stop >>= f) i Q :=
  (safe_span hle).bind_at fun _ hs => hs ▸ h

/-- A step that succeeds is logged with the place it leads to. -/
theorem actions_step_of_ok {g : Cursor → Except SyntaxFault (Token × Cursor)} {c : Cursor}
    {t : Token} (h : (step g).result c = .ok (t, j)) : (step g).actions c = [.move c.pos j] := by
  rw [step, result_acting] at h
  rw [step, actions_acting, stepTaken]
  split at h <;> simp_all

/-- A step that fails is none. -/
theorem actions_step_of_error {g : Cursor → Except SyntaxFault (Token × Cursor)} {c : Cursor}
    {failure : Failure} (h : (step g).result c = .error failure) : (step g).actions c = [] := by
  rw [step, result_acting] at h
  rw [step, actions_acting, stepTaken]
  split at h <;> simp_all

/-- A step that succeeds is safe if it takes one token at most. -/
theorem safe_step_of_ok {g : Cursor → Except SyntaxFault (Token × Cursor)} {t : Token}
    {P : Token → Nat → Prop} (h : (step g).result ⟨ts, i⟩ = .ok (t, j))
    (hrange : i ≤ ts.length → (Action.move i j).InRange ts) (hP : P t j) : Safe ts (step g) i P :=
  safe_of_log_singleton h (actions_step_of_ok h) ⟨rfl, rfl⟩ hrange hP

/-- A step that fails is safe if it fails where it stands. -/
theorem safe_step_of_error {g : Cursor → Except SyntaxFault (Token × Cursor)}
    {fault : SyntaxFault} {P : Token → Nat → Prop}
    (h : (step g).result ⟨ts, i⟩ = .error ⟨fault, i⟩) (hfault : fault.isCheck = false) :
    Safe ts (step g) i P :=
  safe_of_log_nil h (actions_step_of_error h) rfl hfault

/-- A step over a token is in range. -/
theorem inRange_move {t : Token} (h : ts[i]? = some t) : (Action.move i (i + 1)).InRange ts :=
  ⟨Nat.le_succ i, Nat.le_refl _, (List.getElem?_eq_some_iff.mp h).1⟩

/-- What follows a look at the next token may use that it is there. Otherwise the look has failed,
and its fault is not that of a check. -/
theorem Safe.peek_bind {f : Token → Parse β}
    (h : ∀ t, ts[i]? = some t → Safe ts (f t) i Q) : Safe ts (peek >>= f) i Q := by
  have hpeek : Safe ts peek i fun t j => ts[i]? = some t ∧ j = i := by
    cases ht : ts[i]? with
    | none => exact safe_step_of_error (result_peek_of_none ht) rfl
    | some t =>
      refine safe_step_of_ok (result_peek_of_some ht) (fun hi => ?_) ⟨rfl, rfl⟩
      exact ⟨Nat.le_refl i, Nat.le_succ i, hi⟩
  exact hpeek.bind_at h

/-- A step over the next token answers it and leaves the cursor behind it. -/
theorem safe_consume : Safe ts consume i fun t j => ts[i]? = some t ∧ j = i + 1 := by
  cases ht : ts[i]? with
  | none => exact safe_step_of_error (result_consume_of_none ht) rfl
  | some t =>
    exact safe_step_of_ok (result_consume_of_some ht) (fun _ => inRange_move ht) ⟨rfl, rfl⟩

/-- What follows a step over the next token goes on one index further. -/
theorem Safe.consume_bind {f : Token → Parse β}
    (h : ∀ t, ts[i]? = some t → Safe ts (f t) (i + 1) Q) : Safe ts (consume >>= f) i Q :=
  safe_consume.bind_at h

/-- What follows a token that had to come goes on behind it, and may use its kind. -/
theorem Safe.expect_bind {kind : TokenKind} {f : Token → Parse β}
    (h : ∀ t, kindAt? ts i = some kind → Safe ts (f t) (i + 1) Q) :
    Safe ts (expect kind >>= f) i Q := by
  have hexpect : Safe ts (expect kind) i fun _ j => kindAt? ts i = some kind ∧ j = i + 1 := by
    cases ht : ts[i]? with
    | none => exact safe_step_of_error (result_expect_of_none ht kind) rfl
    | some t =>
      have hresult := result_expect_of_some ht kind
      by_cases hkind : t.kind = kind
      · rw [if_pos hkind] at hresult
        have hat : kindAt? ts i = some kind := kindAt?_eq_some_iff.mpr ⟨t, ht, hkind⟩
        exact safe_step_of_ok hresult (fun _ => inRange_move ht) ⟨hat, rfl⟩
      · rw [if_neg hkind] at hresult
        exact safe_step_of_error hresult rfl
  exact hexpect.bind_at h

/-! ### Composed building blocks -/

/-- The same for a token whose absence has a fault of its own. -/
theorem Safe.take_bind {kind : TokenKind} {fault : SyntaxFault} {f : Token → Parse β}
    (hfault : fault.isCheck = false)
    (h : ∀ t, kindAt? ts i = some kind → Safe ts (f t) (i + 1) Q) :
    Safe ts (take kind fault >>= f) i Q := by
  have htake : Safe ts (take kind fault) i fun _ j =>
      kindAt? ts i = some kind ∧ j = i + 1 := by
    refine .require_bind hfault fun hnext => ?_
    exact safe_consume.mono fun t j ht => ⟨nextIs_iff.mp hnext, ht.2⟩
  exact htake.bind_at h

/-- An optional token gives two cases: behind it, with its kind known, or where it was not taken. -/
theorem Safe.optional_bind {kind : TokenKind} {f : Bool → Parse β}
    (htaken : kindAt? ts i = some kind → Safe ts (f true) (i + 1) Q)
    (hleft : Safe ts (f false) i Q) : Safe ts (optional kind >>= f) i Q := by
  have hoptional : Safe ts (optional kind) i fun flag j =>
      flag = true ∧ kindAt? ts i = some kind ∧ j = i + 1 ∨ flag = false ∧ j = i := by
    refine .ask_bind <| .ite (fun hnext => ?_) fun _ => safe_pure (.inr ⟨rfl, rfl⟩)
    exact .consume_bind fun _ _ => safe_pure (.inl ⟨rfl, nextIs_iff.mp hnext, rfl⟩)
  refine hoptional.bind fun flag j _ hflag => ?_
  obtain ⟨rfl, hkind, rfl⟩ | ⟨rfl, rfl⟩ := hflag
  · exact htaken hkind
  · exact hleft

/-- A span up to the cursor is safe if it starts no later than where the cursor is. -/
theorem Safe.spanFrom_bind {start : Nat} {f : Span → Parse β} (hle : start ≤ i)
    (h : Safe ts (f ⟨start, i⟩) i Q) : Safe ts (spanFrom start >>= f) i Q := by
  have hspanFrom : Safe ts (spanFrom start) i fun s j => s = ⟨start, i⟩ ∧ j = i :=
    .position_bind (safe_span hle)
  exact hspanFrom.bind_at fun _ hs => hs ▸ h

/-! ### Rounds -/

/-- A production that uses itself is safe if one round of its body is, given that the rounds after
it are. The induction is on the number of tokens left. -/
theorem safe_fix {body : Parse α → Parse α} {P : Nat → α → Nat → Prop}
    (hbody : ∀ p i, low ≤ i → (∀ k, i < k → Safe ts p k (P k)) → Safe ts (body p) i (P i))
    (hi : low ≤ i) : Safe ts (fix body) i (P i) := by
  induction hn : ts.length - i using Nat.strongRecOn generalizing i with
  | ind n ih =>
    have hround (k : Nat) (hik : i < k) : Safe ts (watched ⟨ts, i⟩ (fix body)) k (P k) := by
      intro hk
      obtain ⟨⟨htrail, hrange⟩, hmeets⟩ := ih (ts.length - k) (by omega) (by omega) rfl hk
      -- The round is let begin, and its log is that of the round with one action in front.
      have hbegun : watched ⟨ts, i⟩ (fix body) ⟨ts, k⟩ = _ := watched_of_lt (fix body) (by omega)
      refine safe_of_log (congrArg Outcome.answer hbegun) (congrArg Outcome.actions hbegun)
        ⟨rfl, htrail⟩ (fun _ => ?_) hmeets hk
      exact List.forall_mem_cons.mpr ⟨⟨hik, hk⟩, hrange⟩
    have hbegun := fix_eq body ⟨ts, i⟩
    intro hlength
    obtain ⟨hrun, hmeets⟩ := hbody _ i hi hround hlength
    exact safe_of_log (congrArg Outcome.answer hbegun) (congrArg Outcome.actions hbegun) hrun.trail
      (fun _ => hrun.inRange) hmeets hlength

/-- The same for a production that takes tokens, where only rounds behind its first token matter. -/
theorem advances_fix {body : Parse α → Parse α}
    (hbody : ∀ p i, low ≤ i → Advances ts (i + 1) p → Safe ts (body p) i fun _ j => i < j) :
    Advances ts low (fix body) :=
  fun _ hi => safe_fix (P := fun i _ j => i < j) hbody hi

/-- A repetition whose items take tokens is safe, and it takes one if its test holds at once. -/
theorem safe_many {test : Cursor → Bool} (hp : Advances ts low p) (hi : low ≤ i) :
    Safe ts (many test p) i fun _ j => test ⟨ts, i⟩ = true → i < j := by
  refine safe_fix (P := fun i _ j => test ⟨ts, i⟩ = true → i < j) (fun more i hi hmore => ?_) hi
  refine .ask_bind <| .ite (fun _ => ?_) fun htest => safe_pure fun h => absurd h htest
  refine hp.bind hi fun a k hik => ?_
  refine (hmore k hik).bind fun as j hkj _ => ?_
  exact safe_pure fun _ => Nat.lt_of_lt_of_le hik hkj

end Rules

end Parse

end LooseC
