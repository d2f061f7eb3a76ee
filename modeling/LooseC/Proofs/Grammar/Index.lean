import LooseC.Token.Basic

/-!
# Token lists by index

The grammar speaks of a token list by index: which kind and which row stand at an index
(`kindAt?`, `rowAt?`), how many tokens of a kind stand in a range (`countKind`), and which
index is the first with some property (`FirstFrom`). The predicates here say what a search
looks for without saying how it searches:

* `Closes`: the bracket that closes the one at an index, the first place where as many
  brackets are closed as are opened;
* `EndsInitializer`: the first comma or semicolon before which no shape of bracket has been
  opened more often than closed.

The step laws of `countKind`, one for each end of the range, carry every induction over a
search.
-/

set_option autoImplicit false

namespace LooseC

/-- The kind of the token at an index, nothing past the end of the list. -/
def kindAt? (ts : List Token) (i : Nat) : Option TokenKind := ts[i]?.map Token.kind

/-- The row of the token at an index, nothing past the end of the list. -/
def rowAt? (ts : List Token) (i : Nat) : Option Nat := ts[i]?.map fun t => t.position.row

/-- A type word stands at an index. -/
def TypeWordAt (ts : List Token) (i : Nat) : Prop :=
  ∃ kind, kindAt? ts i = some kind ∧ kind.isType = true

/-- The number of tokens of a kind from index `i` up to, not including, `j`. -/
def countKind (ts : List Token) (kind : TokenKind) (i j : Nat) : Nat :=
  ((ts.take j).drop i).countP fun t => t.kind == kind

/-- The least index from `i` on with the property `P` is `j`. -/
structure FirstFrom (P : Nat → Prop) (i j : Nat) : Prop where
  le : i ≤ j
  holds : P j
  least : ∀ m, i ≤ m → m < j → ¬ P m

/-- The bracket at `i` is closed by the one at `j`, the first index after `i` through which as
many brackets are closed as are opened. -/
structure Closes (ts : List Token) (opening closing : TokenKind) (i j : Nat) : Prop where
  opens : kindAt? ts i = some opening
  first : FirstFrom (fun m => m < ts.length ∧
    countKind ts opening i (m + 1) = countKind ts closing i (m + 1)) (i + 1) j

/-- No shape of bracket has been opened more often than closed between `i` and `m`. A closing
bracket without an opening one counts in favour of what comes later. -/
structure LevelAt (ts : List Token) (i m : Nat) : Prop where
  parens : countKind ts .lparen i m ≤ countKind ts .rparen i m
  brackets : countKind ts .lbracket i m ≤ countKind ts .rbracket i m
  braces : countKind ts .lbrace i m ≤ countKind ts .rbrace i m

/-- The initializer that begins at `i` ends before `j`, where the first comma or semicolon
stands that no bracket keeps inside. -/
def EndsInitializer (ts : List Token) (i j : Nat) : Prop :=
  FirstFrom (fun m => LevelAt ts i m ∧
    (kindAt? ts m = some .comma ∨ kindAt? ts m = some .semi)) i j

/-- Tokens of the given kinds, all on one row and without text. -/
def tokensOnRow (row : Nat) (kinds : List TokenKind) : List Token :=
  kinds.map fun kind => ⟨kind, "", ⟨row, 0⟩⟩

/-! ### The first index with a property -/

namespace FirstFrom

variable {P Q : Nat → Prop} {i j k : Nat}

/-- The search goes no further than an index with the property. -/
theorem le_of_holds {m : Nat} (h : FirstFrom P i j) (him : i ≤ m) (hm : P m) : j ≤ m :=
  Nat.le_of_not_lt fun hlt => h.least m him hlt hm

/-- The search goes on from an index without the property. -/
theorem lt_of_not_holds (h : FirstFrom P i j) (hi : ¬ P i) : i < j :=
  Nat.lt_of_le_of_ne h.le fun heq => hi (heq ▸ h.holds)

/-- Either the search ends where it begins, or it goes on one index further. -/
theorem step : FirstFrom P i j ↔ (P i ∧ j = i) ∨ (¬ P i ∧ FirstFrom P (i + 1) j) := by
  constructor
  · intro h
    by_cases hi : P i
    · have hnlt : ¬ i < j := fun hlt => h.least i (Nat.le_refl i) hlt hi
      have hle := h.le
      exact .inl ⟨hi, by omega⟩
    · refine .inr ⟨hi, ?_, h.holds, fun m hm => h.least m (by omega)⟩
      exact h.lt_of_not_holds hi
  · rintro (⟨hi, rfl⟩ | ⟨hi, h⟩)
    · exact ⟨Nat.le_refl _, hi, fun m h1 h2 => by omega⟩
    · -- Below the answer lie `i`, by hypothesis, and what the later search passed over.
      have hle := h.le
      refine ⟨by omega, h.holds, fun m hm hlt => ?_⟩
      by_cases hmi : m = i
      · exact hmi ▸ hi
      · exact h.least m (by omega) hlt

/-- The search depends on the property only up to where it ends. -/
theorem congr (hPQ : ∀ m, i ≤ m → m ≤ j → (P m ↔ Q m)) (h : FirstFrom P i j) :
    FirstFrom Q i j where
  le := h.le
  holds := (hPQ j h.le (Nat.le_refl j)).mp h.holds
  least m hm hlt hQ := h.least m hm hlt ((hPQ m hm (by omega)).mpr hQ)

/-- A search that begins `d` indices further on ends `d` indices further on. -/
theorem shift {d : Nat} : FirstFrom P (d + i) (d + j) ↔ FirstFrom (fun m => P (d + m)) i j := by
  constructor
  · intro h
    have hle := h.le
    exact ⟨by omega, h.holds, fun m h1 h2 => h.least (d + m) (by omega) (by omega)⟩
  · intro h
    have hle := h.le
    refine ⟨by omega, h.holds, fun m h1 h2 => ?_⟩
    -- Every index of the shifted range is a shifted index.
    have hm : m = d + (m - d) := by omega
    rw [hm]
    exact h.least (m - d) (by omega) (by omega)

/-- Properties that agree from `i` on have the same first index. -/
theorem congr_iff (hPQ : ∀ m, i ≤ m → (P m ↔ Q m)) : FirstFrom P i j ↔ FirstFrom Q i j :=
  ⟨congr fun m hm _ => hPQ m hm, congr fun m hm _ => (hPQ m hm).symm⟩

/-- There is one first index at most. -/
theorem unique (h : FirstFrom P i j) (h' : FirstFrom P i k) : j = k :=
  Nat.le_antisymm (h.le_of_holds h'.le h'.holds) (h'.le_of_holds h.le h.holds)

/-- A search that finds nothing at the first `d` indices finds what a search behind them does. -/
theorem behind {d : Nat} (hfront : ∀ m, m < d → ¬ P m)
    (h : FirstFrom (fun m => P (d + m)) 0 k) : FirstFrom P 0 (d + k) := by
  refine ⟨Nat.zero_le _, h.holds, fun m _ hm => ?_⟩
  by_cases hmd : m < d
  · exact hfront m hmd
  · have hle : d + (m - d) = m := by omega
    rw [← hle]
    exact h.least (m - d) (Nat.zero_le _) (by omega)

end FirstFrom

/-- There is no first index with a property exactly if there is no index with it. The induction
looks for an earlier one for as long as there is one. -/
theorem not_exists_firstFrom_iff {P : Nat → Prop} {i : Nat} :
    (¬ ∃ j, FirstFrom P i j) ↔ ∀ m, i ≤ m → ¬ P m := by
  constructor
  · intro hnone m
    induction m using Nat.strongRecOn with
    | ind m ih =>
      intro him hm
      exact hnone ⟨m, him, hm, fun k hik hkm => ih k hkm hik⟩
  · intro hnever ⟨j, hfirst⟩
    exact hnever j hfirst.le hfirst.holds

/-! ### Kinds at indices -/

variable {ts : List Token} {kind : TokenKind} {i j : Nat}

/-- A kind stands at an index if a token of that kind does. -/
theorem kindAt?_eq_some_iff : kindAt? ts i = some kind ↔ ∃ t, ts[i]? = some t ∧ t.kind = kind := by
  simp [kindAt?]

/-- Past the end no kind stands. -/
theorem kindAt?_eq_none_iff : kindAt? ts i = none ↔ ts.length ≤ i := by
  simp [kindAt?]

/-- Where a kind stands there is a token. -/
@[grind →]
theorem lt_length_of_kindAt? (h : kindAt? ts i = some kind) : i < ts.length := by
  refine Nat.lt_of_not_le fun hge => ?_
  rw [kindAt?_eq_none_iff.mpr hge] at h
  cases h

/-- An initializer ends in front of a token. -/
theorem EndsInitializer.lt_length (h : EndsInitializer ts i j) : j < ts.length := by
  rcases h.holds.2 with hcomma | hsemi
  · exact lt_length_of_kindAt? hcomma
  · exact lt_length_of_kindAt? hsemi

/-- Past the end there is no row. -/
theorem rowAt?_eq_none_iff : rowAt? ts i = none ↔ ts.length ≤ i := by
  simp [rowAt?]

/-- The row of a token is not the missing row at the end of the list. -/
theorem rowAt?_length_ne (h : kindAt? ts i = some kind) : rowAt? ts ts.length ≠ rowAt? ts i := by
  obtain ⟨t, ht, -⟩ := kindAt?_eq_some_iff.mp h
  simp [rowAt?, ht]

/-- Where a type word stands there is a token. -/
theorem TypeWordAt.lt_length (h : TypeWordAt ts i) : i < ts.length := by
  obtain ⟨kind, hkind, -⟩ := h
  exact lt_length_of_kindAt? hkind

/-- The kind at an index is that of the first token from there on. -/
theorem kindAt?_eq_some_of_drop {t : Token} {us : List Token} (h : ts.drop i = t :: us) :
    kindAt? ts i = some t.kind := by
  have hget : ts[i]? = some t := by
    rw [← List.head?_drop, h, List.head?_cons]
  rw [kindAt?, hget, Option.map_some]

/-! ### Counting a kind in a range -/

/-- An empty range holds no token. -/
@[simp] theorem countKind_self : countKind ts kind i i = 0 := by
  simp [countKind]

/-- The range grows by one token at its right end. -/
theorem countKind_succ_right (h : i ≤ j) :
    countKind ts kind i (j + 1) =
      countKind ts kind i j + if kindAt? ts j = some kind then 1 else 0 := by
  unfold countKind
  by_cases hj : j < ts.length
  · have hlen : i ≤ (ts.take j).length := by rw [List.length_take]; omega
    rw [List.take_add_one, List.drop_append_of_le_length hlen, List.countP_append]
    simp [kindAt?, hj, List.countP_cons]
  · -- Past the end the range stops growing.
    have hnone : kindAt? ts j = none := kindAt?_eq_none_iff.mpr (by omega)
    rw [List.take_of_length_le (by omega), List.take_of_length_le (by omega), hnone]
    simp

/-- The range loses one token at its left end. -/
theorem countKind_eq_add_left (h : i < j) :
    countKind ts kind i j =
      (if kindAt? ts i = some kind then 1 else 0) + countKind ts kind (i + 1) j := by
  -- On the right end: the range grows there by the same token on both sides.
  induction h with
  | refl => rw [countKind_succ_right (Nat.le_refl i), countKind_self, countKind_self, Nat.add_comm]
  | @step j hj ih =>
    have hij : i ≤ j := Nat.le_of_succ_le hj
    rw [countKind_succ_right hij, countKind_succ_right hj, ih, Nat.add_assoc]

/-- Whether a place is outside all brackets is a matter of counts. -/
theorem levelAt_congr {us : List Token} {i' m m' : Nat}
    (h : ∀ kind, countKind us kind i' m' = countKind ts kind i m) :
    LevelAt us i' m' ↔ LevelAt ts i m := by
  constructor
  -- All three shapes are counted alike.
  · intro hlevel
    obtain ⟨hparens, hbrackets, hbraces⟩ := hlevel
    rw [h, h] at hparens hbrackets hbraces
    exact ⟨hparens, hbrackets, hbraces⟩
  · intro hlevel
    refine ⟨?_, ?_, ?_⟩
    · rw [h, h]
      exact hlevel.parens
    · rw [h, h]
      exact hlevel.brackets
    · rw [h, h]
      exact hlevel.braces

/-- A count depends on the kinds in its range alone, wherever the range lies in a list. -/
theorem countKind_shift {us : List Token} {d : Nat}
    (h : ∀ m, i ≤ m → m < j → kindAt? us (d + m) = kindAt? ts m) :
    countKind us kind (d + i) (d + j) = countKind ts kind i j := by
  by_cases hij : i ≤ j
  · induction hij with
    | refl => simp
    | @step j hj ih =>
      rw [Nat.succ_eq_add_one, ← Nat.add_assoc, countKind_succ_right (Nat.add_le_add_left hj d),
        countKind_succ_right hj, h j hj (Nat.lt_succ_self j), ih fun m h1 h2 => h m h1 (by omega)]
  · -- A range that ends before it begins is empty in both lists.
    have hempty (ws : List Token) (k l : Nat) (hlk : l < k) : (ws.take l).drop k = [] := by
      rw [List.drop_eq_nil_iff, List.length_take]
      omega
    rw [countKind, countKind, hempty us _ _ (by omega), hempty ts _ _ (by omega)]

end LooseC
