import LooseC.Proofs.Grammar.Search

/-!
# Brackets that are still open

A closing bracket closes the nearest earlier bracket of its shape that is still open. If there is
none it is a stray and closes nothing. `stillOpen` keeps the open brackets of one shape, `strays`
counts the strays, both over the tokens from an index on.

The search outside all brackets keeps neither: it counts openings against closings, so a stray
pays for a bracket that is opened behind it. `countKind_add_strays` is the invariant that ties the
counts to the brackets, and `levelAt_iff` says what the counts of a search mean: in each shape at
most as many brackets are open as there were strays.

`findAtSameLevel_strays` is what the search finds. Its answer is the first place that no bracket
encloses whenever no bracket encloses its answer, so in particular if there are no strays. In
`) ( , ) ,` the first bracket is a stray, and the answer is the comma between the two others
(`findAtSameLevel_enclosed`).
-/

set_option autoImplicit false

namespace LooseC

/-- The shapes of bracket. -/
inductive BracketShape where
  | paren | square | brace

/-- The bracket that opens. -/
def BracketShape.opening : BracketShape → TokenKind
  | .paren => .lparen
  | .square => .lbracket
  | .brace => .lbrace

/-- The bracket that closes. -/
def BracketShape.closing : BracketShape → TokenKind
  | .paren => .rparen
  | .square => .rbracket
  | .brace => .rbrace

/-- The brackets of a shape that have been opened from index `i` on and are still open at an
index, the nearest first. A closing bracket closes the nearest one, if one is open. -/
def stillOpen (ts : List Token) (shape : BracketShape) (i : Nat) : Nat → List Nat
  | 0 => []
  | m + 1 =>
    if m < i then []
    else if kindAt? ts m = some shape.opening then m :: stillOpen ts shape i m
    else if kindAt? ts m = some shape.closing then (stillOpen ts shape i m).tail
    else stillOpen ts shape i m

/-- The number of closing brackets of a shape from index `i` on that close nothing. -/
def strays (ts : List Token) (shape : BracketShape) (i : Nat) : Nat → Nat
  | 0 => 0
  | m + 1 =>
    if m < i then 0
    else if kindAt? ts m = some shape.closing ∧ stillOpen ts shape i m = [] then
      strays ts shape i m + 1
    else strays ts shape i m

/-- A bracket opened from index `i` on is still open at `m`. -/
def EnclosedAt (ts : List Token) (i m : Nat) : Prop :=
  ∃ shape, stillOpen ts shape i m ≠ []

/-- The search from index `i` answers the first index that satisfies `p` among those where `Q`
holds, and nothing exactly if there is no such index. -/
structure FindsFirst (ts : List Token) (p : Token → Bool) (i : Nat) (Q : Nat → Prop) : Prop where
  some_iff : ∀ j, (Cursor.mk ts i).findAtSameLevel p = some j ↔
    FirstFrom (fun m => Q m ∧ ∃ t, ts[m]? = some t ∧ p t = true) i j
  none_iff : (Cursor.mk ts i).findAtSameLevel p = none ↔
    ∀ m, i ≤ m → ¬ (Q m ∧ ∃ t, ts[m]? = some t ∧ p t = true)

variable {ts : List Token} {p : Token → Bool} {shape : BracketShape} {i j m : Nat}
  {Q : Nat → Prop}

/-! ### One token further on -/

/-- The two brackets of a shape are different kinds of token. -/
theorem BracketShape.opening_ne_closing (shape : BracketShape) : shape.opening ≠ shape.closing := by
  cases shape <;> decide

/-- Where nothing has been read nothing is open. -/
@[simp] theorem stillOpen_self : stillOpen ts shape i i = [] := by
  cases i <;> simp [stillOpen]

/-- And there are no strays. -/
@[simp] theorem strays_self : strays ts shape i i = 0 := by
  cases i <;> simp [strays]

/-- One token further on: a bracket is opened, or the nearest one is closed, or neither. -/
theorem stillOpen_succ (h : i ≤ m) : stillOpen ts shape i (m + 1) =
    if kindAt? ts m = some shape.opening then m :: stillOpen ts shape i m
    else if kindAt? ts m = some shape.closing then (stillOpen ts shape i m).tail
    else stillOpen ts shape i m := by
  rw [stillOpen, if_neg (Nat.not_lt.mpr h)]

/-- One token further on: a closing bracket that finds nothing open is one stray more. -/
theorem strays_succ (h : i ≤ m) : strays ts shape i (m + 1) =
    if kindAt? ts m = some shape.closing ∧ stillOpen ts shape i m = [] then
      strays ts shape i m + 1
    else strays ts shape i m := by
  rw [strays, if_neg (Nat.not_lt.mpr h)]

/-- A stray stays a stray. -/
theorem strays_mono (him : i ≤ m) (hmj : m ≤ j) : strays ts shape i m ≤ strays ts shape i j := by
  induction hmj with
  | refl => exact Nat.le_refl _
  | @step j hmj ih =>
    rw [Nat.succ_eq_add_one, strays_succ (Nat.le_trans him hmj)]
    split
    · omega
    · exact ih

/-! ### What the counts mean -/

/-- Every opening bracket is closed or still open, and every closing bracket closes one or is a
stray. The induction takes one token at a time. -/
theorem countKind_add_strays (ts : List Token) (shape : BracketShape) (him : i ≤ m) :
    countKind ts shape.opening i m + strays ts shape i m =
      countKind ts shape.closing i m + (stillOpen ts shape i m).length := by
  induction him with
  | refl => simp
  | @step m him ih =>
    rw [Nat.succ_eq_add_one, countKind_succ_right him, countKind_succ_right him,
      stillOpen_succ him, strays_succ him]
    by_cases hopen : kindAt? ts m = some shape.opening
    · -- One more is open.
      simp [hopen, shape.opening_ne_closing]
      omega
    · by_cases hclose : kindAt? ts m = some shape.closing
      · -- Either the nearest open one is closed, or there is one more stray.
        cases hstill : stillOpen ts shape i m with
        | nil =>
          rw [hstill, List.length_nil] at ih
          simp [hclose, shape.opening_ne_closing.symm]
          omega
        | cons nearest others =>
          rw [hstill, List.length_cons] at ih
          simp [hclose, shape.opening_ne_closing.symm]
          omega
      · simpa [hopen, hclose] using ih

/-- A search that counts takes a place for outside if in each shape the strays make up for the
brackets that are still open. -/
theorem levelAt_iff (him : i ≤ m) :
    LevelAt ts i m ↔ ∀ shape, (stillOpen ts shape i m).length ≤ strays ts shape i m := by
  have hparens := countKind_add_strays ts .paren him
  have hsquares := countKind_add_strays ts .square him
  have hbraces := countKind_add_strays ts .brace him
  simp only [BracketShape.opening, BracketShape.closing] at hparens hsquares hbraces
  constructor
  · intro ⟨h1, h2, h3⟩ shape
    cases shape <;> omega
  · intro h
    have h1 := h .paren
    have h2 := h .square
    have h3 := h .brace
    exact ⟨by omega, by omega, by omega⟩

/-! ### What the search finds -/

namespace FindsFirst

/-- It is enough to know when the search answers an index. -/
theorem of_some_iff (h : ∀ j, (Cursor.mk ts i).findAtSameLevel p = some j ↔
    FirstFrom (fun m => Q m ∧ ∃ t, ts[m]? = some t ∧ p t = true) i j) : FindsFirst ts p i Q where
  some_iff := h
  none_iff := by
    rw [← not_exists_firstFrom_iff, Option.eq_none_iff_forall_ne_some]
    simp only [ne_eq, h, not_exists]

end FindsFirst

/-- The search outside all brackets finds the first place where the strays of each shape make up
for the brackets that are still open. -/
theorem findsFirst_strays (ts : List Token) (p : Token → Bool) (i : Nat) :
    FindsFirst ts p i fun m => ∀ shape, (stillOpen ts shape i m).length ≤ strays ts shape i m := by
  refine .of_some_iff fun j => ?_
  rw [findAtSameLevel_eq_some_iff]
  exact FirstFrom.congr_iff fun m him => by rw [levelAt_iff him]

/-- What no bracket encloses, no stray has to pay for. -/
theorem le_strays_of_not_enclosedAt (h : ¬ EnclosedAt ts i m) (shape : BracketShape) :
    (stillOpen ts shape i m).length ≤ strays ts shape i m := by
  have hnil : stillOpen ts shape i m = [] := Decidable.not_not.mp (not_exists.mp h shape)
  simp [hnil]

/-- An answer that no bracket encloses is the first place with the property that no bracket
encloses. -/
theorem findsFirst_of_not_enclosedAt
    (h : ∀ j, (Cursor.mk ts i).findAtSameLevel p = some j → ¬ EnclosedAt ts i j) :
    FindsFirst ts p i fun m => ¬ EnclosedAt ts i m := by
  have hsearch := findsFirst_strays ts p i
  refine .of_some_iff fun j => ⟨fun hfound => ?_, fun hfirst => ?_⟩
  · have hfirst := (hsearch.some_iff j).mp hfound
    refine ⟨hfirst.le, ⟨h j hfound, hfirst.holds.2⟩, fun m him hmj ⟨hfree, ht⟩ => ?_⟩
    exact hfirst.least m him hmj ⟨le_strays_of_not_enclosedAt hfree, ht⟩
  · -- The search stops at `j` at the latest, and not before, for its answer is not enclosed.
    cases hfound : (Cursor.mk ts i).findAtSameLevel p with
    | none =>
      have hnever := hsearch.none_iff.mp hfound j hfirst.le
      exact absurd ⟨le_strays_of_not_enclosedAt hfirst.holds.1, hfirst.holds.2⟩ hnever
    | some k =>
      have hk := (hsearch.some_iff k).mp hfound
      have hkj : k ≤ j := hk.le_of_holds hfirst.le
        ⟨le_strays_of_not_enclosedAt hfirst.holds.1, hfirst.holds.2⟩
      have hjk : j ≤ k := hfirst.le_of_holds hk.le ⟨h k hfound, hk.holds.2⟩
      rw [Nat.le_antisymm hkj hjk]

/-- The search outside all brackets finds the first place where the strays of each shape make up
for the brackets that are still open. It finds the first place that no bracket encloses exactly if
no bracket encloses what it finds, and it does so if no closing bracket is a stray. -/
theorem findAtSameLevel_strays (ts : List Token) (p : Token → Bool) (i : Nat) :
    (FindsFirst ts p i fun m =>
      ∀ shape, (stillOpen ts shape i m).length ≤ strays ts shape i m) ∧
    ((FindsFirst ts p i fun m => ¬ EnclosedAt ts i m) ↔
      ∀ j, (Cursor.mk ts i).findAtSameLevel p = some j → ¬ EnclosedAt ts i j) ∧
    ((∀ shape, strays ts shape i ts.length = 0) →
      FindsFirst ts p i fun m => ¬ EnclosedAt ts i m) := by
  have hsearch := findsFirst_strays ts p i
  refine ⟨hsearch, ⟨fun h j hfound => ((h.some_iff j).mp hfound).holds.1,
    findsFirst_of_not_enclosedAt⟩, fun hstrays => findsFirst_of_not_enclosedAt ?_⟩
  intro j hfound ⟨shape, hopen⟩
  have hfirst := (hsearch.some_iff j).mp hfound
  obtain ⟨hpaid, t, ht, -⟩ := hfirst.holds
  -- Without strays nothing pays for an open bracket.
  have hj : j < ts.length := (List.getElem?_eq_some_iff.mp ht).1
  have hmono : strays ts shape i j ≤ strays ts shape i ts.length :=
    strays_mono hfirst.le (Nat.le_of_lt hj)
  have hle := hpaid shape
  rw [hstrays shape] at hmono
  exact hopen (List.length_eq_zero_iff.mp (by omega))

/-- `) ( , ) ,`, in which the first parenthesis is a stray and the first comma is enclosed. -/
def strayThenEnclosed : List Token :=
  tokensOnRow 0 [.rparen, .lparen, .comma, .rparen, .comma]

/-- A stray hides the bracket behind it. The first comma of `) ( , ) ,` that no bracket encloses
is the second one, and the search answers the first, with the bracket at index 1 still open. -/
theorem findAtSameLevel_enclosed :
    (Cursor.start strayThenEnclosed).findAtSameLevel (fun t => t.kind == .comma) = some 2 ∧
      stillOpen strayThenEnclosed .paren 0 2 = [1] ∧
      FirstFrom (fun m => ¬ EnclosedAt strayThenEnclosed 0 m ∧
        ∃ t, strayThenEnclosed[m]? = some t ∧ (t.kind == .comma) = true) 0 4 ∧
      ¬ FindsFirst strayThenEnclosed (fun t => t.kind == .comma) 0
        fun m => ¬ EnclosedAt strayThenEnclosed 0 m := by
  have hfound : (Cursor.start strayThenEnclosed).findAtSameLevel (fun t => t.kind == .comma) =
      some 2 := by decide
  have hopen : stillOpen strayThenEnclosed .paren 0 2 = [1] := by decide
  have hfree : ¬ EnclosedAt strayThenEnclosed 0 4 := by
    intro ⟨shape, hshape⟩
    cases shape <;> exact hshape (by decide)
  have hfirst : FirstFrom (fun m => ¬ EnclosedAt strayThenEnclosed 0 m ∧
      ∃ t, strayThenEnclosed[m]? = some t ∧ (t.kind == .comma) = true) 0 4 := by
    refine ⟨Nat.zero_le 4, ⟨hfree, _, rfl, rfl⟩, fun m _ hm ⟨hm2, t, ht, hcomma⟩ => ?_⟩
    -- Only at index 2 a comma stands before index 4, and there the parenthesis is open.
    have hat : m = 2 := by
      have hkinds : ∀ m < 4, (strayThenEnclosed[m]?.map fun t => t.kind == .comma) = some true →
          m = 2 := by decide
      exact hkinds m hm (by rw [ht, Option.map_some, hcomma])
    exact hm2 ⟨.paren, by rw [hat, hopen]; simp⟩
  refine ⟨hfound, hopen, hfirst, fun h => ?_⟩
  have hanswer : (Cursor.start strayThenEnclosed).findAtSameLevel (fun t => t.kind == .comma) =
      some 4 := (h.some_iff 4).mpr hfirst
  rw [hfound] at hanswer
  cases hanswer

end LooseC
