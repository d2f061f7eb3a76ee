import LooseC.Cursor.Search
import LooseC.Proofs.Grammar.Index

/-!
# What the searches of a cursor find

Each search answers the first index that its predicate of `Proofs/Grammar/Index.lean` names,
and nothing exactly if there is no such index:

* `findNext_eq_some_iff`: the first token of a kind;
* `findMatching_eq_some_iff`: the closing bracket, by `Closes`;
* `findAtSameLevel_eq_some_iff`: the first token with a property where `LevelAt` holds.

A search runs over the tokens from the cursor on and keeps a depth or three counts. The
inductions below follow that list and generalise over the depth or the counts: what the search
still needs is the part of the range to the right of where it stands.

The counts are integers without a bound. `Nesting.toInt_ofInt_foldl` says for which lists a machine
that keeps them in 32 bits does the same.
-/

set_option autoImplicit false

namespace LooseC

variable {ts : List Token}

/-- A search that goes on one index further answers one more. -/
theorem map_succ_eq_some_iff {P : Nat → Prop} {found : Option Nat} {i : Nat}
    (h : ∀ n, found = some n ↔ FirstFrom P (i + 1) (i + 1 + n)) (n : Nat) :
    found.map (· + 1) = some n ↔ FirstFrom P (i + 1) (i + n) := by
  constructor
  · intro hmap
    obtain ⟨m, hm, rfl⟩ := Option.map_eq_some_iff.mp hmap
    have hfirst := (h m).mp hm
    rwa [show i + (m + 1) = i + 1 + m by omega]
  · intro hfirst
    have hle := hfirst.le
    refine Option.map_eq_some_iff.mpr ⟨n - 1, (h (n - 1)).mpr ?_, by omega⟩
    rwa [show i + 1 + (n - 1) = i + n by omega]

/-! ### The first token of a kind -/

/-- The first token of a kind, counted from where the search begins. -/
theorem findIdx?_drop_eq_some_iff (kind : TokenKind) (i n : Nat) :
    (ts.drop i).findIdx? (fun t => t.kind == kind) = some n ↔
      FirstFrom (fun m => kindAt? ts m = some kind) i (i + n) := by
  induction hus : ts.drop i generalizing i n with
  | nil =>
    have hlen : ts.length ≤ i := List.drop_eq_nil_iff.mp hus
    constructor
    · intro h
      simp at h
    · intro h
      have hlt := lt_length_of_kindAt? h.holds
      omega
  | cons t us ih =>
    have hi := kindAt?_eq_some_of_drop hus
    have htail : ts.drop (i + 1) = us := by rw [← List.tail_drop, hus, List.tail_cons]
    -- Either this token is the one, or the search goes on behind it.
    rw [FirstFrom.step, hi, List.findIdx?_cons, Option.some.injEq]
    by_cases hk : t.kind = kind
    · simp [hk, eq_comm]
    · have hnext := map_succ_eq_some_iff (fun n => ih (i + 1) n htail) n
      simpa [hk] using hnext

/-- A search for a kind answers the first index where it stands. -/
theorem findNext_eq_some_iff (kind : TokenKind) (i j : Nat) :
    (Cursor.mk ts i).findNext kind = some j ↔
      FirstFrom (fun m => kindAt? ts m = some kind) i j := by
  rw [Cursor.findNext, Cursor.rest, Option.map_eq_some_iff]
  constructor
  · rintro ⟨n, hn, rfl⟩
    exact (findIdx?_drop_eq_some_iff kind i n).mp hn
  · intro h
    -- The search counts from the cursor, the grammar from the front of the list.
    have hj := Nat.add_sub_of_le h.le
    refine ⟨j - i, (findIdx?_drop_eq_some_iff kind i (j - i)).mpr ?_, hj⟩
    rwa [hj]

/-! ### The bracket that closes another -/

/-- What a search for a closing bracket looks for from `i` on, while `depth + 1` brackets are
open: the first index through which all of them are closed. -/
def ClosesAfter (ts : List Token) (opening closing : TokenKind) (depth i : Nat) (m : Nat) : Prop :=
  m < ts.length ∧
    depth + 1 + countKind ts opening i (m + 1) = countKind ts closing i (m + 1)

/-- One token further on, the depth has changed by what that token opens or closes. -/
theorem closesAfter_succ {opening closing : TokenKind} {depth depth' i m : Nat} (him : i < m)
    (hdepth : depth + (if kindAt? ts i = some opening then 1 else 0) =
      depth' + if kindAt? ts i = some closing then 1 else 0) :
    ClosesAfter ts opening closing depth i m ↔
      ClosesAfter ts opening closing depth' (i + 1) m := by
  have hopen : countKind ts opening i (m + 1) = _ := countKind_eq_add_left (by omega)
  have hclose : countKind ts closing i (m + 1) = _ := countKind_eq_add_left (by omega)
  unfold ClosesAfter
  rw [hopen, hclose]
  omega

/-- The search for a closing bracket at any depth, by induction on what is left of the list. -/
theorem closingIndex?_drop_eq_some_iff {opening closing : TokenKind} (hne : opening ≠ closing)
    (depth i n : Nat) :
    closingIndex? opening closing depth (ts.drop i) = some n ↔
      FirstFrom (ClosesAfter ts opening closing depth i) i (i + n) := by
  induction hus : ts.drop i generalizing depth i n with
  | nil =>
    have hlen : ts.length ≤ i := List.drop_eq_nil_iff.mp hus
    constructor
    · intro h
      simp [closingIndex?] at h
    · intro h
      have hlt := h.holds.1
      omega
  | cons t us ih =>
    have hi := kindAt?_eq_some_of_drop hus
    have hlt := lt_length_of_kindAt? hi
    have htail : ts.drop (i + 1) = us := by rw [← List.tail_drop, hus, List.tail_cons]
    -- Through index `i` itself only one token counts.
    have hhere : ClosesAfter ts opening closing depth i i ↔ depth = 0 ∧ t.kind = closing := by
      unfold ClosesAfter
      rw [countKind_succ_right (Nat.le_refl i), countKind_succ_right (Nat.le_refl i), hi]
      grind [countKind_self]
    -- The search goes on with the depth that this token leaves.
    have hlater (depth' : Nat) (hdepth : depth + (if kindAt? ts i = some opening then 1 else 0) =
        depth' + if kindAt? ts i = some closing then 1 else 0) :
        (closingIndex? opening closing depth' us).map (· + 1) = some n ↔
          FirstFrom (ClosesAfter ts opening closing depth i) (i + 1) (i + n) := by
      rw [map_succ_eq_some_iff (fun n => ih depth' (i + 1) n htail) n]
      exact FirstFrom.congr_iff fun m hm => (closesAfter_succ hm hdepth).symm
    rw [FirstFrom.step, hhere, closingIndex?.eq_def]
    simp only
    by_cases hopen : t.kind = opening
    · have hnclose : t.kind ≠ closing := fun heq => hne (hopen.symm.trans heq)
      rw [if_pos hopen, hlater (depth + 1) (by simp [hi, hopen, hne])]
      simp [hnclose]
    · rw [if_neg hopen]
      by_cases hclose : t.kind = closing
      · rw [if_pos hclose]
        cases depth with
        | zero => simp [hclose, eq_comm]
        | succ depth =>
          rw [hlater depth (by simp [hi, hclose, hne.symm])]
          simp
      · rw [if_neg hclose, hlater depth (by simp [hi, hopen, hclose])]
        simp [hclose]

/-- The search for the bracket that closes the one under the cursor finds it, if the two shapes
differ. -/
theorem findMatching_eq_some_iff {opening closing : TokenKind} (hne : opening ≠ closing)
    (i j : Nat) :
    (Cursor.mk ts i).findMatching opening closing = some j ↔ Closes ts opening closing i j := by
  unfold Cursor.findMatching Cursor.rest
  cases hus : ts.drop i with
  | nil =>
    have hlen : ts.length ≤ i := List.drop_eq_nil_iff.mp hus
    constructor
    · intro h
      simp at h
    · intro h
      have hlt := lt_length_of_kindAt? h.opens
      omega
  | cons t us =>
    have hi := kindAt?_eq_some_of_drop hus
    have htail : ts.drop (i + 1) = us := by rw [← List.tail_drop, hus, List.tail_cons]
    by_cases hopen : t.kind = opening
    · -- The bracket under the cursor is the one that is open when the search begins, so the
      -- depth starts at zero behind it.
      have hsame : FirstFrom (ClosesAfter ts opening closing 0 (i + 1)) (i + 1) j ↔
          Closes ts opening closing i j := by
        have hcongr := FirstFrom.congr_iff (j := j) (P := ClosesAfter ts opening closing 0 (i + 1))
          (Q := fun m => m < ts.length ∧
            countKind ts opening i (m + 1) = countKind ts closing i (m + 1)) (i := i + 1)
          fun m hm => by
            have h1 : countKind ts opening i (m + 1) = _ := countKind_eq_add_left (by omega)
            have h2 : countKind ts closing i (m + 1) = _ := countKind_eq_add_left (by omega)
            rw [h1, h2, hi, hopen]
            simp [ClosesAfter, hne]
        exact ⟨fun h => ⟨by rw [hi, hopen], hcongr.mp h⟩, fun h => hcongr.mpr h.first⟩
      simp only [hopen, if_true]
      rw [← hsame, Option.map_eq_some_iff, ← htail]
      constructor
      · rintro ⟨n, hn, rfl⟩
        exact (closingIndex?_drop_eq_some_iff hne 0 (i + 1) n).mp hn
      · intro h
        have hj := Nat.add_sub_of_le h.le
        refine ⟨j - (i + 1), (closingIndex?_drop_eq_some_iff hne 0 (i + 1) _).mpr ?_, hj⟩
        rwa [hj]
    · constructor
      · intro h
        simp [hopen] at h
      · intro h
        have hkind := h.opens
        rw [hi, Option.some.injEq] at hkind
        exact absurd hkind hopen

/-- Up to where the closing bracket is found, more brackets have been opened than closed: the depth
of the search is positive in front of every token that it comes to. -/
theorem countKind_lt_of_not_closed {opening closing : TokenKind} (hne : opening ≠ closing)
    {i m : Nat} (hi : kindAt? ts i = some opening) (him : i < m)
    (hm : ∀ j, (Cursor.mk ts i).findMatching opening closing = some j → m ≤ j) :
    countKind ts closing i m < countKind ts opening i m := by
  induction m using Nat.strongRecOn with
  | ind m ih =>
    obtain ⟨n, rfl⟩ : ∃ n, m = n + 1 := ⟨m - 1, by omega⟩
    have hin : i ≤ n := Nat.le_of_lt_succ him
    have hopen : countKind ts opening i (n + 1) = _ := countKind_succ_right hin
    have hclose : countKind ts closing i (n + 1) = _ := countKind_succ_right hin
    rcases Nat.eq_or_lt_of_le hin with rfl | hlt
    · rw [hopen, hclose, hi]
      simp [hne]
    · have hbefore (m : Nat) (him : i < m) (hmn : m ≤ n) :
          countKind ts closing i m < countKind ts opening i m :=
        ih m (Nat.lt_succ_of_le hmn) him fun j hj =>
          Nat.le_trans (Nat.le_succ_of_le hmn) (hm j hj)
      -- If the token at `n` were to make the counts equal, then it would close the first bracket.
      refine Nat.lt_of_not_le fun hge => ?_
      have hn := hbefore n hlt (Nat.le_refl n)
      have hequal : countKind ts opening i (n + 1) = countKind ts closing i (n + 1) := by
        split at hclose <;> omega
      have hkind : kindAt? ts n = some closing := by
        split at hclose
        · assumption
        · omega
      have hcloses : Closes ts opening closing i n := by
        refine ⟨hi, hlt, ⟨lt_length_of_kindAt? hkind, hequal⟩, fun m hm hmn hclosed => ?_⟩
        have hopened := hbefore (m + 1) (Nat.lt_succ_of_lt hm) hmn
        omega
      have hle := hm n ((findMatching_eq_some_iff hne i n).mpr hcloses)
      omega

/-! ### The first token outside all brackets -/

/-- No shape of bracket has been opened more often than closed, the counts `n` at index `i`
included, when the search comes to `m`. -/
structure LevelFrom (n : Nesting) (ts : List Token) (i m : Nat) : Prop where
  parens : n.parens + countKind ts .lparen i m ≤ countKind ts .rparen i m
  brackets : n.brackets + countKind ts .lbracket i m ≤ countKind ts .rbracket i m
  braces : n.braces + countKind ts .lbrace i m ≤ countKind ts .rbrace i m

/-- A place is outside if nothing has been opened since it. -/
theorem isOutside_iff_levelFrom (ts : List Token) (n : Nesting) (i : Nat) :
    n.isOutside = true ↔ LevelFrom n ts i i := by
  constructor
  · intro h
    simp only [Nesting.isOutside, Bool.and_eq_true, decide_eq_true_eq] at h
    exact ⟨by simp [h.1.1], by simp [h.1.2], by simp [h.2]⟩
  · intro h
    have h1 := h.parens
    have h2 := h.brackets
    have h3 := h.braces
    simp only [countKind_self] at h1 h2 h3
    simp only [Nesting.isOutside, Bool.and_eq_true, decide_eq_true_eq]
    omega

/-- A token adds one to the count of the shape it opens and takes one off the count of the
shape it closes. -/
theorem Nesting.step_counts (n : Nesting) (kind : TokenKind) :
    n.step kind =
      ⟨n.parens + (if kind = .lparen then 1 else 0) - (if kind = .rparen then 1 else 0),
        n.brackets + (if kind = .lbracket then 1 else 0) - (if kind = .rbracket then 1 else 0),
        n.braces + (if kind = .lbrace then 1 else 0) - (if kind = .rbrace then 1 else 0)⟩ := by
  cases kind <;> simp [Nesting.step]

/-- One token further on, the counts have changed by what that token opens or closes. -/
theorem levelFrom_succ {n : Nesting} {kind : TokenKind} {i m : Nat} (him : i < m)
    (hi : kindAt? ts i = some kind) :
    LevelFrom n ts i m ↔ LevelFrom (n.step kind) ts (i + 1) m := by
  -- The counts of the search are signed, those of the list are not.
  have hcount (shape : TokenKind) : (countKind ts shape i m : Int) =
      (if kind = shape then 1 else 0) + countKind ts shape (i + 1) m := by
    rw [countKind_eq_add_left him, hi]
    simp only [Option.some.injEq]
    split <;> simp
  rw [Nesting.step_counts]
  constructor
  · intro ⟨h1, h2, h3⟩
    rw [hcount, hcount] at h1 h2 h3
    exact ⟨by simp only; omega, by simp only; omega, by simp only; omega⟩
  · intro ⟨h1, h2, h3⟩
    simp only at h1 h2 h3
    exact ⟨by rw [hcount, hcount]; omega, by rw [hcount, hcount]; omega,
      by rw [hcount, hcount]; omega⟩

/-- From no nesting on, the level is that of the counts alone. -/
theorem levelFrom_none_iff (i m : Nat) : LevelFrom .none ts i m ↔ LevelAt ts i m := by
  constructor
  · intro ⟨h1, h2, h3⟩
    simp only [Nesting.none] at h1 h2 h3
    exact ⟨by omega, by omega, by omega⟩
  · intro ⟨h1, h2, h3⟩
    exact ⟨by simp only [Nesting.none]; omega, by simp only [Nesting.none]; omega,
      by simp only [Nesting.none]; omega⟩

/-- The search outside all brackets from any nesting on, by induction on what is left of the list.
-/
theorem sameLevelIndex?_drop_eq_some_iff (p : Token → Bool) (n : Nesting) (i k : Nat) :
    sameLevelIndex? p n (ts.drop i) = some k ↔
      FirstFrom (fun m => LevelFrom n ts i m ∧ ∃ t, ts[m]? = some t ∧ p t = true) i (i + k) := by
  induction hus : ts.drop i generalizing n i k with
  | nil =>
    have hlen : ts.length ≤ i := List.drop_eq_nil_iff.mp hus
    constructor
    · intro h
      simp [sameLevelIndex?] at h
    · intro h
      obtain ⟨t, ht, -⟩ := h.holds.2
      have hlt := (List.getElem?_eq_some_iff.mp ht).1
      omega
  | cons t us ih =>
    have hi := kindAt?_eq_some_of_drop hus
    have hget : ts[i]? = some t := by rw [← List.head?_drop, hus, List.head?_cons]
    have htail : ts.drop (i + 1) = us := by rw [← List.tail_drop, hus, List.tail_cons]
    -- At `i` itself the counts are those that the search came with.
    have hhere : (LevelFrom n ts i i ∧ ∃ u, ts[i]? = some u ∧ p u = true) ↔
        (n.isOutside && p t) = true := by
      rw [Bool.and_eq_true, isOutside_iff_levelFrom ts n i, hget]
      simp
    -- Behind `i` the search goes on with the counts that this token leaves.
    have hlater : (sameLevelIndex? p (n.step t.kind) us).map (· + 1) = some k ↔
        FirstFrom (fun m => LevelFrom n ts i m ∧ ∃ t, ts[m]? = some t ∧ p t = true)
          (i + 1) (i + k) := by
      rw [map_succ_eq_some_iff (fun k => ih (n.step t.kind) (i + 1) k htail) k]
      exact FirstFrom.congr_iff fun m hm => by rw [levelFrom_succ hm hi]
    rw [FirstFrom.step, hhere, sameLevelIndex?]
    by_cases hstop : (n.isOutside && p t) = true
    · simp only [hstop, if_true, true_and, not_true, false_and, or_false, Option.some.injEq]
      omega
    · rw [if_neg hstop, hlater]
      simp [hstop]

/-- The search outside all brackets finds the first token with the property that `LevelAt`
leaves outside. -/
theorem findAtSameLevel_eq_some_iff (p : Token → Bool) (i j : Nat) :
    (Cursor.mk ts i).findAtSameLevel p = some j ↔
      FirstFrom (fun m => LevelAt ts i m ∧ ∃ t, ts[m]? = some t ∧ p t = true) i j := by
  have hcongr {k : Nat} := FirstFrom.congr_iff (i := i) (j := k)
    (P := fun m => LevelFrom .none ts i m ∧ ∃ t, ts[m]? = some t ∧ p t = true)
    (Q := fun m => LevelAt ts i m ∧ ∃ t, ts[m]? = some t ∧ p t = true)
    fun m _ => by rw [levelFrom_none_iff]
  rw [Cursor.findAtSameLevel, Cursor.rest, Option.map_eq_some_iff, ← hcongr]
  constructor
  · rintro ⟨n, hn, rfl⟩
    exact (sameLevelIndex?_drop_eq_some_iff p .none i n).mp hn
  · intro h
    have hj := Nat.add_sub_of_le h.le
    refine ⟨j - i, (sameLevelIndex?_drop_eq_some_iff p .none i _).mpr ?_, hj⟩
    rwa [hj]

/-! ### The size of the counts -/

/-- Behind tokens in which it finds nothing, the search goes on with the counts that they leave. -/
theorem sameLevelIndex?_append {p : Token → Bool} {n : Nesting} {us : List Token}
    (h : sameLevelIndex? p n us = none) (vs : List Token) :
    sameLevelIndex? p n (us ++ vs) =
      (sameLevelIndex? p ((us.map Token.kind).foldl Nesting.step n) vs).map (us.length + ·) := by
  induction us generalizing n with
  | nil => simp
  | cons u us ih =>
    rw [sameLevelIndex?] at h
    rw [List.cons_append, sameLevelIndex?]
    split at h
    · cases h
    · rename_i hstop
      rw [if_neg hstop, ih (Option.map_eq_none_iff.mp h), Option.map_map]
      simp [Function.comp_def, Nat.add_right_comm]

namespace Nesting

/-- No count is further from zero than `m`. -/
structure Within (m : Nat) (n : Nesting) : Prop where
  parens : n.parens.natAbs ≤ m
  brackets : n.brackets.natAbs ≤ m
  braces : n.braces.natAbs ≤ m

/-- A token moves one count at most, and that one by one. -/
theorem Within.step {m : Nat} {n : Nesting} (h : n.Within m) (kind : TokenKind) :
    (n.step kind).Within (m + 1) := by
  obtain ⟨h1, h2, h3⟩ := h
  cases kind <;> constructor <;> simp only [Nesting.step] <;> omega

/-- The counts behind some tokens are within their number. -/
theorem within_foldl {m : Nat} {n : Nesting} (h : n.Within m) (kinds : List TokenKind) :
    (kinds.foldl Nesting.step n).Within (m + kinds.length) := by
  induction kinds generalizing m n with
  | nil => exact h
  | cons kind kinds ih =>
    rw [List.length_cons, Nat.add_comm kinds.length, ← Nat.add_assoc]
    exact ih (h.step kind)

/-- As long as fewer than `2 ^ 31` tokens are passed, every count is one that a signed integer of 32
bits can hold. The counts that a search comes to a token with are those of the tokens before it
(`sameLevelIndex?_append`). -/
theorem toInt_ofInt_foldl {kinds : List TokenKind} (h : kinds.length < 2147483648) :
    (Int32.ofInt (kinds.foldl Nesting.step none).parens).toInt =
        (kinds.foldl Nesting.step none).parens ∧
      (Int32.ofInt (kinds.foldl Nesting.step none).brackets).toInt =
        (kinds.foldl Nesting.step none).brackets ∧
      (Int32.ofInt (kinds.foldl Nesting.step none).braces).toInt =
        (kinds.foldl Nesting.step none).braces := by
  have hnone : none.Within 0 := ⟨Nat.le_refl 0, Nat.le_refl 0, Nat.le_refl 0⟩
  obtain ⟨h1, h2, h3⟩ := within_foldl hnone kinds
  refine ⟨?_, ?_, ?_⟩ <;> exact Int32.toInt_ofInt_of_le (by omega) (by omega)

end Nesting

end LooseC
