import LooseC.Lexer.Basic
import LooseC.Proofs.Grammar.Index
import LooseC.Proofs.Lexing.Gap
import LooseC.Proofs.Lexing.Machine
import LooseC.Proofs.Lexing.Quoted

/-!
# Where string literals and block comments end

Both end with the first mark that closes them, and both readers look for it from the left, a
character or two at a time. Here the marks are given by their index in the whole text behind the
opening mark, and by what stands around that index:

* a string literal is closed by a quote with an even number of backslashes directly in front of it
  (`ClosesAt`), and `scanString_closes` says that the first of them ends it; there is one exactly if
  there is one that no backslash escapes (`closesString_iff`);
* a block comment is closed by a star and a slash (`MarkAt`), and `blockBody_closes` says that the
  first of them ends it, and that reading goes on behind it.

`CutBehind` is what both say of a reader, and `CutBehind.append` is one step of it: the reader takes
a front in which nothing closes, and goes on with the rest.

The reader of strings takes each backslash together with the character behind it, counting from the
left, and the rule counts backwards from a quote. The two agree because what the reader takes in one
step ends in an even number of backslashes, and such a front can be cut off without a change to the
quotes that close (`closesAt_append`).
-/

set_option autoImplicit false

namespace LooseC

variable {c : Char} {r front : List Char} {k : Nat}

/-! ### Cuts behind a first mark -/

/-- The text is cut behind the mark at the first index with the property `P`. A mark has `width`
characters. Without such an index there is no cut. -/
def CutBehind (P : List Char → Nat → Prop) (width : Nat) (r : List Char)
    (cut : Option (List Char × List Char)) : Prop :=
  (∃ k, FirstFrom (P r) 0 k ∧ cut = some (r.take (k + width), r.drop (k + width))) ∨
    ((¬ ∃ k, P r k) ∧ cut = none)

namespace CutBehind

variable {P : List Char → Nat → Prop} {width : Nat} {cut : Option (List Char × List Char)}
  {taken : List Char × List Char}

/-- A mark at the front of the text is the first one. -/
theorem of_front (h : P r 0) : CutBehind P width r (some (r.take width, r.drop width)) := by
  have hfirst : FirstFrom (P r) 0 0 :=
    ⟨Nat.le_refl 0, h, fun m _ hm => absurd hm (Nat.not_lt_zero m)⟩
  exact .inl ⟨0, hfirst, by rw [Nat.zero_add]⟩

/-- A front of the text without a mark, behind which the marks are those of the rest, stays in front
of the cut of the rest. -/
theorem append (front : List Char) (hopen : ∀ m, m < front.length → ¬ P (front ++ r) m)
    (hbehind : ∀ m, P (front ++ r) (front.length + m) ↔ P r m) (h : CutBehind P width r cut) :
    CutBehind P width (front ++ r) (cut.map fun p => (front ++ p.1, p.2)) := by
  rcases h with ⟨k, hfirst, rfl⟩ | ⟨hnone, rfl⟩
  · refine .inl ⟨front.length + k, .behind hopen ?_, ?_⟩
    · exact (FirstFrom.congr_iff fun m _ => hbehind m).mpr hfirst
    · rw [Option.map_some, Nat.add_assoc, List.take_length_add_append,
        List.drop_length_add_append]
  · refine .inr ⟨?_, rfl⟩
    rintro ⟨m, hm⟩
    by_cases hlt : m < front.length
    · exact hopen m hlt hm
    · have hle : front.length + (m - front.length) = m := by omega
      rw [← hle, hbehind] at hm
      exact hnone ⟨_, hm⟩

/-- The cut is behind the first mark, and there is one first mark at most. -/
theorem eq_some_iff (h : CutBehind P width r cut) : cut = some taken ↔
    ∃ k, FirstFrom (P r) 0 k ∧ taken = (r.take (k + width), r.drop (k + width)) := by
  rcases h with ⟨k, hfirst, rfl⟩ | ⟨hnone, rfl⟩
  · constructor
    · intro heq
      exact ⟨k, hfirst, (Option.some.inj heq).symm⟩
    · rintro ⟨l, hl, rfl⟩
      rw [hfirst.unique hl]
  · constructor
    · intro heq
      cases heq
    · rintro ⟨l, hl, -⟩
      exact absurd ⟨l, hl.holds⟩ hnone

/-- There is no cut exactly if there is no mark. -/
theorem eq_none_iff (h : CutBehind P width r cut) : cut = none ↔ ¬ ∃ k, P r k := by
  rcases h with ⟨k, hfirst, rfl⟩ | ⟨hnone, rfl⟩
  · constructor
    · intro heq
      cases heq
    · intro hnone
      exact absurd ⟨k, hfirst.holds⟩ hnone
  · exact ⟨fun _ => hnone, fun _ => rfl⟩

end CutBehind

/-! ### String literals -/

/-- The number of backslashes that stand directly in front of index `k`, in a row. -/
def backslashesBefore (r : List Char) (k : Nat) : Nat :=
  ((r.take k).reverse.takeWhile (· == '\\')).length

/-- At index `k` stands a quote, and an even number of backslashes directly in front of it. -/
structure ClosesAt (r : List Char) (k : Nat) : Prop where
  quote : r[k]? = some '"'
  even : backslashesBefore r k % 2 = 0

/-- Behind a front of the text the backslashes are those of the rest, and then those at the end of
the front if nothing but backslashes stands between. -/
theorem backslashesBefore_append (front r : List Char) (k : Nat) :
    backslashesBefore (front ++ r) (front.length + k) = backslashesBefore r k +
      if backslashesBefore r k = (r.take k).length
      then backslashesBefore front front.length else 0 := by
  simp only [backslashesBefore, List.take_length_add_append, List.reverse_append,
    List.takeWhile_append, List.length_reverse, List.take_length]
  split
  · rename_i hall
    rw [List.length_append, List.length_reverse, hall]
  · rfl

/-- A front that ends in an even number of backslashes leaves the quotes behind it as they are. -/
theorem closesAt_append (hfront : backslashesBefore front front.length % 2 = 0) :
    ClosesAt (front ++ r) (front.length + k) ↔ ClosesAt r k := by
  have hquote : (front ++ r)[front.length + k]? = r[k]? := by
    rw [List.getElem?_append_right (Nat.le_add_right _ _), Nat.add_sub_cancel_left]
  -- What the front adds to the backslashes is even, or nothing.
  have heven : backslashesBefore (front ++ r) (front.length + k) % 2 =
      backslashesBefore r k % 2 := by
    rw [backslashesBefore_append]
    split
    · omega
    · rfl
  constructor
  · intro h
    exact ⟨hquote ▸ h.quote, heven ▸ h.even⟩
  · intro h
    exact ⟨hquote.symm ▸ h.quote, heven.symm ▸ h.even⟩

/-- A character that is no quote closes nothing. -/
theorem not_closesAt_zero (hquote : c ≠ '"') : ¬ ClosesAt (c :: r) 0 := by
  intro h
  exact hquote (by simpa using h.quote)

/-- A backslash escapes the character behind it. -/
theorem not_closesAt_escaped : ¬ ClosesAt ('\\' :: c :: r) 1 := by
  intro h
  have heven := h.even
  simp [backslashesBefore] at heven

/-- The text of a string literal is cut behind the first quote that closes it. -/
theorem cutBehind_stringBody? (r : List Char) : CutBehind ClosesAt 1 r (stringBody? r) := by
  -- One case for each step: the end of the text, a quote, a backslash, any other character.
  fun_induction stringBody? r with
  | case1 =>
    refine .inr ⟨?_, rfl⟩
    rintro ⟨k, h⟩
    simpa using h.quote
  | case2 r => exact .of_front ⟨rfl, rfl⟩
  | case3 =>
    refine .inr ⟨?_, rfl⟩
    rintro ⟨k, h⟩
    cases k with
    | zero => exact not_closesAt_zero (by decide) h
    | succ k => simpa using h.quote
  | case4 e r _ ih =>
    -- The backslash and what it escapes end in no backslash, or in two.
    have heven : backslashesBefore ['\\', e] 2 % 2 = 0 := by
      by_cases he : e = '\\' <;> simp [backslashesBefore, he]
    refine ih.append ['\\', e] (fun m hm => ?_) fun m => closesAt_append heven
    have hm : m = 0 ∨ m = 1 := by
      simp only [List.length_cons, List.length_nil] at hm
      omega
    rcases hm with rfl | rfl
    · exact not_closesAt_zero (by decide)
    · exact not_closesAt_escaped
  | case5 c r hquote hescape ih =>
    have heven : backslashesBefore [c] 1 % 2 = 0 := by simp [backslashesBefore, hescape]
    refine ih.append [c] (fun m hm => ?_) fun m => closesAt_append heven
    obtain rfl : m = 0 := Nat.lt_one_iff.mp hm
    exact not_closesAt_zero hquote

/-- Something closes the literal exactly if some quote has an even number of backslashes in front of
it. -/
theorem closesString_iff : ClosesString r ↔ ∃ k, ClosesAt r k :=
  calc ClosesString r ↔ ¬ stringBody? r = none := by
        rw [stringBody?_eq_none_iff, Classical.not_not]
    _ ↔ ∃ k, ClosesAt r k := by rw [(cutBehind_stringBody? r).eq_none_iff, Classical.not_not]

/-- A string literal is read exactly if its body is. -/
theorem scanString_eq_ok_iff {s : Scanned} : scanString r = .ok s ↔
    ∃ taken, stringBody? r = some taken ∧ s = ⟨.stringLiteral, '"' :: taken.1, taken.2⟩ := by
  unfold scanString
  split
  · rename_i hbody
    simp [hbody]
  · rename_i body rest hbody
    simp [hbody, eq_comm]

/-- And it fails exactly if its body does, having passed over everything. -/
theorem scanString_eq_unfinished_iff {f : ScanFailure} : scanString r = .error f ↔
    stringBody? r = none ∧ f = ⟨.unfinished .string, '"' :: r⟩ := by
  unfold scanString
  split
  · rename_i hbody
    simp [hbody, eq_comm]
  · rename_i body rest hbody
    simp [hbody]

/-- A quote begins a string literal. It ends with the first quote behind that has an even number of
backslashes directly in front of it, and it is everything up to that quote, as it stands. Only
without such a quote it fails, at the end of the text. -/
theorem scanString_closes (r : List Char) :
    scanToken '"' r = scanString r ∧
      (∀ s, scanString r = .ok s ↔ ∃ k, FirstFrom (ClosesAt r) 0 k ∧
        s = ⟨.stringLiteral, '"' :: r.take (k + 1), r.drop (k + 1)⟩) ∧
      ∀ f, scanString r = .error f ↔
        (¬ ∃ k, ClosesAt r k) ∧ f = ⟨.unfinished .string, '"' :: r⟩ := by
  have hcut := cutBehind_stringBody? r
  refine ⟨rfl, fun s => ?_, fun f => ?_⟩
  · rw [scanString_eq_ok_iff]
    constructor
    · rintro ⟨taken, htaken, rfl⟩
      obtain ⟨k, hk, rfl⟩ := hcut.eq_some_iff.mp htaken
      exact ⟨k, hk, rfl⟩
    · rintro ⟨k, hk, rfl⟩
      exact ⟨_, hcut.eq_some_iff.mpr ⟨k, hk, rfl⟩, rfl⟩
  · rw [scanString_eq_unfinished_iff, hcut.eq_none_iff]

example : scanString ['\\', '\\', '"', '"'] =
    .ok ⟨.stringLiteral, ['"', '\\', '\\', '"'], ['"']⟩ := rfl

/-! ### Block comments -/

/-- At index `k` a star and a slash stand. -/
def MarkAt (r : List Char) (k : Nat) : Prop := ['*', '/'] <+: r.drop k

namespace Trivia

/-- Behind a front of the text the marks are those of the rest. -/
theorem markAt_append (front r : List Char) (k : Nat) :
    MarkAt (front ++ r) (front.length + k) ↔ MarkAt r k := by
  rw [MarkAt, List.drop_length_add_append, MarkAt]

/-- The body of a comment is cut behind the first closing mark, or it is the whole text. -/
theorem cutBehind_blockBody (r : List Char) :
    ∃ cut, CutBehind MarkAt 2 r cut ∧ blockBody r = cut.getD (r, []) := by
  fun_induction blockBody r with
  | case1 =>
    refine ⟨none, .inr ⟨?_, rfl⟩, rfl⟩
    rintro ⟨k, h⟩
    simp [MarkAt] at h
  | case2 c =>
    refine ⟨none, .inr ⟨?_, rfl⟩, rfl⟩
    rintro ⟨k, h⟩
    have hlength := h.length_le
    simp at hlength
    omega
  | case3 c d r hmark =>
    obtain ⟨rfl, rfl⟩ := hmark
    exact ⟨some (['*', '/'], r), .of_front ⟨r, rfl⟩, rfl⟩
  | case4 c d r hmark ih =>
    obtain ⟨cut, hcut, hbody⟩ := ih
    refine ⟨cut.map fun p => ([c] ++ p.1, p.2), ?_, ?_⟩
    · refine hcut.append [c] (fun m hm h => ?_) (markAt_append [c] (d :: r))
      -- A mark at the front would be the first two characters.
      obtain rfl : m = 0 := Nat.lt_one_iff.mp hm
      obtain ⟨rfl, htail⟩ := List.cons_prefix_cons.mp h
      obtain ⟨rfl, -⟩ := List.cons_prefix_cons.mp htail
      exact hmark ⟨rfl, rfl⟩
    · rw [hbody]
      cases cut <;> rfl

/-- A block comment is one piece of trivia, whatever stands in it. -/
theorem piece?_blockComment (r : List Char) :
    piece? ('/' :: '*' :: r) = some ('/' :: '*' :: (blockBody r).1, (blockBody r).2) := by
  rw [piece?, if_neg slash_not_blank, comment?, if_neg (by simp), if_pos ⟨rfl, rfl⟩]

end Trivia

/-- A read that begins with trivia is the read behind it. -/
theorem Lexer.readNext_of_piece? {cs gap rest : List Char} {p : Position}
    (h : Trivia.piece? cs = some (gap, rest)) :
    readNext ⟨cs, p⟩ = readNext ⟨rest, p.advanceAll gap⟩ := by
  rw [readNext, readNext, Trivia.split_of_piece?_eq_some h, Position.advanceAll_append]

/-- A block comment ends with the first closing mark behind its opening mark, and it is the whole
text if there is none; and it may be read one character at a time. The star of the opening mark is
gone by then, so a slash behind it closes nothing. Reading goes on behind the comment, at the place
where its characters end. -/
theorem blockBody_closes (r : List Char) :
    BlockState.run .scan r = Trivia.blockBody r ∧
      (∀ body rest, Trivia.blockBody r = (body, rest) ↔
        (∃ k, FirstFrom (MarkAt r) 0 k ∧ body = r.take (k + 2) ∧ rest = r.drop (k + 2)) ∨
          ((¬ ∃ k, MarkAt r k) ∧ body = r ∧ rest = [])) ∧
      Trivia.blockBody ('/' :: r) = ('/' :: (Trivia.blockBody r).1, (Trivia.blockBody r).2) ∧
      ∀ p, Lexer.readNext ⟨'/' :: '*' :: r, p⟩ =
        Lexer.readNext ⟨(Trivia.blockBody r).2,
          p.advanceAll ('/' :: '*' :: (Trivia.blockBody r).1)⟩ := by
  refine ⟨BlockState.run_scan r, fun body rest => ?_, Trivia.blockBody_cons_of_ne (by decide) r,
    fun p => Lexer.readNext_of_piece? (Trivia.piece?_blockComment r)⟩
  obtain ⟨cut, hcut, hbody⟩ := Trivia.cutBehind_blockBody r
  rw [hbody]
  -- With a mark the cut is behind the first one, and without a mark all is body.
  rcases hcut with ⟨k, hk, rfl⟩ | ⟨hnone, rfl⟩
  · constructor
    · intro h
      obtain ⟨rfl, rfl⟩ := Prod.mk.inj h
      exact .inl ⟨k, hk, rfl, rfl⟩
    · rintro (⟨l, hl, rfl, rfl⟩ | ⟨hnone, -, -⟩)
      · rw [hk.unique hl]
        rfl
      · exact absurd ⟨k, hk.holds⟩ hnone
  · constructor
    · intro h
      obtain ⟨rfl, rfl⟩ := Prod.mk.inj h
      exact .inr ⟨hnone, rfl, rfl⟩
    · rintro (⟨l, hl, -, -⟩ | ⟨-, rfl, rfl⟩)
      · exact absurd ⟨l, hl.holds⟩ hnone
      · rfl

end LooseC
