import LooseC.Text.Blank
import LooseC.Token.Number
import LooseC.Token.Operator
import LooseC.Token.Word

/-!
# Characters at which every token ends

Whether a token runs on is decided by the character behind it. `endsToken` holds of the
characters that no token runs on over, whatever the token: no part of a word, a directive or a
number, and no sign that extends an operator or makes a comment of a slash. A text `Stops` if
it begins with such a character or is empty.

White space ends every token (`endsToken_of_isBlank`). The white space characters are few, so
this is decided character by character (`blank_induction`).

A token that stands in front of one text also ends in front of any other text that begins with
the same character. `EndsLike behind rest` puts both together: a token that ends in front of
`behind` ends in front of `rest`.
-/

set_option autoImplicit false

namespace LooseC

/-- No token runs on over this character. -/
def endsToken (c : Char) : Bool :=
  !(isWordPart c || isDirectivePart c || c == '.' || (operatorForms? c).isSome)

/-- Whatever token stands in front of the text ends there. -/
def Stops (cs : List Char) : Prop := ∀ c ∈ cs.head?, endsToken c = true

/-- A token that ends in front of `behind` ends in front of `rest` too. -/
def EndsLike (behind rest : List Char) : Prop :=
  ∀ c ∈ rest.head?, endsToken c = true ∨ c ∈ behind.head?

/-- The text begins with white space. -/
def StartsBlank (cs : List Char) : Prop := ∃ c r, cs = c :: r ∧ isBlank c = true

/-! ### White space -/

/-- The code points of a table of ranges, one by one. -/
def codePoints (ranges : List (Nat × Nat)) : List Nat :=
  ranges.flatMap fun r => List.range' r.1 (r.2 + 1 - r.1)

/-- A character in one of the ranges is found in the list of them. -/
theorem toNat_mem_codePoints {ranges : List (Nat × Nat)} {c : Char}
    (h : inRanges ranges c = true) : c.toNat ∈ codePoints ranges := by
  obtain ⟨r, hr, hlow, hhigh⟩ := inRanges_iff.mp h
  refine List.mem_flatMap.mpr ⟨r, hr, ?_⟩
  rw [List.mem_range'_1]
  omega

/-- What holds of the white space characters one by one holds of white space. -/
theorem blank_induction {P : Char → Prop}
    (h : ∀ n ∈ codePoints blankRanges, P (Char.ofNat n)) {c : Char} (hc : isBlank c = true) :
    P c := by
  -- A character is its code point, and that is in the table.
  have hchar := h c.toNat (toNat_mem_codePoints hc)
  rwa [Char.ofNat_toNat] at hchar

/-- White space ends every token. -/
theorem endsToken_of_isBlank {c : Char} (h : isBlank c = true) : endsToken c = true :=
  blank_induction (P := fun c => endsToken c = true) (by decide +kernel) h

/-- A line break is white space. -/
theorem isBlank_newline : isBlank '\n' = true := by decide

/-- A text that begins with white space stops. -/
theorem StartsBlank.stops {cs : List Char} (h : StartsBlank cs) : Stops cs := by
  obtain ⟨c, r, rfl, hc⟩ := h
  intro d hd
  cases hd
  exact endsToken_of_isBlank hc

/-- At the end of the input every token ends. -/
theorem stops_nil : Stops [] := by
  intro c hc
  cases hc

/-! ### The characters a token may run on over -/

/-- No character of this class ends every token. -/
def RunsOver (p : Char → Bool) : Prop := ∀ c, p c = true → endsToken c = false

/-- Words run on over letters, digits and underscores. -/
theorem runsOver_isWordPart : RunsOver isWordPart := by
  intro c h
  simp [endsToken, h]

/-- Directives run on over letters and hashes. -/
theorem runsOver_isDirectivePart : RunsOver isDirectivePart := by
  intro c h
  simp [endsToken, h]

/-- Numbers run on over a point. -/
theorem runsOver_point : RunsOver (· == '.') := by
  intro c h
  simp [endsToken, eq_of_beq h]

/-- Hexadecimal digits are ASCII characters, which are few enough to be tried one by one. -/
theorem forall_isHexDigit {P : Char → Prop}
    (hall : ∀ n < 128, isHexDigit (Char.ofNat n) = true → P (Char.ofNat n)) {c : Char}
    (h : isHexDigit c = true) : P c := by
  -- The last of the three ranges of digits ends below 128.
  have hascii : c.toNat < 128 := by
    have hrange := h
    simp only [isHexDigit, Char.isDigit, Bool.or_eq_true, Bool.and_eq_true, decide_eq_true_eq,
      Char.le_def, UInt32.le_iff_toNat_le, ge_iff_le] at hrange
    show c.val.toNat < 128
    rcases hrange with (⟨-, h⟩ | ⟨-, h⟩) | ⟨-, h⟩ <;> exact Nat.lt_of_le_of_lt h (by decide)
  have hc := hall c.toNat hascii
  rw [Char.ofNat_toNat] at hc
  exact hc h

/-- A decimal digit is a hexadecimal one. -/
theorem isHexDigit_of_isDigit {c : Char} (h : c.isDigit = true) : isHexDigit c = true := by
  simp [isHexDigit, h]

/-- Each hexadecimal digit is part of a word. -/
theorem runsOver_isHexDigit : RunsOver isHexDigit := by
  intro c h
  refine forall_isHexDigit (P := fun c => endsToken c = false) ?_ h
  decide +kernel

/-- Numbers run on over digits. -/
theorem runsOver_isDigit : RunsOver Char.isDigit :=
  fun c h => runsOver_isHexDigit c (isHexDigit_of_isDigit h)

/-- The mark of a hexadecimal literal is a letter, over which words run on. -/
theorem runsOver_isHexMark : RunsOver isHexMark := by
  intro c h
  simp only [isHexMark, Bool.or_eq_true, beq_iff_eq] at h
  rcases h with rfl | rfl <;> decide +kernel

/-- So is the suffix of a floating-point literal. -/
theorem runsOver_isFloatSuffix : RunsOver isFloatSuffix := by
  intro c h
  simp only [isFloatSuffix, Bool.or_eq_true, beq_iff_eq] at h
  rcases h with rfl | rfl <;> decide +kernel

/-- A sign that begins an operator may also extend one. -/
theorem endsToken_eq_false_of_operatorForms? {c : Char} (h : operatorForms? c ≠ none) :
    endsToken c = false := by
  simp [endsToken, Option.isSome_iff_ne_none.mpr h]

/-! ### Texts in front of which a token ends -/

/-- In front of a text that stops, a token ends whatever stood behind it before. -/
theorem Stops.endsLike {rest : List Char} (h : Stops rest) (behind : List Char) :
    EndsLike behind rest :=
  fun c hc => .inl (h c hc)

/-- A text that stops may follow: a token that ended before ends still. -/
theorem Stops.endsLike_append {rest : List Char} (h : Stops rest) (behind : List Char) :
    EndsLike behind (behind ++ rest) := by
  intro c hc
  cases behind with
  | nil => exact .inl (h c hc)
  | cons d behind => exact .inr hc

namespace EndsLike

variable {behind rest : List Char} (h : EndsLike behind rest)
include h

/-- One part of a token ends in front of the next part as it did before. -/
theorem append (part : List Char) : EndsLike (part ++ behind) (part ++ rest) := by
  intro c hc
  cases part with
  | nil => exact h c hc
  | cons d part => exact .inr hc

/-- A class that tokens may run on over, and that the first text does not begin with, does not
begin the second. -/
theorem head {p : Char → Bool} (hp : RunsOver p)
    (hbehind : ∀ c ∈ behind.head?, p c = false) : ∀ c ∈ rest.head?, p c = false := by
  intro c hc
  rcases h c hc with hends | hsame
  · rw [← Bool.not_eq_true]
    intro hpc
    rw [hp c hpc] at hends
    cases hends
  · exact hbehind c hsame

end EndsLike

/-! ### Runs of characters -/

section
variable {p : Char → Bool} (r : List Char) {rest : List Char}

/-- The text behind a run does not go on with it. -/
theorem head?_dropWhile_eq_false : ∀ c ∈ (r.dropWhile p).head?, p c = false := by
  intro c hc
  have h := List.head?_dropWhile_not p r
  rw [Option.mem_def.mp hc] at h
  simpa using h

variable (hp : RunsOver p) (h : EndsLike (r.dropWhile p) rest)
include hp h

/-- A run in front of a text that ends it is the whole run. -/
theorem takeWhile_append_of_endsLike : (r.takeWhile p ++ rest).takeWhile p = r.takeWhile p := by
  have hrest := h.head hp (head?_dropWhile_eq_false r)
  -- All of the run passes the test, and the first character behind it does not.
  rw [List.takeWhile_append_of_pos (List.all_eq_true.mp List.all_takeWhile)]
  cases rest with
  | nil => rw [List.takeWhile_nil, List.append_nil]
  | cons c rest =>
    rw [List.takeWhile_cons_of_neg (by rw [hrest c rfl]; decide), List.append_nil]

/-- What is left behind such a run is the text put there. -/
theorem dropWhile_append_of_endsLike : (r.takeWhile p ++ rest).dropWhile p = rest := by
  have hrest := h.head hp (head?_dropWhile_eq_false r)
  rw [List.dropWhile_append_of_pos (List.all_eq_true.mp List.all_takeWhile)]
  cases rest with
  | nil => rfl
  | cons c rest => rw [List.dropWhile_cons_of_neg (by rw [hrest c rfl]; decide)]
end

end LooseC
