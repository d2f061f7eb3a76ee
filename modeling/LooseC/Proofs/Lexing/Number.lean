import LooseC.Proofs.Lexing.Machine

/-!
# Numeric literals are longest matches

The texts of numbers are given here by a grammar (`NumberText`), with no reader in it: decimal texts
are digits, perhaps a fraction, perhaps a suffix (`DecimalText`), and hexadecimal texts are a marked
zero and digits (`HexText`). `NumberKind` says which kind of token such a text is.

The two forms overlap at the front, and so do their parts: an `f` is a digit in one form and ends
the other, and a zero may be a whole literal or the front of a mark. `scanNumber_longest` says that
the reader is not misled: of all fronts of the text that are numbers it takes the longest.

The proof goes part by part. A run of one class of characters takes all of that class, so whatever a
number goes on with behind the run has to stand behind the whole run (`run_append_prefix`).
-/

set_option autoImplicit false

namespace LooseC

variable {d : Char} {r cs text digits fraction suffix : List Char}

/-! ### The grammar of numbers -/

/-- A point and any number of digits, or nothing. -/
inductive FractionText : List Char → Prop where
  | none : FractionText []
  | point {digits : List Char} (hdigits : ∀ c ∈ digits, c.isDigit = true) :
      FractionText ('.' :: digits)

/-- One `f` or `F`, or nothing. -/
inductive SuffixText : List Char → Prop where
  | none : SuffixText []
  | letter {c : Char} (hletter : isFloatSuffix c = true) : SuffixText [c]

/-- One digit or more, and then perhaps a fraction, and then perhaps a suffix. -/
inductive DecimalText : List Char → Prop where
  | parts {digits fraction suffix : List Char} (hne : digits ≠ [])
      (hdigits : ∀ c ∈ digits, c.isDigit = true) (hfraction : FractionText fraction)
      (hsuffix : SuffixText suffix) : DecimalText (digits ++ (fraction ++ suffix))

/-- A zero, an `x` or `X`, and any number of hexadecimal digits. -/
inductive HexText : List Char → Prop where
  | marked {mark : Char} {digits : List Char} (hmark : isHexMark mark = true)
      (hdigits : ∀ c ∈ digits, isHexDigit c = true) : HexText ('0' :: mark :: digits)

/-- The texts of numbers. -/
def NumberText (text : List Char) : Prop := DecimalText text ∨ HexText text

/-- The text ends in `f` or `F`. -/
def Suffixed (text : List Char) : Prop := ∃ c ∈ text.getLast?, isFloatSuffix c = true

/-- The kind of token that the text of a number is. In a hexadecimal text neither a point nor a
suffix can be meant. -/
inductive NumberKind (text : List Char) : TokenKind → Prop where
  | hex (hhex : HexText text) : NumberKind text .intLiteral
  | int (hhex : ¬ HexText text) (hpoint : '.' ∉ text) (hsuffix : ¬ Suffixed text) :
      NumberKind text .intLiteral
  | float (hhex : ¬ HexText text) (hsuffix : Suffixed text) : NumberKind text .floatLiteral
  | double (hhex : ¬ HexText text) (hpoint : '.' ∈ text) (hsuffix : ¬ Suffixed text) :
      NumberKind text .doubleLiteral

/-- The longest front of `cs` with the property `P`. -/
structure LongestFront (P : List Char → Prop) (cs text : List Char) : Prop where
  front : text <+: cs
  holds : P text
  longest : ∀ other, other <+: cs → P other → other.length ≤ text.length

/-! ### Runs of one class -/

/-- A run of one class, and a tail that does not begin with that class, at the front of a text. The
run may stop early only if the tail is empty, so both lie in the whole run and whatever holds every
tail behind it. -/
theorem run_append_prefix {p : Char → Bool} {run tail longest : List Char}
    (hrun : ∀ c ∈ run, p c = true) (htail : ∀ c ∈ tail.head?, p c = false)
    (h : run ++ tail <+: cs) (hlongest : tail <+: cs.dropWhile p → tail <+: longest) :
    run ++ tail <+: cs.takeWhile p ++ longest := by
  obtain ⟨behind, rfl⟩ := h
  rw [List.append_assoc, List.takeWhile_append_of_pos hrun, List.append_assoc,
    List.prefix_append_right_inj]
  rw [List.append_assoc, List.dropWhile_append_of_pos hrun] at hlongest
  cases tail with
  | nil => exact List.nil_prefix
  | cons c tail =>
    have hc : ¬ p c = true := by simp [htail c rfl]
    rw [List.cons_append, List.dropWhile_cons_of_neg hc] at hlongest
    rw [List.cons_append, List.takeWhile_cons_of_neg hc]
    exact hlongest (List.prefix_append (c :: tail) behind)

/-- A run of one class alone lies in the whole run. -/
theorem run_prefix {p : Char → Bool} {run : List Char} (hrun : ∀ c ∈ run, p c = true)
    (h : run <+: cs) : run <+: cs.takeWhile p := by
  have happend : run ++ [] <+: cs.takeWhile p ++ [] :=
    run_append_prefix hrun (by simp) (by simpa using h) fun _ => List.nil_prefix
  simpa using happend

/-! ### The parts of a decimal text -/

/-- The letter of a suffix is no decimal digit. -/
theorem not_isDigit_of_isFloatSuffix {c : Char} (h : isFloatSuffix c = true) :
    c.isDigit = false := by
  simp only [isFloatSuffix, Bool.or_eq_true, beq_iff_eq] at h
  rcases h with rfl | rfl <;> decide

/-- A suffix does not begin with a digit. -/
theorem SuffixText.head_not_isDigit (h : SuffixText suffix) :
    ∀ c ∈ suffix.head?, c.isDigit = false := by
  intro c hc
  cases h with
  | none => cases hc
  | letter hletter =>
    cases hc
    exact not_isDigit_of_isFloatSuffix hletter

/-- What follows the digits of a decimal text does not begin with a digit. -/
theorem FractionText.head_not_isDigit (h : FractionText fraction) (hsuffix : SuffixText suffix) :
    ∀ c ∈ (fraction ++ suffix).head?, c.isDigit = false := by
  intro c hc
  cases h with
  | none => exact hsuffix.head_not_isDigit c hc
  | point =>
    cases hc
    decide

/-- What is read as a suffix is one. -/
theorem suffixText_splitFloatSuffix (cs : List Char) : SuffixText (splitFloatSuffix cs).1 := by
  unfold splitFloatSuffix
  split
  · exact .none
  · split
    · rename_i hletter
      exact .letter hletter
    · exact .none

/-- What is read as a fraction is one. -/
theorem fractionText_splitFraction (cs : List Char) : FractionText (splitFraction cs).1 := by
  unfold splitFraction
  split
  · exact .none
  · split
    · rename_i hpoint
      subst hpoint
      exact .point (List.all_eq_true.mp List.all_takeWhile)
    · exact .none

/-- The reader of suffixes takes any suffix that stands at the front. -/
theorem SuffixText.prefix_splitFloatSuffix (h : SuffixText suffix) (hfront : suffix <+: cs) :
    suffix <+: (splitFloatSuffix cs).1 := by
  cases h with
  | none => exact List.nil_prefix
  | letter hletter =>
    obtain ⟨behind, rfl⟩ := hfront
    simp [splitFloatSuffix, hletter]

/-- The readers of fractions and suffixes, one behind the other, take any fraction and suffix that
stand at the front. -/
theorem FractionText.prefix_splitFraction (h : FractionText fraction) (hsuffix : SuffixText suffix)
    (hfront : fraction ++ suffix <+: cs) :
    fraction ++ suffix <+: (splitFraction cs).1 ++ (splitFloatSuffix (splitFraction cs).2).1 := by
  cases h with
  | none =>
    rw [List.nil_append] at hfront ⊢
    cases hsuffix with
    | none => exact List.nil_prefix
    | @letter c hletter =>
      -- A suffix is no point, so no fraction is read in front of it.
      have hpoint : c ≠ '.' := by
        rintro rfl
        cases hletter
      obtain ⟨behind, rfl⟩ := hfront
      simp [splitFraction, hpoint, splitFloatSuffix, hletter]
  | point hdigits =>
    obtain ⟨behind, rfl⟩ := hfront
    simp only [List.cons_append, splitFraction, if_pos, List.append_assoc]
    rw [List.cons_prefix_cons]
    refine ⟨rfl, run_append_prefix hdigits hsuffix.head_not_isDigit ?_ ?_⟩
    · rw [← List.append_assoc]
      exact List.prefix_append _ behind
    · exact hsuffix.prefix_splitFloatSuffix

/-! ### Decimal literals -/

/-- The lexeme of a decimal literal: the run of digits, the fraction and the suffix. -/
theorem lexeme_scanDecimal (hd : d.isDigit = true) (r : List Char) :
    (scanDecimal d r).lexeme = (d :: r).takeWhile Char.isDigit ++
      ((splitFraction (r.dropWhile Char.isDigit)).1 ++
        (splitFloatSuffix (splitFraction (r.dropWhile Char.isDigit)).2).1) := by
  rw [List.takeWhile_cons_of_pos hd, List.cons_append, ← List.append_assoc]
  rfl

/-- What is read as a decimal literal is a decimal text. -/
theorem decimalText_scanDecimal (hd : d.isDigit = true) (r : List Char) :
    DecimalText (scanDecimal d r).lexeme := by
  rw [lexeme_scanDecimal hd]
  refine .parts ?_ (List.all_eq_true.mp List.all_takeWhile) (fractionText_splitFraction _)
    (suffixText_splitFloatSuffix _)
  rw [List.takeWhile_cons_of_pos hd]
  exact List.cons_ne_nil _ _

/-- The reader of decimal literals takes any decimal text that stands at the front. -/
theorem DecimalText.prefix_scanDecimal (h : DecimalText text) (hd : d.isDigit = true)
    (hfront : text <+: d :: r) : text <+: (scanDecimal d r).lexeme := by
  rw [lexeme_scanDecimal hd]
  cases h with
  | parts _ hdigits hfraction hsuffix =>
    -- The digits are a run, and a fraction or suffix behind it has to stand behind the whole run.
    refine run_append_prefix hdigits (hfraction.head_not_isDigit hsuffix) hfront ?_
    rw [List.dropWhile_cons_of_pos hd]
    exact hfraction.prefix_splitFraction hsuffix

/-- What stands in front of the suffix are digits and perhaps a point. -/
theorem FractionText.eq_point_or_isDigit (h : FractionText fraction)
    (hdigits : ∀ c ∈ digits, c.isDigit = true) :
    ∀ c ∈ digits ++ fraction, c = '.' ∨ c.isDigit = true := by
  intro c hc
  rcases List.mem_append.mp hc with hc | hc
  · exact .inr (hdigits c hc)
  · cases h with
    | none => cases hc
    | point hafter =>
      rcases List.mem_cons.mp hc with rfl | hc
      · exact .inl rfl
      · exact .inr (hafter c hc)

/-- Only a suffix makes a decimal text end in `f` or `F`. -/
theorem suffixed_iff (hdigits : ∀ c ∈ digits, c.isDigit = true)
    (hfraction : FractionText fraction) (hsuffix : SuffixText suffix) :
    Suffixed (digits ++ (fraction ++ suffix)) ↔ suffix ≠ [] := by
  rw [← List.append_assoc]
  -- Without a suffix the last character is a digit or the point.
  cases hsuffix with
  | none =>
    constructor
    · rintro ⟨c, hc, hletter⟩
      rw [List.append_nil] at hc
      rcases hfraction.eq_point_or_isDigit hdigits c (List.mem_of_getLast? hc) with rfl | hdigit
      · cases hletter
      · rw [not_isDigit_of_isFloatSuffix hletter] at hdigit
        cases hdigit
    · intro h
      exact absurd rfl h
  | @letter c hletter =>
    constructor
    · intro _
      exact List.cons_ne_nil c []
    · intro _
      exact ⟨c, by simp, hletter⟩

/-- Only a fraction holds a point. -/
theorem point_mem_iff (hdigits : ∀ c ∈ digits, c.isDigit = true)
    (hfraction : FractionText fraction) (hsuffix : SuffixText suffix) :
    '.' ∈ digits ++ (fraction ++ suffix) ↔ fraction ≠ [] := by
  -- Neither the digits in front nor the suffix hold a point.
  have hdigit : '.' ∉ digits := by
    intro h
    cases hdigits '.' h
  have hletter : '.' ∉ suffix := by
    intro h
    cases hsuffix with
    | none => cases h
    | letter hletter =>
      rw [← List.mem_singleton.mp h] at hletter
      cases hletter
  cases hfraction with
  | none => simp [hdigit, hletter]
  | point => simp

/-- Its kind is told by a suffix first and by a point second. -/
theorem numberKind_scanDecimal (hd : d.isDigit = true)
    (hhex : ¬ HexText (scanDecimal d r).lexeme) :
    NumberKind (scanDecimal d r).lexeme (scanDecimal d r).kind := by
  have hdigits : ∀ c ∈ (d :: r).takeWhile Char.isDigit, c.isDigit = true :=
    List.all_eq_true.mp List.all_takeWhile
  have hfraction := fractionText_splitFraction (r.dropWhile Char.isDigit)
  have hsuffix := suffixText_splitFloatSuffix (splitFraction (r.dropWhile Char.isDigit)).2
  have hsuffixed := suffixed_iff hdigits hfraction hsuffix
  have hpoint := point_mem_iff hdigits hfraction hsuffix
  rw [← lexeme_scanDecimal hd] at hsuffixed hpoint
  show NumberKind _ (decimalKind _ _)
  -- The reader asks in the same order as the kinds of texts are told apart.
  unfold decimalKind
  split
  · rename_i hne
    exact .float hhex (hsuffixed.mpr hne)
  · rename_i hnil
    have hplain : ¬ Suffixed (scanDecimal d r).lexeme := fun h => hnil (hsuffixed.mp h)
    split
    · rename_i hne
      exact .double hhex (hpoint.mpr hne) hplain
    · rename_i hnone
      exact .int hhex (fun h => hnone (hpoint.mp h)) hplain

/-! ### Hexadecimal literals -/

/-- A text with a hexadecimal text at its front is marked as one. -/
theorem HexText.hexMarked (h : HexText text) (hfront : text <+: d :: r) : HexMarked d r := by
  cases h with
  | @marked mark digits hmark =>
    obtain ⟨hzero, behind, rfl⟩ := List.cons_prefix_cons.mp hfront
    exact ⟨hzero.symm, mark, rfl, hmark⟩

section
variable {x : Char} (hmark : isHexMark x = true)
include hmark

/-- Behind a mark all hexadecimal digits are taken. -/
theorem scanNumber_of_hexMark (r : List Char) : scanNumber '0' (x :: r) =
    ⟨.intLiteral, '0' :: x :: r.takeWhile isHexDigit, r.dropWhile isHexDigit⟩ := by
  rw [scanNumber, if_pos ⟨rfl, hmark⟩]

/-- In front of a mark the zero alone would be the decimal literal. -/
theorem lexeme_scanDecimal_of_hexMark (r : List Char) :
    (scanDecimal '0' (x :: r)).lexeme = ['0'] := by
  simp only [isHexMark, Bool.or_eq_true, beq_iff_eq] at hmark
  rcases hmark with rfl | rfl <;> rfl

/-- What is read behind a mark is a hexadecimal text. -/
theorem hexText_scanNumber (r : List Char) : HexText (scanNumber '0' (x :: r)).lexeme := by
  rw [scanNumber_of_hexMark hmark]
  exact .marked hmark (List.all_eq_true.mp List.all_takeWhile)

/-- Behind a mark the reader takes any text of a number that stands at the front: the digits of a
hexadecimal one are a run, and a decimal one ends in front of the mark. -/
theorem NumberText.prefix_of_hexMark (h : NumberText text) (hfront : text <+: '0' :: x :: r) :
    text <+: (scanNumber '0' (x :: r)).lexeme := by
  rw [scanNumber_of_hexMark hmark]
  rcases h with hdecimal | hhex
  · have hzero := hdecimal.prefix_scanDecimal (by decide) hfront
    rw [lexeme_scanDecimal_of_hexMark hmark] at hzero
    exact hzero.trans (List.prefix_append ['0'] _)
  · cases hhex with
    | marked _ hdigits =>
      obtain ⟨-, htail⟩ := List.cons_prefix_cons.mp hfront
      obtain ⟨rfl, hrun⟩ := List.cons_prefix_cons.mp htail
      rw [List.cons_prefix_cons, List.cons_prefix_cons]
      exact ⟨rfl, rfl, run_prefix hdigits hrun⟩
end

/-! ### All literals -/

/-- A digit begins a number and no other token. -/
theorem scanToken_of_isDigit (hd : d.isDigit = true) (r : List Char) :
    scanToken d r = .ok (scanNumber d r) := by
  have hother : markKind? d = none ∧ (operatorForms? d).isNone = true ∧ d ≠ '#' := by
    refine forall_isHexDigit (P := fun d => d.isDigit = true → markKind? d = none ∧
      (operatorForms? d).isNone = true ∧ d ≠ '#') ?_ (isHexDigit_of_isDigit hd) hd
    decide +kernel
  obtain ⟨hmark, hforms, hhash⟩ := hother
  rw [Option.isNone_iff_eq_none] at hforms
  simp [scanToken, hmark, hforms, hhash, hd]

/-- What the reader takes is the text of a number, of the kind that the text asks for. -/
theorem numberText_scanNumber (hd : d.isDigit = true) (r : List Char) :
    NumberText (scanNumber d r).lexeme ∧
      NumberKind (scanNumber d r).lexeme (scanNumber d r).kind := by
  by_cases hmarked : HexMarked d r
  · obtain ⟨x, behind, rfl, rfl, hmark⟩ := hmarked.exists_eq
    have hhex := hexText_scanNumber hmark behind
    have hkind : (scanNumber '0' (x :: behind)).kind = .intLiteral := by
      rw [scanNumber_of_hexMark hmark]
    rw [hkind]
    exact ⟨.inr hhex, .hex hhex⟩
  · rw [scanNumber_of_not_hexMarked hmarked]
    -- A decimal literal that read as a hexadecimal text would begin with a mark.
    have hhex : ¬ HexText (scanDecimal d r).lexeme := by
      intro h
      exact hmarked (h.hexMarked ⟨_, (scanDecimal_splits d r).append⟩)
    exact ⟨.inl (decimalText_scanDecimal hd r), numberKind_scanDecimal hd hhex⟩

/-- The reader takes any text of a number that stands at the front. -/
theorem NumberText.prefix_scanNumber (h : NumberText text) (hd : d.isDigit = true)
    (hfront : text <+: d :: r) : text <+: (scanNumber d r).lexeme := by
  by_cases hmarked : HexMarked d r
  · obtain ⟨x, behind, rfl, rfl, hmark⟩ := hmarked.exists_eq
    exact h.prefix_of_hexMark hmark hfront
  · rw [scanNumber_of_not_hexMarked hmarked]
    rcases h with hdecimal | hhex
    · exact hdecimal.prefix_scanDecimal hd hfront
    · exact absurd (hhex.hexMarked hfront) hmarked

/-- A number is the longest match of its grammar. What begins with a digit is read as a number, and
may be read one character at a time; of all fronts of the text that the grammar allows the reader
takes the longest, and leaves the rest; and the kind is that of the text which was taken. -/
theorem scanNumber_longest (hd : d.isDigit = true) (r : List Char) :
    scanToken d r = .ok (scanNumber d r) ∧ NumberState.run .digits [d] r = scanNumber d r ∧
      LongestFront NumberText (d :: r) (scanNumber d r).lexeme ∧
      (scanNumber d r).lexeme ++ (scanNumber d r).rest = d :: r ∧
      NumberKind (scanNumber d r).lexeme (scanNumber d r).kind := by
  have happend := (scanNumber_splits d r).append
  obtain ⟨hnumber, hkind⟩ := numberText_scanNumber hd r
  have hlongest : LongestFront NumberText (d :: r) (scanNumber d r).lexeme :=
    { front := ⟨(scanNumber d r).rest, happend⟩
      holds := hnumber
      longest := fun other hfront hother => (hother.prefix_scanNumber hd hfront).length_le }
  exact ⟨scanToken_of_isDigit hd r, NumberState.run_digits d r, hlongest, happend, hkind⟩

/-- In `0xfF.5` the letters are digits, and the literal ends in front of the point. -/
theorem scanNumber_longest_hex :
    LongestFront NumberText ['0', 'x', 'f', 'F', '.', '5'] ['0', 'x', 'f', 'F'] ∧
      NumberKind ['0', 'x', 'f', 'F'] .intLiteral := by
  obtain ⟨-, -, hlongest, -, hkind⟩ :=
    scanNumber_longest (d := '0') (by decide) ['x', 'f', 'F', '.', '5']
  exact ⟨hlongest, hkind⟩

end LooseC
