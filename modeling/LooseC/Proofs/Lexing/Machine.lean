import LooseC.Proofs.Lexing.Rescan
import LooseC.Token.Trivia

/-!
# Reading one character at a time

The readers of numbers and of block comments take whole runs of characters, or look at two
characters at once. Here both are machines. A machine is given one character at a time, and what it
does with it depends on a state and on nothing further ahead.

* `NumberState.run_digits` says that the machine for numbers reads what `scanNumber` reads. Each
  state has a lemma that says what is read from there on.
* `BlockState.run_scan` says that the machine for block comments reads what `Trivia.blockBody`
  reads. What the state `star` means is the invariant of its induction: the character before was a
  star.
-/

set_option autoImplicit false

namespace LooseC

variable {c d : Char} {r text : List Char}

/-! ### Numbers -/

/-- The part of a number that is being read. -/
inductive NumberState where
  /-- The digits in front, or the zero of a mark. -/
  | digits
  /-- The hexadecimal digits behind a mark. -/
  | hex
  /-- The digits behind a point. -/
  | point
  /-- A suffix has been read, so the number is at its end. -/
  | suffix

namespace NumberState

/-- The kind of a number that ends in this part. -/
def kind : NumberState → TokenKind
  | .digits => .intLiteral
  | .hex => .intLiteral
  | .point => .doubleLiteral
  | .suffix => .floatLiteral

/-- The part that the next character belongs to, or nothing if the number ends in front of it. A
mark may only stand behind one zero, so this depends on the text that has been read. -/
def next? (text : List Char) : NumberState → Char → Option NumberState
  | .digits, c =>
    if c.isDigit then some .digits
    else if text = ['0'] ∧ isHexMark c then some .hex
    else if c = '.' then some .point
    else if isFloatSuffix c then some .suffix
    else none
  | .hex, c => if isHexDigit c then some .hex else none
  | .point, c =>
    if c.isDigit then some .point
    else if isFloatSuffix c then some .suffix
    else none
  | .suffix, _ => none

/-- Reads on to the end of the number, behind the text that has been read. -/
def run (state : NumberState) (text : List Char) : List Char → Scanned
  | [] => ⟨state.kind, text, []⟩
  | c :: r =>
    match state.next? text c with
    | some later => later.run (text ++ [c]) r
    | none => ⟨state.kind, text, c :: r⟩

variable {state later : NumberState} {p : Char → Bool}

/-- A character that belongs to the number is taken. -/
theorem run_of_next?_eq_some (h : state.next? text c = some later) (r : List Char) :
    state.run text (c :: r) = later.run (text ++ [c]) r := by
  rw [run, h]

/-- The number ends in front of a character that belongs to no part of it, or at the end. -/
theorem run_of_next?_eq_none (h : ∀ c ∈ r.head?, state.next? text c = none) :
    state.run text r = ⟨state.kind, text, r⟩ := by
  cases r with
  | nil => rfl
  | cons c r => rw [run, h c rfl]

/-- A state that stays the same over one class of characters reads a whole run of them. -/
theorem run_of_stays (hstay : ∀ text c, p c = true → state.next? text c = some state)
    (text r : List Char) :
    state.run text r = state.run (text ++ r.takeWhile p) (r.dropWhile p) := by
  -- The text read so far grows with each character of the run.
  induction r generalizing text with
  | nil => rw [List.takeWhile_nil, List.append_nil, List.dropWhile_nil]
  | cons c r ih =>
    by_cases hc : p c = true
    · rw [run_of_next?_eq_some (hstay text c hc), ih, List.takeWhile_cons_of_pos hc,
        List.dropWhile_cons_of_pos hc, List.append_assoc, List.singleton_append]
    · rw [List.takeWhile_cons_of_neg hc, List.dropWhile_cons_of_neg hc, List.append_nil]

/-- Behind a suffix nothing is read. -/
theorem run_suffix (text r : List Char) : run .suffix text r = ⟨.floatLiteral, text, r⟩ :=
  run_of_next?_eq_none fun _ _ => rfl

/-- Behind a mark one run of digits is read. -/
theorem run_hex (text r : List Char) : run .hex text r =
    ⟨.intLiteral, text ++ r.takeWhile isHexDigit, r.dropWhile isHexDigit⟩ := by
  have hstay : ∀ text c, isHexDigit c = true → next? text .hex c = some .hex :=
    fun _ _ hc => if_pos hc
  rw [run_of_stays hstay]
  refine run_of_next?_eq_none fun c hc => ?_
  simp [next?, head?_dropWhile_eq_false r c hc]

/-- Behind the digits of a fraction only a suffix is read. -/
theorem run_point_of_head (hdigit : ∀ c ∈ r.head?, c.isDigit = false) :
    run .point text r = ⟨if (splitFloatSuffix r).1 ≠ [] then .floatLiteral else .doubleLiteral,
      text ++ (splitFloatSuffix r).1, (splitFloatSuffix r).2⟩ := by
  cases r with
  | nil => simp [run, kind, splitFloatSuffix]
  | cons c r =>
    have hc : c.isDigit = false := hdigit c rfl
    by_cases hsuffix : isFloatSuffix c = true
    · have hnext : next? text .point c = some .suffix := by simp [next?, hc, hsuffix]
      rw [run_of_next?_eq_some hnext, run_suffix]
      simp [splitFloatSuffix, hsuffix]
    · have hnext : next? text .point c = none := by simp [next?, hc, hsuffix]
      rw [run, hnext]
      simp [kind, splitFloatSuffix, hsuffix]

/-- Behind a point a run of digits is read and then perhaps a suffix. -/
theorem run_point (text r : List Char) : run .point text r =
    ⟨if (splitFloatSuffix (r.dropWhile Char.isDigit)).1 ≠ [] then .floatLiteral
      else .doubleLiteral,
      text ++ r.takeWhile Char.isDigit ++ (splitFloatSuffix (r.dropWhile Char.isDigit)).1,
      (splitFloatSuffix (r.dropWhile Char.isDigit)).2⟩ := by
  have hstay : ∀ text c, c.isDigit = true → next? text .point c = some .point :=
    fun _ _ hc => if_pos hc
  rw [run_of_stays hstay]
  exact run_point_of_head (head?_dropWhile_eq_false r)

/-- Behind the digits in front, if no mark stands there, a fraction and a suffix are read. -/
theorem run_digits_of_head (hdigit : ∀ c ∈ r.head?, c.isDigit = false)
    (hmark : ∀ c ∈ r.head?, ¬ (text = ['0'] ∧ isHexMark c = true)) :
    run .digits text r =
      ⟨decimalKind (splitFraction r).1 (splitFloatSuffix (splitFraction r).2).1,
        text ++ (splitFraction r).1 ++ (splitFloatSuffix (splitFraction r).2).1,
        (splitFloatSuffix (splitFraction r).2).2⟩ := by
  cases r with
  | nil => simp [run, kind, splitFraction, splitFloatSuffix, decimalKind]
  | cons c r =>
    have hc : c.isDigit = false := hdigit c rfl
    have hnext : next? text .digits c = if c = '.' then some .point
        else if isFloatSuffix c then some .suffix else none := by
      rw [next?, hc, if_neg Bool.false_ne_true, if_neg (hmark c rfl)]
    -- A point leads to a fraction, a suffix to the end of the number, and anything else ends it at
    -- once.
    by_cases hpoint : c = '.'
    · rw [if_pos hpoint] at hnext
      rw [run_of_next?_eq_some hnext, run_point]
      simp [splitFraction, hpoint, decimalKind]
    · rw [if_neg hpoint] at hnext
      have hfraction : splitFraction (c :: r) = ([], c :: r) := if_neg hpoint
      rw [hfraction]
      by_cases hsuffix : isFloatSuffix c = true
      · rw [if_pos hsuffix] at hnext
        rw [run_of_next?_eq_some hnext, run_suffix]
        simp [splitFloatSuffix, hsuffix, decimalKind]
      · rw [if_neg hsuffix] at hnext
        rw [run, hnext]
        simp [kind, splitFloatSuffix, hsuffix, decimalKind]

end NumberState

/-- A marked text is a zero and a mark and what stands behind. -/
theorem HexMarked.exists_eq (h : HexMarked d r) :
    ∃ x behind, d = '0' ∧ r = x :: behind ∧ isHexMark x = true := by
  obtain ⟨hd, x, hx, hmark⟩ := h
  cases r with
  | nil => cases hx
  | cons y behind =>
    cases hx
    exact ⟨x, behind, hd, rfl, hmark⟩

/-- The machine reads the same numbers as the reader of runs. -/
theorem NumberState.run_digits (d : Char) (r : List Char) :
    run .digits [d] r = scanNumber d r := by
  by_cases hmarked : HexMarked d r
  · obtain ⟨x, behind, rfl, rfl, hmark⟩ := hmarked.exists_eq
    have hdigit : x.isDigit = false := by
      simp only [isHexMark, Bool.or_eq_true, beq_iff_eq] at hmark
      rcases hmark with rfl | rfl <;> decide
    -- A single zero has been read, so the mark is one.
    have hnext : next? ['0'] .digits x = some .hex := by simp [next?, hdigit, hmark]
    rw [run_of_next?_eq_some hnext, run_hex, scanNumber, if_pos ⟨rfl, hmark⟩]
    rfl
  · have hstay : ∀ text c, c.isDigit = true → next? text .digits c = some .digits :=
      fun _ _ hc => if_pos hc
    rw [scanNumber_of_not_hexMarked hmarked, run_of_stays hstay]
    refine run_digits_of_head (head?_dropWhile_eq_false r) ?_
    -- One zero in all is one without digits behind it, so what follows it is the whole text.
    rintro x hx ⟨hzero, hmark⟩
    have hd : d = '0' := (List.cons.inj hzero).1
    have hrun : r.takeWhile Char.isDigit = [] := (List.cons.inj hzero).2
    have hall : r.dropWhile Char.isDigit = r := by
      have happend := List.takeWhile_append_dropWhile (p := Char.isDigit) (l := r)
      rwa [hrun, List.nil_append] at happend
    exact hmarked ⟨hd, x, hall ▸ hx, hmark⟩

/-! ### Block comments -/

/-- How much of the closing mark has just been read. -/
inductive BlockState where
  /-- Nothing of it. -/
  | scan
  /-- The star. -/
  | star
  /-- All of it. -/
  | done

namespace BlockState

/-- The state behind one character more. -/
def next : BlockState → Char → BlockState
  | .scan, c => if c = '*' then .star else .scan
  | .star, c => if c = '/' then .done else if c = '*' then .star else .scan
  | .done, _ => .scan

/-- Reads on to the end of the comment, and gives the text behind it. -/
def run : BlockState → List Char → List Char × List Char
  | .done, cs => ([], cs)
  | _, [] => ([], [])
  | state, c :: r => (c :: (run (state.next c) r).1, (run (state.next c) r).2)

end BlockState

/-- A mark does not begin with any character but the star. -/
theorem Trivia.blockBody_cons_of_ne (hc : c ≠ '*') (r : List Char) :
    blockBody (c :: r) = (c :: (blockBody r).1, (blockBody r).2) := by
  cases r with
  | nil => rfl
  | cons d r => rw [blockBody, if_neg fun h => hc h.1]

/-- A star begins no mark in front of any character but the slash. -/
theorem Trivia.blockBody_star_cons_of_ne (hc : c ≠ '/') (r : List Char) :
    blockBody ('*' :: c :: r) = ('*' :: (blockBody (c :: r)).1, (blockBody (c :: r)).2) := by
  rw [blockBody, if_neg fun h => hc h.2]

/-- The machine reads the same comments as the reader with two characters in sight. Behind a star
it reads what is left of a text that begins with that star. -/
theorem BlockState.run_scan_and_star (r : List Char) :
    run .scan r = Trivia.blockBody r ∧
      Trivia.blockBody ('*' :: r) = ('*' :: (run .star r).1, (run .star r).2) := by
  -- Both states at once: each of them leads to the other.
  induction r with
  | nil => exact ⟨rfl, rfl⟩
  | cons c r ih =>
    obtain ⟨hscan, hstar⟩ := ih
    by_cases hc : c = '*'
    · subst hc
      constructor
      · rw [hstar]
        rfl
      · rw [Trivia.blockBody_star_cons_of_ne (by decide), hstar]
        rfl
    · have hplain : (c :: (run .scan r).1, (run .scan r).2) = Trivia.blockBody (c :: r) := by
        rw [hscan, Trivia.blockBody_cons_of_ne hc]
      constructor
      · rw [← hplain]
        simp [run, next, hc]
      · by_cases hslash : c = '/'
        · subst hslash
          rw [Trivia.blockBody, if_pos ⟨rfl, rfl⟩]
          simp [run, next]
        · rw [Trivia.blockBody_star_cons_of_ne hslash, ← hplain]
          simp [run, next, hc, hslash]

/-- The machine for block comments reads what the reader with two characters in sight reads. -/
theorem BlockState.run_scan (r : List Char) : run .scan r = Trivia.blockBody r :=
  (run_scan_and_star r).1

end LooseC
