import LooseC.Token.Scanned

/-!
# Character and string literals

Both literals keep their text as it stands. A backslash takes the next character with it,
whichever that is, and escapes are not checked. A character literal holds exactly one
character, or a backslash and one character. A string literal may run over several lines.

The readers get the text after the opening quote.
-/

set_option autoImplicit false

namespace LooseC

/-- The body of a character literal and the text after it, or nothing if the text ends
first. A single quote may be the body. -/
def charBody? : List Char → Option (List Char × List Char)
  | [] => none
  | c :: r =>
    if c = '\\' then
      match r with
      | [] => none
      | e :: r => some ([c, e], r)
    else some ([c], r)

/-- The character literal whose opening quote stands before `r`. A wrong closing character is
reported where it stands, a missing one at the end of the text. -/
def scanChar (r : List Char) : Except ScanFailure Scanned :=
  match charBody? r with
  | none => .error ⟨.unfinished .char, '\'' :: r⟩
  | some (body, []) => .error ⟨.unfinished .char, '\'' :: body⟩
  | some (body, c :: rest) =>
    if c = '\'' then .ok ⟨.charLiteral, '\'' :: (body ++ ['\'']), rest⟩
    else .error ⟨.unclosedChar c, '\'' :: body⟩

/-- The rest of a string literal through the closing quote, and the text after it, or nothing
if the text ends first. -/
def stringBody? : List Char → Option (List Char × List Char)
  | [] => none
  | c :: r =>
    if c = '"' then some ([c], r)
    else if c = '\\' then
      match r with
      | [] => none
      | e :: r => (stringBody? r).map fun p => (c :: e :: p.1, p.2)
    else (stringBody? r).map fun p => (c :: p.1, p.2)

/-- The string literal whose opening quote stands before `r`. -/
def scanString (r : List Char) : Except ScanFailure Scanned :=
  match stringBody? r with
  | none => .error ⟨.unfinished .string, '"' :: r⟩
  | some (body, rest) => .ok ⟨.stringLiteral, '"' :: body, rest⟩

/-- The body of a character literal is a front of the text. -/
theorem append_of_charBody? {cs body rest : List Char} (h : charBody? cs = some (body, rest)) :
    body ++ rest = cs := by
  unfold charBody? at h
  split at h
  · simp at h
  · split at h
    · split at h
      · simp at h
      · cases h
        rfl
    · cases h
      rfl

/-- The rest of a string literal is a front of the text. -/
theorem append_of_stringBody? {cs body rest : List Char}
    (h : stringBody? cs = some (body, rest)) : body ++ rest = cs := by
  -- Each step of the reader puts what it took in front of what the later ones take.
  fun_induction stringBody? cs generalizing body rest with
  | case1 => simp at h
  | case2 =>
    cases h
    rfl
  | case3 => simp at h
  | case4 _ e r ih =>
    obtain ⟨p, hp, hpair⟩ := Option.map_eq_some_iff.mp h
    cases hpair
    simp [ih hp]
  | case5 c r _ _ ih =>
    obtain ⟨p, hp, hpair⟩ := Option.map_eq_some_iff.mp h
    cases hpair
    simp [ih hp]

/-- A character literal is a front of the text, its opening quote included. -/
theorem scanChar_splits {r : List Char} {s : Scanned} (h : scanChar r = .ok s) :
    s.Splits ('\'' :: r) := by
  unfold scanChar at h
  split at h
  · simp at h
  · simp at h
  · rename_i body c rest hbody
    split at h
    · rename_i hc
      cases h
      exact ⟨by simpa [hc] using append_of_charBody? hbody, by simp⟩
    · simp at h

/-- A string literal is a front of the text, its opening quote included. -/
theorem scanString_splits {r : List Char} {s : Scanned} (h : scanString r = .ok s) :
    s.Splits ('"' :: r) := by
  unfold scanString at h
  split at h
  · simp at h
  · rename_i body rest hbody
    cases h
    exact ⟨by simp [append_of_stringBody? hbody], by simp⟩

end LooseC
