import LooseC.Token.Number
import LooseC.Token.Operator
import LooseC.Token.Quoted
import LooseC.Token.Word

/-!
# Reading one token

`scanToken` looks at the first character of a token and hands over to the reader for it. The
first characters of the readers are disjoint, so their order does not matter.
`scanToken_splits` collects the laws of the readers: a token takes its characters off the
front of the text and is never empty.
-/

set_option autoImplicit false

namespace LooseC

/-- The token with first character `c`, before the text `r`. The text must not begin with
trivia: a slash is taken for an operator here. -/
def scanToken (c : Char) (r : List Char) : Except ScanFailure Scanned :=
  match markKind? c, operatorForms? c with
  | some kind, _ => .ok ⟨kind, [c], r⟩
  | none, some forms => .ok (forms.scan c r)
  | none, none =>
    if c = '#' then .ok (scanDirective r)
    else if c.isDigit then .ok (scanNumber c r)
    else if c = '\'' then scanChar r
    else if c = '"' then scanString r
    else if isWordStart c then .ok (scanWord c r)
    else .error ⟨.unrecognized c, []⟩

/-- A token takes one character or more off the front of the text and leaves the rest. -/
theorem scanToken_splits {c : Char} {r : List Char} {s : Scanned} (h : scanToken c r = .ok s) :
    s.Splits (c :: r) := by
  -- One case for each reader, each with its own law.
  unfold scanToken at h
  split at h
  · cases h
    exact ⟨rfl, by simp⟩
  · cases h
    exact OperatorForms.scan_splits _ c r
  · split at h
    · rename_i hc
      cases h
      exact hc ▸ scanDirective_splits r
    · split at h
      · cases h
        exact scanNumber_splits c r
      · split at h
        · rename_i hc
          exact hc ▸ scanChar_splits h
        · split at h
          · rename_i hc
            exact hc ▸ scanString_splits h
          · split at h
            · cases h
              exact scanWord_splits c r
            · simp at h

end LooseC
