/-!
# Escaped characters

Messages show an offending character in a form that is always printable ASCII. The short
escapes are those of a C literal; any other character outside the printable range is written
as `\u` and its code point in braces.
-/

set_option autoImplicit false

namespace LooseC

/-- The code point of `c` in lower-case hexadecimal, without padding. -/
def hexCode (c : Char) : String :=
  String.ofList (Nat.toDigits 16 c.toNat)

/-- The printable form of a character. The three control characters with a short escape, both
quotes and the backslash are escaped with a backslash; the rest of printable ASCII stands for
itself. -/
def escapeChar (c : Char) : String :=
  if c = '\t' then "\\t"
  else if c = '\r' then "\\r"
  else if c = '\n' then "\\n"
  else if c = '\'' then "\\'"
  else if c = '"' then "\\\""
  else if c = '\\' then "\\\\"
  else if 0x20 ≤ c.toNat ∧ c.toNat ≤ 0x7e then c.toString
  else "\\u\x7b" ++ hexCode c ++ "\x7d"

end LooseC
