import DesignTokens.Text.Hex
import DesignTokens.Text.Printable

/-!
# Text/Quoted — text as messages quote it

A quoted text stands between single quotes, or between double quotes when it holds a single quote
and no double one.  Backslashes and the quote in use are escaped, so are tab, line feed and
carriage return by letter, and every other character that is not printable by its code point.
-/

namespace DesignTokens.Text

/-- A code point as an escape of two, four or eight digits. -/
def escapeCodePoint (n : Nat) : List Char :=
  if n ≤ 0xFF then ['\\', 'x'] ++ hexDigits 2 n
  else if n ≤ 0xFFFF then ['\\', 'u'] ++ hexDigits 4 n
  else ['\\', 'U'] ++ hexDigits 8 n

/-- A character inside a quoted text whose quote is `quote`. -/
def quoteChar (quote c : Char) : List Char :=
  if c = '\\' ∨ c = quote then ['\\', c]
  else if c = '\t' then ['\\', 't']
  else if c = '\n' then ['\\', 'n']
  else if c = '\r' then ['\\', 'r']
  else if isPrintable c then [c]
  else escapeCodePoint c.toNat

/-- The quote that a text is put between. -/
def quoteFor (cs : List Char) : Char :=
  if cs.contains '\'' && !cs.contains '"' then '"' else '\''

/-- The text between quotes. -/
def quoted (s : String) : String :=
  let cs := s.toList
  let quote := quoteFor cs
  String.ofList (quote :: cs.flatMap (quoteChar quote) ++ [quote])

end DesignTokens.Text
