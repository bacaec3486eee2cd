/-!
# Text/Space — white space

The characters that Unicode counts as white space, together with the four information separators
U+001C to U+001F.  The zero-width characters (U+200B, U+FEFF) are not among them.
-/

namespace DesignTokens.Text

/-- Whether a character is white space. -/
def isSpace (c : Char) : Bool :=
  let n := c.toNat
  (0x09 ≤ n && n ≤ 0x0D) || (0x1C ≤ n && n ≤ 0x20) || n == 0x85 || n == 0xA0 || n == 0x1680 ||
    (0x2000 ≤ n && n ≤ 0x200A) || n == 0x2028 || n == 0x2029 || n == 0x202F || n == 0x205F ||
    n == 0x3000

/-- The text without the white space at its front. -/
def skipSpace (cs : List Char) : List Char := cs.dropWhile isSpace

/-- Whether a text holds white space only; the empty text does. -/
def isBlank (s : String) : Bool := s.toList.all isSpace

end DesignTokens.Text
