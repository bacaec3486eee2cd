import DesignTokens.Number.Binary64
import DesignTokens.Text.Digit
import DesignTokens.Text.Space

/-!
# Number/Numeral — reading numerals

A numeral may be written in the digits of any script, may have white space around it and a sign
before it, and may have single underscores between its digits.  A whole numeral is a run of digits;
a decimal numeral has a point, an exponent, or both, and `inf`, `infinity` and `nan` count as
decimal numerals in any case.

* `integer?` — the value of a whole numeral of at most `digitLimit` digits.
* `decimal?` — the double-precision number nearest to a numeral.
-/

namespace DesignTokens.Numeral

open Text

/-! ## One script -/

/-- A character in ASCII: digits of any script by their ASCII digit, white space by a blank, and
what a numeral cannot hold by a question mark. -/
def asciiChar (c : Char) : Char :=
  if c.toNat < 127 then c
  else if isSpace c then ' '
  else match digitValue? c with
    | some d => Char.ofNat (0x30 + d)
    | none => '?'

/-- White space around a numeral, once it is in ASCII. -/
def isPadding (c : Char) : Bool := c == ' ' || (0x09 ≤ c.toNat && c.toNat ≤ 0x0D)

/-- The numeral in ASCII and without the white space around it. -/
def core (cs : List Char) : List Char :=
  (((cs.map asciiChar).dropWhile isPadding).reverse.dropWhile isPadding).reverse

/-- The sign before a numeral: whether it is a minus, and what follows. -/
def signed : List Char → Bool × List Char
  | '-' :: rest => (true, rest)
  | '+' :: rest => (false, rest)
  | rest => (false, rest)

/-- Whether every underscore stands between two digits; `before` tells whether the character
before is a digit. -/
def underscoresFit (before : Bool) : List Char → Bool
  | [] => true
  | ['_'] => false
  | '_' :: c :: rest => before && c.isDigit && underscoresFit c.isDigit rest
  | c :: rest => underscoresFit c.isDigit rest

/-- The numeral without its underscores, if each stands between two digits. -/
def joined? (cs : List Char) : Option (List Char) :=
  if underscoresFit false cs then some (cs.filter (· ≠ '_')) else none

/-! ## Whole numerals -/

/-- The value of a whole numeral. -/
def integer? (cs : List Char) : Option Int :=
  let (negative, body) := signed (core cs)
  match joined? body with
  | none => none
  | some digits =>
    if digits.isEmpty || !digits.all Char.isDigit then none
    else match readDigits digits with
      | .ok n => some (if negative then -(n : Int) else n)
      | .error _ => none

/-! ## Decimal numerals -/

/-- The exponent at the end of a numeral, zero when there is none. -/
def exponent? : List Char → Option Int
  | [] => some 0
  | c :: rest =>
    if c = 'e' ∨ c = 'E' then
      let (negative, digits) := signed rest
      if digits.isEmpty || !digits.all Char.isDigit then none
      else some (if negative then -(digitsValue digits : Int) else digitsValue digits)
    else none

/-- The part of a decimal numeral behind its point, with what follows. -/
def fraction : List Char → List Char × List Char
  | '.' :: rest => (rest.takeWhile Char.isDigit, rest.dropWhile Char.isDigit)
  | rest => ([], rest)

/-- The number nearest to an unsigned numeral in ASCII. -/
def unsigned? (negative : Bool) (cs : List Char) : Option Binary64 :=
  let word := String.ofList (cs.map Char.toLower)
  if word = "nan" then some .nan
  else if word = "inf" ∨ word = "infinity" then some (.infinity negative)
  else
    let whole := cs.takeWhile Char.isDigit
    let (part, rest) := fraction (cs.dropWhile Char.isDigit)
    let digits := whole ++ part
    if digits.isEmpty then none
    else (exponent? rest).map fun e => .ofDecimal negative (digitsValue digits) (e - part.length)

/-- The number nearest to a numeral, whole or decimal. -/
def decimal? (cs : List Char) : Option Binary64 :=
  (joined? (core cs)).bind fun body =>
    let (negative, rest) := signed body
    unsigned? negative rest

end DesignTokens.Numeral
