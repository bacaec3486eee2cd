import DesignTokens.Number.Shortest

/-!
# Number/Spelling — how a double-precision number is written

The digits are those of the shortest decimal.  What a format decides beside them is one record:
its words for infinity and for a number that is none, and the powers of ten between which the
point is placed instead of an exponent.
-/

namespace DesignTokens

/-- What a format decides about the spelling of a number. -/
structure Spelling where
  /-- The word for what is no number. -/
  nan : String
  /-- The word for infinity. -/
  infinity : String
  /-- The least power of ten of a leading digit that is written without an exponent. -/
  leastPower : Int
  /-- The power of ten from which an exponent is written. -/
  exponentFrom : Int
  /-- The least count of digits of an exponent. -/
  exponentWidth : Nat

namespace Spelling

/-- An exponent: its sign, and its digits filled up with zeros. -/
def exponentText (sp : Spelling) (e : Int) : String :=
  let digits := Nat.toDigits 10 e.natAbs
  let sign := if e < 0 then '-' else '+'
  String.ofList ('e' :: sign :: List.replicate (sp.exponentWidth - digits.length) '0' ++ digits)

/-- A decimal with a point, which always has a digit on both sides, or with an exponent. -/
def decimalText (sp : Spelling) (d : Binary64.Decimal) : String :=
  let digits := Nat.toDigits 10 d.digits
  let point : Int := digits.length + d.exponent
  if d.digits ≠ 0 ∧ (point - 1 < sp.leastPower ∨ sp.exponentFrom ≤ point - 1) then
    let fraction := if digits.length = 1 then [] else '.' :: digits.drop 1
    String.ofList (digits.take 1 ++ fraction) ++ sp.exponentText (point - 1)
  else if point ≤ 0 then
    String.ofList ('0' :: '.' :: List.replicate (-point).toNat '0' ++ digits)
  else
    let whole := digits.take point.toNat ++ List.replicate (point.toNat - digits.length) '0'
    let rest := digits.drop point.toNat
    String.ofList (whole ++ '.' :: if rest.isEmpty then ['0'] else rest)

/-- A number as a format writes it. -/
def text (sp : Spelling) : Binary64 → String
  | .nan => sp.nan
  | .infinity negative => (if negative then "-" else "") ++ sp.infinity
  | .finite negative m e =>
    (if negative then "-" else "") ++ sp.decimalText (Binary64.shortest m e)

end Spelling

/-- In words for a reader, and in generated code: the point is placed from 10⁻⁴ up to below 10¹⁶,
and an exponent has two digits at least. -/
def Spelling.plain : Spelling := ⟨"nan", "inf", -4, 16, 2⟩

end DesignTokens
