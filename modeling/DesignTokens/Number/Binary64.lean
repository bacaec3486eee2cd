/-!
# Number/Binary64 — double-precision numbers

A finite number is a mantissa below 2⁵³ times a power of two from 2⁻¹⁰⁷⁴ on; it is kept with the
least exponent that lets the mantissa reach 2⁵², so every number has one form.  A decimal is
rounded to the **nearest** number, and to the one with an even mantissa when two are equally near.
All of it is exact arithmetic on natural numbers.
-/

namespace DesignTokens

/-- A double-precision number. -/
inductive Binary64 where
  | nan
  | infinity (negative : Bool)
  /-- The number `± mantissa * 2 ^ exponent`. -/
  | finite (negative : Bool) (mantissa : Nat) (exponent : Int)
  deriving DecidableEq, Repr

/-- The quotient rounded to the nearest natural number, a half to the even one. -/
def roundDiv (num den : Nat) : Nat :=
  let q := num / den
  let r := num % den
  if 2 * r < den then q
  else if den < 2 * r then q + 1
  else q + q % 2

namespace Binary64

/-- The least exponent of a finite number. -/
def minExponent : Int := -1074

/-- The greatest exponent of a finite number. -/
def maxExponent : Int := 971

/-- The least mantissa of full length, 2⁵². -/
def leadingBit : Nat := 0x10000000000000

/-- Zero, with a sign. -/
def zero (negative : Bool) : Binary64 := .finite negative 0 minExponent

/-- The exponent of the greatest power of `base` that is at most `num / den`, where the two have
`numSize` and `denSize` digits in that base. -/
def floorLog (base : Nat) (num den numSize denSize : Nat) : Int :=
  let k : Int := numSize - denSize
  if den * base.pow k.toNat ≤ num * base.pow (-k).toNat then k else k - 1

/-- The number nearest to `num / den`. -/
def ofRatio (negative : Bool) (num den : Nat) : Binary64 :=
  let e := max minExponent (floorLog 2 num den num.log2 den.log2 - 52)
  let m := roundDiv (num * Nat.pow 2 (-e).toNat) (den * Nat.pow 2 e.toNat)
  let (m, e) := if m = 2 * leadingBit then (leadingBit, e + 1) else (m, e)
  if maxExponent < e then .infinity negative else .finite negative m e

/-- How many decimal digits a number has. -/
def decimalSize (n : Nat) : Nat := (Nat.toDigits 10 n).length

/-- The number nearest to `digits * 10 ^ exponent`.  A decimal of more than 310 places before the
point is past every finite number, and one that starts after 330 zeros behind it is nearest to
zero; neither is computed. -/
def ofDecimal (negative : Bool) (digits : Nat) (exponent : Int) : Binary64 :=
  let size : Int := decimalSize digits + exponent
  if digits = 0 ∨ size < -330 then zero negative
  else if 310 < size then .infinity negative
  else ofRatio negative (digits * Nat.pow 10 exponent.toNat) (Nat.pow 10 (-exponent).toNat)

end Binary64

end DesignTokens
