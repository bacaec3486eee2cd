import DesignTokens.Number.Binary64

/-!
# Number/Shortest — the shortest decimal that reads back

A positive finite number is written with the **fewest** digits that round back to it, and among
those by the decimal **nearest** to it, the even one of two equally near.  For one digit, two
digits and so on the two neighbours of the number on that decimal grid are compared with the
interval of reals that round to the number; its ends belong to it when the mantissa is even.
-/

namespace DesignTokens.Binary64

/-- A decimal `digits * 10 ^ exponent`. -/
structure Decimal where
  digits : Nat
  exponent : Int
  deriving DecidableEq, Repr

/-- The reals that round to `mantissa * 2 ^ exponent`, in units of `2 ^ (exponent - 2)`: half a step
up, and half a step down, where the step below a power of two is half as long. -/
structure Basin where
  low : Nat
  mid : Nat
  high : Nat
  /-- Whether the ends belong to it. -/
  closed : Bool

/-- The basin of a positive number. -/
def basin (mantissa : Nat) (exponent : Int) : Basin :=
  { low := if mantissa = leadingBit ∧ minExponent < exponent then 4 * mantissa - 1 else 4 * mantissa - 2
    mid := 4 * mantissa
    high := 4 * mantissa + 2
    closed := mantissa % 2 = 0 }

/-- The best multiple of `10 ^ p` in the basin of a number, if one is in it. -/
def onGrid? (mantissa : Nat) (exponent p : Int) : Option Nat :=
  let b := basin mantissa exponent
  let s := Nat.pow 10 p.toNat * Nat.pow 2 (2 - exponent).toNat
  let t := Nat.pow 10 (-p).toNat * Nat.pow 2 (exponent - 2).toNat
  let inside (c : Nat) : Bool :=
    (b.low * t < c * s && c * s < b.high * t) ||
      (b.closed && (c * s == b.low * t || c * s == b.high * t))
  let d := b.mid * t / s
  let below := b.mid * t - d * s
  let above := (d + 1) * s - b.mid * t
  let nearer := if below < above then d else if above < below then d + 1 else d + d % 2
  if inside d && inside (d + 1) then some nearer
  else if inside d then some d
  else if inside (d + 1) then some (d + 1)
  else none

/-- The first hit on the grids of `n` digits and more, `fuel` grids in all. -/
def firstHit (mantissa : Nat) (exponent leading : Int) : Nat → Nat → Decimal
  | 0, _ => ⟨mantissa, exponent⟩
  | fuel + 1, n =>
    let p := leading + 1 - n
    match onGrid? mantissa exponent p with
    | some c => ⟨c, p⟩
    | none => firstHit mantissa exponent leading fuel (n + 1)

/-- The decimal without zeros at its end. -/
def Decimal.trim : Nat → Decimal → Decimal
  | 0, d => d
  | fuel + 1, d =>
    if d.digits ≠ 0 ∧ d.digits % 10 = 0 then Decimal.trim fuel ⟨d.digits / 10, d.exponent + 1⟩ else d

/-- The shortest decimal of a finite number; seventeen digits always suffice. -/
def shortest (mantissa : Nat) (exponent : Int) : Decimal :=
  if mantissa = 0 then ⟨0, 0⟩
  else
    let num := mantissa * Nat.pow 2 exponent.toNat
    let den := Nat.pow 2 (-exponent).toNat
    let leading := floorLog 10 num den (decimalSize num) (decimalSize den)
    (firstHit mantissa exponent leading 17 1).trim 17

end DesignTokens.Binary64
