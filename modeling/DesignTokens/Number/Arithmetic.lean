import DesignTokens.Number.Binary64

/-!
# Number/Arithmetic — sums and products of double-precision numbers

A sum or a product is the number nearest to the exact one.  An exact sum of zero is positive unless
both numbers are negative zeros; infinities of opposite signs have no sum, and infinity has no
product with zero.
-/

namespace DesignTokens.Binary64

/-- The number nearest to `mantissa * 2 ^ exponent`. -/
def ofScaled (negative : Bool) (mantissa : Nat) (exponent : Int) : Binary64 :=
  if mantissa = 0 then zero negative
  else ofRatio negative (mantissa * Nat.pow 2 exponent.toNat) (Nat.pow 2 (-exponent).toNat)

/-- The number nearest to a natural number. -/
def ofNat (n : Nat) : Binary64 := ofScaled false n 0

/-- The number with the opposite sign. -/
def neg : Binary64 → Binary64
  | .nan => .nan
  | .infinity s => .infinity (!s)
  | .finite s m e => .finite (!s) m e

/-- The product of two numbers. -/
def mul : Binary64 → Binary64 → Binary64
  | .nan, _ | _, .nan => .nan
  | .infinity s, .infinity t => .infinity (s != t)
  | .infinity s, .finite t m _ | .finite t m _, .infinity s =>
    if m = 0 then .nan else .infinity (s != t)
  | .finite s m e, .finite t n f => ofScaled (s != t) (m * n) (e + f)

/-- A mantissa with its sign, to a lower exponent. -/
def signedTo (low : Int) (negative : Bool) (mantissa : Nat) (exponent : Int) : Int :=
  let n : Int := mantissa * Nat.pow 2 (exponent - low).toNat
  if negative then -n else n

/-- The sum of two numbers. -/
def add : Binary64 → Binary64 → Binary64
  | .nan, _ | _, .nan => .nan
  | .infinity s, .infinity t => if s = t then .infinity s else .nan
  | .infinity s, .finite _ _ _ | .finite _ _ _, .infinity s => .infinity s
  | .finite s m e, .finite t n f =>
    let low := min e f
    let sum := signedTo low s m e + signedTo low t n f
    if sum = 0 then zero (s && t) else ofScaled (decide (sum < 0)) sum.natAbs low

/-- Whether two numbers are equal; a number that is none equals nothing, and zeros are equal. -/
def equals : Binary64 → Binary64 → Bool
  | .infinity s, .infinity t => s == t
  | .finite s m e, .finite t n f =>
    let low := min e f
    signedTo low s m e == signedTo low t n f
  | _, _ => false

/-- Whether a number equals an integer. -/
def equalsInt (n : Int) : Binary64 → Bool
  | .finite s m e => signedTo (min e 0) s m e == n * Nat.pow 2 (0 - min e 0).toNat
  | _ => false

end DesignTokens.Binary64
