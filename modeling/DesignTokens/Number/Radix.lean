import DesignTokens.Number.Numeral

/-!
# Number/Radix — whole numerals to a base

A whole numeral may have white space around it, a sign before it and, to the bases 2, 8 and 16, the
mark of its base (`0b`, `0o`, `0x`).  Only to base ten is the count of its digits limited, and the
**limit is told first**: a run of too many digits is refused as such, whatever follows it.
-/

namespace DesignTokens.Radix

open Text Numeral

/-- Why a text is no whole numeral to a base. -/
inductive Refusal where
  | malformed
  | digits (e : TooManyDigits)
  deriving DecidableEq, Repr

/-- The letter in the mark of a base. -/
def letter? : Nat → Option Char
  | 2 => some 'b'
  | 8 => some 'o'
  | 16 => some 'x'
  | _ => none

/-- A numeral without the mark of its base. -/
def unmarked (base : Nat) : List Char → List Char
  | '0' :: c :: rest => if letter? base = some c.toLower then rest else '0' :: c :: rest
  | cs => cs

/-- The value of a digit to any base up to 36. -/
def digit? (c : Char) : Option Nat :=
  if c.isDigit then some (c.toNat - '0'.toNat)
  else if c.isLower then some (c.toNat - 'a'.toNat + 10)
  else if c.isUpper then some (c.toNat - 'A'.toNat + 10)
  else none

/-- The digits to a base at the front of a text, by their values, and what follows them. -/
def digitRun (base : Nat) : List Char → List Nat × List Char
  | [] => ([], [])
  | c :: rest =>
    match (digit? c).filter (· < base) with
    | some d => let r := digitRun base rest; (d :: r.1, r.2)
    | none => ([], c :: rest)

/-- The number that digits write, most significant digit first. -/
def value (base : Nat) (digits : List Nat) : Nat := digits.foldl (fun n d => base * n + d) 0

/-- The value of a whole numeral to a base. -/
def read (base : Nat) (cs : List Char) : Except Refusal Int :=
  let (negative, body) := signed (core cs)
  let (digits, rest) := digitRun base (unmarked base body)
  if base = 10 ∧ digitLimit < digits.length then .error (.digits ⟨digits.length⟩)
  else if digits.isEmpty || !rest.isEmpty then .error .malformed
  else .ok (if negative then -(value base digits : Int) else value base digits)

end DesignTokens.Radix
