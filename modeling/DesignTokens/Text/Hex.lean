/-!
# Text/Hex — hexadecimal digits

Numbers written with a fixed count of hexadecimal digits, and digits read back.
-/

namespace DesignTokens.Text

/-- The digit of a value below sixteen, in lower case. -/
def hexDigit (n : Nat) : Char := if n < 10 then Char.ofNat (0x30 + n) else Char.ofNat (0x57 + n)

/-- The last `width` hexadecimal digits of a number, in lower case. -/
def hexDigits : Nat → Nat → List Char
  | 0, _ => []
  | width + 1, n => hexDigits width (n / 16) ++ [hexDigit (n % 16)]

/-- The value of a hexadecimal digit of either case. -/
def hexValue? (c : Char) : Option Nat :=
  let n := c.toNat
  if 0x30 ≤ n ∧ n ≤ 0x39 then some (n - 0x30)
  else if 0x61 ≤ n ∧ n ≤ 0x66 then some (n - 0x57)
  else if 0x41 ≤ n ∧ n ≤ 0x46 then some (n - 0x37)
  else none

/-- The number that a run of hexadecimal digits writes. -/
def hexNumber? (cs : List Char) : Option Nat :=
  cs.foldlM (fun n c => (hexValue? c).map (16 * n + ·)) 0

@[simp] theorem length_hexDigits (width n : Nat) : (hexDigits width n).length = width := by
  induction width generalizing n with
  | zero => rfl
  | succ width ih => simp [hexDigits, ih]

theorem hexValue?_hexDigit : ∀ n < 16, hexValue? (hexDigit n) = some n := by decide

/-- **What was written is read back**, as far as the digits reach. -/
theorem hexNumber?_hexDigits (width n : Nat) :
    hexNumber? (hexDigits width n) = some (n % Nat.pow 16 width) := by
  induction width generalizing n with
  | zero => simp [hexNumber?, hexDigits, Nat.mod_one]
  | succ width ih =>
    have h := ih (n / 16)
    simp only [hexNumber?] at h
    simp only [hexNumber?, hexDigits, List.foldlM_append, h, List.foldlM_cons, List.foldlM_nil,
      hexValue?_hexDigit (n % 16) (Nat.mod_lt _ (by decide))]
    simp only [Option.bind_eq_bind, Option.bind_some, Option.map_some, Option.pure_def,
      Option.some.injEq]
    rw [show Nat.pow 16 (width + 1) = 16 * Nat.pow 16 width from Nat.mul_comm _ _, Nat.mod_mul,
      Nat.add_comm]

end DesignTokens.Text
