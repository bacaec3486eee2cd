/-!
# Text/Digit — decimal digits of every script

Every script that writes numbers positionally has ten digits at consecutive code points; a run of
digits may mix scripts and is read most significant digit first.  A whole number of more than
`digitLimit` digits is not read at all.

* `digitValue?_lt` — a digit stands for less than ten.
* `digitValue?_ofNat` — the ASCII digits stand for themselves.
-/

namespace DesignTokens.Text

/-! ## Digits -/

/-- The code points of the digits zero. -/
def digitZeros : List Nat :=
  [0x0030, 0x0660, 0x06F0, 0x07C0, 0x0966, 0x09E6, 0x0A66, 0x0AE6, 0x0B66, 0x0BE6, 0x0C66, 0x0CE6,
   0x0D66, 0x0DE6, 0x0E50, 0x0ED0, 0x0F20, 0x1040, 0x1090, 0x17E0, 0x1810, 0x1946, 0x19D0, 0x1A80,
   0x1A90, 0x1B50, 0x1BB0, 0x1C40, 0x1C50, 0xA620, 0xA8D0, 0xA900, 0xA9D0, 0xA9F0, 0xAA50, 0xABF0,
   0xFF10, 0x104A0, 0x10D30, 0x11066, 0x110F0, 0x11136, 0x111D0, 0x112F0, 0x11450, 0x114D0,
   0x11650, 0x116C0, 0x11730, 0x118E0, 0x11950, 0x11C50, 0x11D50, 0x11DA0, 0x16A60, 0x16AC0,
   0x16B50, 0x1D7CE, 0x1D7D8, 0x1D7E2, 0x1D7EC, 0x1D7F6, 0x1E140, 0x1E2F0, 0x1E950, 0x1FBF0]

/-- The value of a digit: its distance from the zero of its script. -/
def digitValue? (c : Char) : Option Nat :=
  (digitZeros.find? fun z => z ≤ c.toNat && c.toNat < z + 10).map (c.toNat - ·)

/-- Whether a character is a decimal digit of some script. -/
def isDigit (c : Char) : Bool := (digitValue? c).isSome

/-- **A digit stands for less than ten.** -/
theorem digitValue?_lt {c : Char} {d : Nat} (h : digitValue? c = some d) : d < 10 := by
  obtain ⟨z, hz, rfl⟩ := Option.map_eq_some_iff.1 h
  have := List.find?_some hz
  simp only [Bool.and_eq_true, decide_eq_true_eq] at this
  omega

/-- **The ASCII digits stand for themselves.** -/
theorem digitValue?_ofNat : ∀ d < 10, digitValue? (Char.ofNat (0x30 + d)) = some d := by decide

theorem toNat_of_isDigit {c : Char} (h : c.isDigit = true) : 0x30 ≤ c.toNat ∧ c.toNat ≤ 0x39 := by
  simp only [Char.isDigit, Bool.and_eq_true, decide_eq_true_eq, ge_iff_le,
    UInt32.le_iff_toNat_le] at h
  exact h

/-- The ASCII digits are digits. -/
theorem isDigit_of_isDigit {c : Char} (h : c.isDigit = true) : isDigit c = true := by
  obtain ⟨hlow, hhigh⟩ := toNat_of_isDigit h
  rw [isDigit, digitValue?, Option.isSome_map, List.find?_isSome]
  refine ⟨0x30, List.mem_cons_self, ?_⟩
  simp only [Bool.and_eq_true, decide_eq_true_eq]
  omega

/-! ## Runs of digits -/

/-- The number that a run of digits writes. -/
def digitsValue (cs : List Char) : Nat :=
  cs.foldl (fun n c => 10 * n + (digitValue? c).getD 0) 0

@[simp] theorem digitsValue_nil : digitsValue [] = 0 := rfl

/-- A further digit multiplies by ten and adds. -/
theorem digitsValue_append_singleton (cs : List Char) (c : Char) :
    digitsValue (cs ++ [c]) = 10 * digitsValue cs + (digitValue? c).getD 0 := by
  simp [digitsValue, List.foldl_append]

/-- The most digits that a whole number may have. -/
def digitLimit : Nat := 4300

/-- A whole number with more digits than the limit. -/
structure TooManyDigits where
  /-- How many digits it has, leading zeros included and the sign not. -/
  count : Nat
  deriving DecidableEq, Repr

/-- The wording of the refusal. -/
def TooManyDigits.message (e : TooManyDigits) : String :=
  "Exceeds the limit (" ++ toString digitLimit ++ " digits) for integer string conversion: value has "
    ++ toString e.count
    ++ " digits; use sys.set_int_max_str_digits() to increase the limit"

/-- Reads a run of digits, unless it is longer than the limit. -/
def readDigits (cs : List Char) : Except TooManyDigits Nat :=
  if cs.length ≤ digitLimit then .ok (digitsValue cs) else .error ⟨cs.length⟩

theorem readDigits_eq_ok_iff {cs : List Char} {n : Nat} :
    readDigits cs = .ok n ↔ cs.length ≤ digitLimit ∧ digitsValue cs = n := by
  unfold readDigits
  split
  · simp_all
  · simp only [reduceCtorEq, false_iff, not_and]
    omega

theorem readDigits_eq_error_iff {cs : List Char} {e : TooManyDigits} :
    readDigits cs = .error e ↔ digitLimit < cs.length ∧ e = ⟨cs.length⟩ := by
  unfold readDigits
  split
  · rename_i hlength
    simp [Nat.not_lt.2 hlength]
  · rename_i hlength
    simp [Nat.lt_of_not_le hlength, eq_comm]

end DesignTokens.Text
