import DesignTokens.Proofs.Number.Shortest
import DesignTokens.Proofs.Size

/-!
# Proofs/Number/Reading — what is read of the text of a number

A text that writes a number in the digits of any script is read as that number, rounded.  The whole
numerals among them are those without a point and an exponent, and they are read exactly as long as
they are not too long.  A double-precision number that is spelled **reads back as itself**.

* `Numeral.decimal?_of_writes` — the number nearest to a text.
* `Numeral.integer?_of_run`, `Numeral.integer?_eq_none` — the whole numerals.
* `Spelling.decimal?_text` — numbers that are spelled.
-/

namespace DesignTokens

open Text

namespace Numeral

variable {c : Char} {cs body tail run : List Char} {negative : Bool} {n : ℕ} {e : ℤ}

/-! ## Other scripts -/

/-- A digit of any script has the value of its ASCII digit. -/
theorem digitValue?_asciiChar (h : isDigit c = true) : digitValue? (asciiChar c) = digitValue? c := by
  obtain ⟨d, hd⟩ := Option.isSome_iff_exists.1 h
  unfold asciiChar
  split
  · rfl
  · rw [not_isSpace_of_isDigit h, hd]
    simp only [Bool.false_eq_true, if_false]
    exact digitValue?_ofNat d (digitValue?_lt hd)

theorem digitsValue_map_asciiChar (h : ∀ c ∈ run, isDigit c = true) :
    digitsValue (run.map asciiChar) = digitsValue run := by
  induction run using List.reverseRecOn with
  | nil => rfl
  | append_singleton run c ih =>
    obtain ⟨hrun, hc⟩ := List.forall_mem_append.1 h
    rw [List.map_append, List.map_singleton, digitsValue_append_singleton,
      digitsValue_append_singleton, ih hrun, digitValue?_asciiChar (hc c List.mem_cons_self)]

theorem isDigit_map_asciiChar (h : ∀ c ∈ run, isDigit c = true) :
    ∀ c ∈ run.map asciiChar, c.isDigit = true :=
  List.forall_mem_map.2 fun c hc => isDigit_asciiChar (h c hc)

theorem map_asciiChar_tail (h : WritesTail tail e) : tail.map asciiChar = tail :=
  map_asciiChar h.isTail.isDecimalChar

/-- **A text in any script writes what it writes in ASCII.** -/
theorem Writes.map_asciiChar (h : Writes isDigit body n e) :
    Writes Char.isDigit (body.map asciiChar) n e := by
  rcases h with ⟨isDigit, ne_nil, writesTail⟩ | ⟨isDigit, isDigit_part, ne_nil, writesTail⟩
  · refine (Writes.whole (isDigit_map_asciiChar isDigit) (mt List.map_eq_nil_iff.1 ne_nil)
      writesTail).of_eq ?_ (digitsValue_map_asciiChar isDigit) rfl
    rw [List.map_append, map_asciiChar_tail writesTail]
  · refine (Writes.point (isDigit_map_asciiChar isDigit) (isDigit_map_asciiChar isDigit_part) ?_
      writesTail).of_eq ?_ ?_ ?_
    · rwa [← List.map_append, ne_eq, List.map_eq_nil_iff]
    · rw [List.map_append, List.map_cons, List.map_append, map_asciiChar_tail writesTail]
      rfl
    · rw [← List.map_append]
      exact digitsValue_map_asciiChar (List.forall_mem_append.2 ⟨isDigit, isDigit_part⟩)
    · rw [List.length_map]

/-- What is written in ASCII is written in the digits of a script. -/
theorem Writes.isDigit (h : Writes Char.isDigit body n e) : Writes Text.isDigit body n e := by
  rcases h with ⟨isDigit, ne_nil, writesTail⟩ | ⟨isDigit, isDigit_part, ne_nil, writesTail⟩
  · exact .whole (fun c hc => isDigit_of_isDigit (isDigit c hc)) ne_nil writesTail
  · exact .point (fun c hc => isDigit_of_isDigit (isDigit c hc))
      (fun c hc => isDigit_of_isDigit (isDigit_part c hc)) ne_nil writesTail

/-! ## Signs -/

theorem map_asciiChar_sign (negative : Bool) (body : List Char) :
    (Size.sign negative ++ body).map asciiChar = Size.sign negative ++ body.map asciiChar := by
  cases negative with
  | false => rfl
  | true => rfl

theorem IsDecimal.isSigned (h : IsDecimal body) (negative : Bool) :
    IsSigned (Size.sign negative ++ body) := by
  cases negative with
  | false => exact Or.inl h
  | true => exact Or.inr ⟨body, rfl, h⟩

theorem IsDecimal.signed_sign_append (h : IsDecimal body) (negative : Bool) :
    signed (Size.sign negative ++ body) = (negative, body) := by
  cases negative with
  | false => exact h.signed_eq
  | true => rfl

/-- **The number nearest to a text.** -/
theorem decimal?_of_writes (h : Writes isDigit body n e) (negative : Bool) :
    decimal? (Size.sign negative ++ body) = some (.ofDecimal negative n e) := by
  have hascii := h.map_asciiChar
  have hsigned := hascii.isDecimal.isSigned negative
  rw [← map_asciiChar_sign] at hsigned
  rw [decimal?_eq hsigned, map_asciiChar_sign, hascii.isDecimal.signed_sign_append]
  exact hascii.unsigned?_eq

/-! ## Whole numerals -/

theorem isDigit_of_isDigit_asciiChar (h : (asciiChar c).isDigit = true) : isDigit c = true := by
  unfold asciiChar at h
  split at h
  · exact isDigit_of_isDigit h
  split at h
  · exact absurd h (by decide)
  · split at h
    · rename_i hd
      exact Option.isSome_iff_exists.2 ⟨_, hd⟩
    · exact absurd h (by decide)

theorem integer?_eq (h : Writes isDigit body n e) (negative : Bool) :
    integer? (Size.sign negative ++ body) =
      if (body.map asciiChar).isEmpty || !(body.map asciiChar).all Char.isDigit then none
      else (readDigits (body.map asciiChar)).toOption.map fun k : ℕ =>
        if negative then -(k : ℤ) else (k : ℤ) := by
  have hascii := h.map_asciiChar
  have hsigned := hascii.isDecimal.isSigned negative
  have hjoined := joined?_of_not_mem (IsSigned.not_mem_underscore (Or.inl hascii.isDecimal))
  rw [← map_asciiChar_sign] at hsigned
  have hsplit : signed (core (Size.sign negative ++ body)) = (negative, body.map asciiChar) := by
    rw [core_eq hsigned, map_asciiChar_sign, hascii.isDecimal.signed_sign_append]
  simp only [integer?, hsplit, hjoined]
  cases readDigits (body.map asciiChar) with
  | ok n => rfl
  | error e => rfl

/-- A run of digits that is not too long. -/
def ShortRun (cs : List Char) : Prop := DigitRun cs ∧ cs.length ≤ digitLimit

/-- **A run of digits that is not too long is read exactly.** -/
theorem integer?_of_run (h : ShortRun run) (negative : Bool) :
    integer? (Size.sign negative ++ run) = some (Size.signedValue negative run) := by
  obtain ⟨hrun, hlength⟩ := h
  have hwrites := Writes.whole (p := isDigit) hrun.2 hrun.1 .none
  rw [List.append_nil] at hwrites
  have hread : readDigits (run.map asciiChar) = .ok (digitsValue run) :=
    readDigits_eq_ok_iff.2 ⟨by rwa [List.length_map], digitsValue_map_asciiChar hrun.2⟩
  have hall : (run.map asciiChar).all Char.isDigit = true :=
    List.all_eq_true.2 (isDigit_map_asciiChar hrun.2)
  rw [integer?_eq hwrites, hread, hall]
  exact if_neg (by simpa using hrun.1)

/-- **Any other number is not read as a whole one.** -/
theorem integer?_eq_none (h : Writes isDigit body n e) (hrun : ¬ ShortRun body)
    (negative : Bool) : integer? (Size.sign negative ++ body) = none := by
  rw [integer?_eq h]
  split
  · rfl
  · rename_i hdigits
    rw [Bool.or_eq_true, not_or, Bool.not_eq_true', Bool.not_eq_false, List.isEmpty_map,
      List.isEmpty_iff, List.all_eq_true, List.forall_mem_map] at hdigits
    have hlength : digitLimit < (body.map asciiChar).length := by
      rw [List.length_map]
      exact Nat.lt_of_not_le fun hle => hrun
        ⟨⟨hdigits.1, fun c hc => isDigit_of_isDigit_asciiChar (hdigits.2 c hc)⟩, hle⟩
    rw [readDigits_eq_error_iff.2 ⟨hlength, rfl⟩]
    rfl

end Numeral

/-! ## Numbers that are spelled -/

namespace Spelling

open Numeral

variable {m : ℕ} {e : ℤ}

theorem toList_text (sp : Spelling) (negative : Bool) (m : ℕ) (e : ℤ) :
    (sp.text (.finite negative m e)).toList =
      Size.sign negative ++ (sp.decimalText (Binary64.shortest m e)).toList := by
  rw [text, String.toList_append]
  cases negative with
  | false => rfl
  | true => rfl

/-- **A number that is spelled writes a decimal that is rounded to it.** -/
theorem exists_writes_shortest (sp : Spelling) (h : Binary64.IsCanonical m e) :
    ∃ n k, Writes Char.isDigit (sp.decimalText (Binary64.shortest m e)).toList n k ∧
      ∀ negative, Binary64.ofDecimal negative n k = .finite negative m e := by
  obtain ⟨k, hwrites⟩ := exists_writes_decimalText sp (Binary64.shortest m e)
  have hvalue : (((Binary64.shortest m e).digits * Nat.pow 10 k : ℕ) : ℚ) *
      10 ^ ((Binary64.shortest m e).exponent - k) = (Binary64.shortest m e).value := by
    rw [Binary64.Decimal.value, Nat.pow_eq, zpow_sub₀ (by norm_num), zpow_natCast]
    push_cast
    field_simp
  exact ⟨_, _, hwrites, fun negative => Binary64.ofDecimal_of_eq_shortest h hvalue⟩

/-- **A number that is spelled reads back as itself.** -/
theorem decimal?_text (sp : Spelling) (h : Binary64.IsCanonical m e) (negative : Bool) :
    decimal? (sp.text (.finite negative m e)).toList = some (.finite negative m e) := by
  obtain ⟨n, k, hwrites, hround⟩ := exists_writes_shortest sp h
  rw [toList_text, decimal?_of_writes hwrites.isDigit, hround]

end Spelling

end DesignTokens
