import DesignTokens.Proofs.Runs
import DesignTokens.Size
import DesignTokens.Target.Python
import Mathlib.Data.Bool.AllAny

/-!
# Proofs/Numeral — the texts of numbers are numerals

A size may be a number given as a string, in the digits of any script, or a JSON number in the form
in which JSON is written.  Each of these texts is a sign or none before **a decimal**: digits, a
point among them or not, and an exponent or not.  Whatever is such a text can be read as a numeral,
however many digits it has, and what is read is the number that it writes.

* `Numeral.Writes.unsigned?_eq`, `Numeral.isSome_decimal?` — a decimal can be read.
* `Spelling.exists_writes_decimalText` — what is spelled writes its value.
* `Python.isSome_numeral?` — so can the text of any number that a size may be.
* `Size.NumberText.isNumberChar` — the characters of such a text.
-/

namespace DesignTokens

open Text

/-! ## Characters -/

section Characters

variable {c : Char}

/-- A character that the text of a number may hold: a digit of any script, a sign, a point, or a
letter of an exponent, of infinity or of what is no number. -/
def IsNumberChar (c : Char) : Prop := isDigit c = true ∨ c ∈ "+-.INaefinty".toList

instance : DecidablePred IsNumberChar := fun c =>
  inferInstanceAs (Decidable (isDigit c = true ∨ c ∈ "+-.INaefinty".toList))

theorem IsNumberChar.of_isDigit (h : c.isDigit = true) : IsNumberChar c :=
  Or.inl (isDigit_of_isDigit h)

theorem isDigit_iff : isDigit c = true ↔ ∃ z ∈ digitZeros, z ≤ c.toNat ∧ c.toNat < z + 10 := by
  simp [isDigit, digitValue?]

/-- **No digit is white space.** -/
theorem not_isSpace_of_isDigit (h : isDigit c = true) : isSpace c = false := by
  have hzeros : ∀ z ∈ digitZeros, (0x20 < z ∧ z + 10 ≤ 0x85) ∨ (0xA0 < z ∧ z + 10 ≤ 0x1680) ∨
      (0x1680 < z ∧ z + 10 ≤ 0x2000) ∨ 0x3000 < z := by decide
  obtain ⟨z, hz, hlow, hhigh⟩ := isDigit_iff.1 h
  have := hzeros z hz
  simp only [isSpace, Bool.or_eq_false_iff, Bool.and_eq_false_iff, decide_eq_false_iff_not,
    beq_eq_false_iff_ne]
  omega

end Characters

/-! ## What digits write -/

namespace Text

variable {cs cs' : List Char} {n : Nat}

/-- Digits behind others. -/
theorem digitsValue_append (cs cs' : List Char) :
    digitsValue (cs ++ cs') = digitsValue cs * Nat.pow 10 cs'.length + digitsValue cs' := by
  induction cs' generalizing cs with
  | nil => simp
  | cons c cs' ih =>
    have hfirst := digitsValue_append_singleton cs c
    have hsingle := digitsValue_append_singleton [] c
    rw [digitsValue_nil, List.nil_append] at hsingle
    rw [List.append_cons, ih, hfirst, ← List.singleton_append, ih [c], hsingle, List.length_append,
      List.length_singleton, Nat.pow_eq, Nat.pow_eq, Nat.pow_add]
    grind

@[simp] theorem digitsValue_replicate (n : Nat) : digitsValue (List.replicate n '0') = 0 := by
  induction n with
  | zero => rfl
  | succ n ih =>
    rw [List.replicate_succ', digitsValue_append_singleton, ih]
    rfl

/-- Zeros in front do not count. -/
theorem digitsValue_replicate_append (n : Nat) (cs : List Char) :
    digitsValue (List.replicate n '0' ++ cs) = digitsValue cs := by
  rw [digitsValue_append, digitsValue_replicate, Nat.zero_mul, Nat.zero_add]

/-- **The digits of a number write it.** -/
theorem digitsValue_toDigits (n : Nat) : digitsValue (Nat.toDigits 10 n) = n := by
  have hdigit : ∀ d < 10, digitValue? d.digitChar = some d := by decide
  induction n using Nat.strongRecOn with
  | ind n ih =>
    rcases Nat.lt_or_ge n 10 with hlt | hge
    · rw [Nat.toDigits_of_lt_base hlt, ← List.nil_append [_], digitsValue_append_singleton,
        hdigit n hlt, digitsValue_nil, Option.getD_some, Nat.mul_zero, Nat.zero_add]
    · rw [Nat.toDigits_of_base_le (by decide) hge, digitsValue_append_singleton,
        ih (n / 10) (Nat.div_lt_self (by omega) (by decide)),
        hdigit _ (Nat.mod_lt n (by decide)), Option.getD_some, Nat.div_add_mod]

end Text

namespace Numeral

variable {c : Char} {cs digits part tail : List Char} {negative : Bool}

/-! ## Decimals in ASCII -/

/-- What may stand behind the digits of a decimal: nothing, or an exponent with a sign. -/
inductive IsTail : List Char → Prop
  | none : IsTail []
  | exponent {sign : Char} {digits : List Char} (sign_mem : sign ∈ ['+', '-'])
      (isDigit : ∀ c ∈ digits, c.isDigit = true) (ne_nil : digits ≠ []) :
      IsTail ('e' :: sign :: digits)

/-- A decimal without a sign: digits without a point, or with one that has a digit on one of its
sides. -/
inductive IsDecimal : List Char → Prop
  | whole {digits tail : List Char} (isDigit : ∀ c ∈ digits, c.isDigit = true)
      (ne_nil : digits ≠ []) (isTail : IsTail tail) : IsDecimal (digits ++ tail)
  | point {digits part tail : List Char} (isDigit : ∀ c ∈ digits, c.isDigit = true)
      (isDigit_part : ∀ c ∈ part, c.isDigit = true) (ne_nil : digits ++ part ≠ [])
      (isTail : IsTail tail) : IsDecimal (digits ++ '.' :: (part ++ tail))

theorem IsDecimal.fixed {digits part : List Char} (isDigit : ∀ c ∈ digits, c.isDigit = true)
    (isDigit_part : ∀ c ∈ part, c.isDigit = true) (ne_nil : digits ++ part ≠ []) :
    IsDecimal (digits ++ '.' :: part) := by
  have h := IsDecimal.point isDigit isDigit_part ne_nil .none
  rwa [List.append_nil] at h

/-- The exponent that the tail of a decimal writes; where there is no tail, it is zero. -/
inductive WritesTail : List Char → Int → Prop
  | none : WritesTail [] 0
  | plus {digits : List Char} (isDigit : ∀ c ∈ digits, c.isDigit = true) (ne_nil : digits ≠ []) :
      WritesTail ('e' :: '+' :: digits) (digitsValue digits)
  | minus {digits : List Char} (isDigit : ∀ c ∈ digits, c.isDigit = true) (ne_nil : digits ≠ []) :
      WritesTail ('e' :: '-' :: digits) (-(digitsValue digits : Int))

/-- A decimal without a sign writes `n * 10 ^ e`; `p` tells which characters are its digits. -/
inductive Writes (p : Char → Bool) : List Char → Nat → Int → Prop
  | whole {digits tail : List Char} {e : Int} (isDigit : ∀ c ∈ digits, p c = true)
      (ne_nil : digits ≠ []) (writesTail : WritesTail tail e) :
      Writes p (digits ++ tail) (digitsValue digits) e
  | point {digits part tail : List Char} {e : Int} (isDigit : ∀ c ∈ digits, p c = true)
      (isDigit_part : ∀ c ∈ part, p c = true) (ne_nil : digits ++ part ≠ [])
      (writesTail : WritesTail tail e) :
      Writes p (digits ++ '.' :: (part ++ tail)) (digitsValue (digits ++ part)) (e - part.length)

theorem WritesTail.isTail {e : Int} (h : WritesTail tail e) : IsTail tail := by
  rcases h with _ | ⟨isDigit, ne_nil⟩ | ⟨isDigit, ne_nil⟩
  · exact .none
  · exact .exponent (by decide) isDigit ne_nil
  · exact .exponent (by decide) isDigit ne_nil

theorem IsTail.exists_writesTail (h : IsTail tail) : ∃ e, WritesTail tail e := by
  rcases h with _ | ⟨sign_mem, isDigit, ne_nil⟩
  · exact ⟨_, .none⟩
  · simp only [List.mem_cons, List.not_mem_nil, or_false] at sign_mem
    rcases sign_mem with rfl | rfl
    · exact ⟨_, .plus isDigit ne_nil⟩
    · exact ⟨_, .minus isDigit ne_nil⟩

theorem Writes.isDecimal {n : Nat} {e : Int} (h : Writes Char.isDigit cs n e) : IsDecimal cs := by
  rcases h with ⟨isDigit, ne_nil, writesTail⟩ | ⟨isDigit, isDigit_part, ne_nil, writesTail⟩
  · exact .whole isDigit ne_nil writesTail.isTail
  · exact .point isDigit isDigit_part ne_nil writesTail.isTail

theorem Writes.of_eq {p : Char → Bool} {cs' : List Char} {n n' : Nat} {e e' : Int}
    (h : Writes p cs n e) (hcs : cs = cs') (hn : n = n') (he : e = e') : Writes p cs' n' e' := by
  subst hcs hn he
  exact h

/-- **Every decimal writes a number.** -/
theorem IsDecimal.exists_writes (h : IsDecimal cs) : ∃ n e, Writes Char.isDigit cs n e := by
  rcases h with ⟨isDigit, ne_nil, isTail⟩ | ⟨isDigit, isDigit_part, ne_nil, isTail⟩
  · obtain ⟨e, htail⟩ := isTail.exists_writesTail
    exact ⟨_, _, .whole isDigit ne_nil htail⟩
  · obtain ⟨e, htail⟩ := isTail.exists_writesTail
    exact ⟨_, _, .point isDigit isDigit_part ne_nil htail⟩

/-- A decimal with a minus or without a sign. -/
def IsSigned (cs : List Char) : Prop := IsDecimal cs ∨ ∃ body, cs = '-' :: body ∧ IsDecimal body

/-- The characters of decimals. -/
def IsDecimalChar (c : Char) : Prop := c.isDigit = true ∨ c ∈ ['+', '-', '.', 'e']

theorem IsDecimalChar.isNumberChar (h : IsDecimalChar c) : IsNumberChar c := by
  have hmarks : ∀ c ∈ ['+', '-', '.', 'e'], IsNumberChar c :=
    List.all_iff_forall_prop.1 (by decide)
  exact h.elim .of_isDigit (hmarks c)

theorem IsTail.isDecimalChar (h : IsTail tail) : ∀ c ∈ tail, IsDecimalChar c := by
  intro c hc
  cases h with
  | none => exact absurd hc List.not_mem_nil
  | exponent sign_mem isDigit _ =>
    rcases List.mem_cons.1 hc with rfl | hc
    · exact Or.inr (by decide)
    rcases List.mem_cons.1 hc with rfl | hc
    · exact Or.inr (List.mem_append_left ['.', 'e'] sign_mem)
    · exact Or.inl (isDigit c hc)

theorem IsDecimal.isDecimalChar (h : IsDecimal cs) : ∀ c ∈ cs, IsDecimalChar c := by
  intro c hc
  cases h with
  | whole isDigit _ isTail =>
    rcases List.mem_append.1 hc with hc | hc
    · exact Or.inl (isDigit c hc)
    · exact isTail.isDecimalChar c hc
  | point isDigit isDigit_part _ isTail =>
    rcases List.mem_append.1 hc with hc | hc
    · exact Or.inl (isDigit c hc)
    rcases List.mem_cons.1 hc with rfl | hc
    · exact Or.inr (by decide)
    rcases List.mem_append.1 hc with hc | hc
    · exact Or.inl (isDigit_part c hc)
    · exact isTail.isDecimalChar c hc

theorem IsSigned.isDecimalChar (h : IsSigned cs) : ∀ c ∈ cs, IsDecimalChar c := by
  intro c hc
  rcases h with h | ⟨body, rfl, h⟩
  · exact h.isDecimalChar c hc
  · rcases List.mem_cons.1 hc with rfl | hc
    · exact Or.inr (by decide)
    · exact h.isDecimalChar c hc

theorem IsDecimal.ne_nil (h : IsDecimal cs) : cs ≠ [] := by
  cases h with
  | whole _ ne_nil _ => exact List.append_ne_nil_of_left_ne_nil ne_nil _
  | point => exact List.append_ne_nil_of_right_ne_nil _ (List.cons_ne_nil _ _)

theorem IsSigned.ne_nil (h : IsSigned cs) : cs ≠ [] := by
  rcases h with h | ⟨body, rfl, -⟩
  · exact h.ne_nil
  · exact List.cons_ne_nil _ _

/-! ### Reading them -/

theorem IsTail.head?_isDigit (h : IsTail tail) : ∀ c ∈ tail.head?, ¬ c.isDigit = true := by
  intro c hc
  cases h with
  | none => cases hc
  | exponent =>
    cases hc
    decide

theorem IsTail.fraction_eq (h : IsTail tail) : fraction tail = ([], tail) := by
  cases h with
  | none => rfl
  | exponent => rfl

theorem WritesTail.exponent?_eq {e : Int} (h : WritesTail tail e) : exponent? tail = some e := by
  rcases h with _ | ⟨isDigit, ne_nil⟩ | ⟨isDigit, ne_nil⟩
  · rfl
  · have hall := List.all_eq_true.2 isDigit
    simp [exponent?, signed, hall, ne_nil]
  · have hall := List.all_eq_true.2 isDigit
    simp [exponent?, signed, hall, ne_nil]

/-- A decimal starts with a digit or a point. -/
theorem IsDecimal.exists_cons (h : IsDecimal cs) :
    ∃ c rest, cs = c :: rest ∧ (c.isDigit = true ∨ c = '.') := by
  rcases h with ⟨isDigit, ne_nil, isTail⟩ | ⟨isDigit, isDigit_part, ne_nil, isTail⟩
  · rename_i digits tail
    obtain ⟨c, digits, rfl⟩ := List.exists_cons_of_ne_nil ne_nil
    exact ⟨c, _, rfl, Or.inl (isDigit c List.mem_cons_self)⟩
  · rename_i digits part tail
    rcases digits with _ | ⟨c, digits⟩
    · exact ⟨'.', _, rfl, Or.inr rfl⟩
    · exact ⟨c, _, rfl, Or.inl (isDigit c List.mem_cons_self)⟩

/-- What starts with a digit or a point is none of the words for numbers. -/
theorem word_ne_of_cons (hc : c.isDigit = true ∨ c = '.') {word : String}
    (hword : word.toList.head? = some 'n' ∨ word.toList.head? = some 'i') :
    String.ofList ((c :: cs).map Char.toLower) ≠ word := by
  rintro rfl
  have hlower : c.toLower = c := by
    refine dif_neg fun hupper => ?_
    have hupper : 0x41 ≤ c.toNat := hupper.1
    rcases hc with hdigit | rfl
    · have := toNat_of_isDigit hdigit
      omega
    · exact absurd hupper (by decide)
  rw [String.toList_ofList, List.map_cons, List.head?_cons, hlower] at hword
  have hletter : c = 'n' ∨ c = 'i' := hword.imp Option.some.inj Option.some.inj
  rcases hletter with rfl | rfl
  · exact absurd hc (by decide)
  · exact absurd hc (by decide)

/-- A decimal is none of the words for numbers. -/
theorem IsDecimal.word_ne (h : IsDecimal cs) {word : String} (hword : word.toList.head? = some 'n' ∨
    word.toList.head? = some 'i') : String.ofList (cs.map Char.toLower) ≠ word := by
  obtain ⟨c, rest, rfl, hc⟩ := h.exists_cons
  exact word_ne_of_cons hc hword

/-- **A decimal is read as the number that it writes**, rounded. -/
theorem Writes.unsigned?_eq {n : Nat} {e : Int} (h : Writes Char.isDigit cs n e) :
    unsigned? negative cs = some (.ofDecimal negative n e) := by
  unfold unsigned?
  simp only
  rw [if_neg (h.isDecimal.word_ne (by decide)), if_neg (not_or.2
    ⟨h.isDecimal.word_ne (by decide), h.isDecimal.word_ne (by decide)⟩)]
  rcases h with ⟨isDigit, ne_nil, writesTail⟩ | ⟨isDigit, isDigit_part, ne_nil, writesTail⟩
  · obtain ⟨htake, hdrop⟩ := span_iff.2 ⟨rfl, isDigit, writesTail.isTail.head?_isDigit⟩
    simp [htake, hdrop, writesTail.isTail.fraction_eq, ne_nil, writesTail.exponent?_eq]
  · rename_i digits part tail e
    have hpoint : ∀ c ∈ ('.' :: (part ++ tail)).head?, ¬ c.isDigit = true := by
      rintro c ⟨⟩
      decide
    obtain ⟨htake, hdrop⟩ := span_iff.2 ⟨rfl, isDigit, hpoint⟩
    obtain ⟨htake', hdrop'⟩ := span_iff.2 ⟨rfl, isDigit_part, writesTail.isTail.head?_isDigit⟩
    have hfraction : fraction ('.' :: (part ++ tail)) = (part, tail) := by
      rw [fraction, htake', hdrop']
    have hne : (digits ++ part).isEmpty = false := by simpa using ne_nil
    simp only [htake, hdrop, hfraction, hne]
    simp [writesTail.exponent?_eq]

theorem IsDecimal.isSome_unsigned? (h : IsDecimal cs) : (unsigned? negative cs).isSome = true := by
  obtain ⟨n, e, hwrites⟩ := h.exists_writes
  rw [hwrites.unsigned?_eq]
  rfl

/-- A decimal without a sign is read as such. -/
theorem IsDecimal.signed_eq (h : IsDecimal cs) : signed cs = (false, cs) := by
  obtain ⟨c, rest, rfl, hc⟩ := h.exists_cons
  unfold signed
  split
  · rename_i heq
    rw [(List.cons.inj heq).1] at hc
    exact absurd hc (by decide)
  · rename_i heq
    rw [(List.cons.inj heq).1] at hc
    exact absurd hc (by decide)
  · rfl

theorem underscoresFit_of_not_mem {before : Bool} (h : '_' ∉ cs) :
    underscoresFit before cs = true := by
  induction cs generalizing before with
  | nil => rfl
  | cons c cs ih =>
    obtain ⟨hc, hcs⟩ := not_or.1 (mt List.mem_cons.2 h)
    unfold underscoresFit
    split
    · rfl
    · rename_i heq
      exact absurd (List.cons.inj heq).1.symm hc
    · rename_i heq
      exact absurd (List.cons.inj heq).1.symm hc
    · rename_i heq
      obtain ⟨rfl, rfl⟩ := List.cons.inj heq
      exact ih hcs

theorem joined?_of_not_mem (h : '_' ∉ cs) : joined? cs = some cs := by
  have hfilter : cs.filter (· ≠ '_') = cs := by
    rw [List.filter_eq_self]
    intro c hc
    exact decide_eq_true (ne_of_mem_of_not_mem hc h)
  rw [joined?, if_pos (underscoresFit_of_not_mem h), hfilter]

/-- Where there is no white space, none is taken away. -/
theorem core_of_not_isPadding (h : ∀ c ∈ cs.map asciiChar, isPadding c = false) :
    core cs = cs.map asciiChar := by
  have hkeep : ∀ {xs : List Char}, (∀ c ∈ xs, isPadding c = false) →
      xs.dropWhile isPadding = xs := by
    intro xs hxs
    cases xs with
    | nil => rfl
    | cons x xs =>
      rw [List.dropWhile_cons_of_neg (Bool.eq_false_iff.1 (hxs x List.mem_cons_self))]
  rw [core, hkeep h, hkeep fun c hc => h c (List.mem_reverse.1 hc), List.reverse_reverse]

/-- What is a decimal once it is in ASCII has no white space around it. -/
theorem core_eq (h : IsSigned (cs.map asciiChar)) : core cs = cs.map asciiChar := by
  have hmarks : ∀ c ∈ ['+', '-', '.', 'e'], isPadding c = false :=
    List.all_iff_forall_prop.1 (by decide)
  refine core_of_not_isPadding fun c hc => ?_
  rcases h.isDecimalChar c hc with hdigit | hmem
  · obtain ⟨hlow, hhigh⟩ := toNat_of_isDigit hdigit
    have hblank : c ≠ ' ' := by
      rintro rfl
      exact absurd hdigit (by decide)
    simp only [isPadding, Bool.or_eq_false_iff, Bool.and_eq_false_iff, decide_eq_false_iff_not,
      beq_eq_false_iff_ne]
    exact ⟨hblank, by omega⟩
  · exact hmarks c hmem

/-- Nor has it underscores. -/
theorem IsSigned.not_mem_underscore (h : IsSigned cs) : '_' ∉ cs := by
  intro hmem
  rcases h.isDecimalChar _ hmem with hdigit | hmem
  · exact absurd hdigit (by decide)
  · exact absurd hmem (by decide)

/-- What is a decimal once it is in ASCII is read behind its sign. -/
theorem decimal?_eq (h : IsSigned (cs.map asciiChar)) : decimal? cs =
    unsigned? (signed (cs.map asciiChar)).1 (signed (cs.map asciiChar)).2 := by
  rw [decimal?, core_eq h, joined?_of_not_mem h.not_mem_underscore, Option.bind_some]

/-- **What is a decimal once it is in ASCII can be read.** -/
theorem isSome_decimal? (h : IsSigned (cs.map asciiChar)) : (decimal? cs).isSome = true := by
  rw [decimal?_eq h]
  rcases h with h | ⟨body, hbody, h⟩
  · rw [h.signed_eq]
    exact h.isSome_unsigned?
  · rw [hbody]
    exact h.isSome_unsigned?

/-- A decimal is in ASCII as it stands. -/
theorem map_asciiChar (h : ∀ c ∈ cs, IsDecimalChar c) : cs.map asciiChar = cs := by
  have hmarks : ∀ c ∈ ['+', '-', '.', 'e'], asciiChar c = c :=
    List.all_iff_forall_prop.1 (by decide)
  have hchar : ∀ c ∈ cs, asciiChar c = c := by
    intro c hc
    rcases h c hc with hdigit | hmem
    · have := toNat_of_isDigit hdigit
      rw [asciiChar, if_pos (by omega)]
    · exact hmarks c hmem
  rw [List.map_congr_left hchar, List.map_id']

/-- A decimal can be read as it stands. -/
theorem IsSigned.isSome_decimal? (h : IsSigned cs) : (decimal? cs).isSome = true := by
  refine Numeral.isSome_decimal? ?_
  rwa [map_asciiChar h.isDecimalChar]

/-! ### Other scripts -/

/-- A digit of any script stands for an ASCII digit. -/
theorem isDigit_asciiChar (h : isDigit c = true) : (asciiChar c).isDigit = true := by
  unfold asciiChar
  split
  · rename_i hascii
    have hzeros : ∀ z ∈ digitZeros, z = 0x30 ∨ 127 ≤ z := by decide
    obtain ⟨z, hz, hlow, hhigh⟩ := isDigit_iff.1 h
    have hrange : 0x30 ≤ c.toNat ∧ c.toNat ≤ 0x39 := by
      have := hzeros z hz
      omega
    simp only [Char.isDigit, Bool.and_eq_true, decide_eq_true_eq, ge_iff_le, UInt32.le_iff_toNat_le]
    exact hrange
  · rw [not_isSpace_of_isDigit h]
    obtain ⟨d, hd⟩ := Option.isSome_iff_exists.1 h
    have hdigits : ∀ d < 10, (Char.ofNat (0x30 + d)).isDigit = true := by decide
    simp only [hd, Bool.false_eq_true, if_false]
    exact hdigits d (digitValue?_lt hd)

end Numeral

/-! ## Spelled numbers -/

namespace Spelling

open Numeral

variable {sp : Spelling} {x : Binary64} {c : Char}

theorem isDigit_of_mem_toDigits {n : Nat} (h : c ∈ Nat.toDigits 10 n) : c.isDigit = true :=
  Nat.isDigit_of_mem_toDigits (by decide) (by decide) h

theorem isDigit_of_mem_replicate {n : Nat} (h : c ∈ List.replicate n '0') : c.isDigit = true := by
  rw [List.eq_of_mem_replicate h]
  rfl

/-- An exponent writes itself. -/
theorem writesTail_exponentText (sp : Spelling) (e : Int) :
    WritesTail (sp.exponentText e).toList e := by
  obtain ⟨zeros, hzeros⟩ : ∃ zeros, zeros = sp.exponentWidth - (Nat.toDigits 10 e.natAbs).length :=
    ⟨_, rfl⟩
  have hdigit : ∀ c ∈ List.replicate zeros '0' ++ Nat.toDigits 10 e.natAbs, c.isDigit = true := by
    intro c hc
    rcases List.mem_append.1 hc with hc | hc
    · exact isDigit_of_mem_replicate hc
    · exact isDigit_of_mem_toDigits hc
  have hne : List.replicate zeros '0' ++ Nat.toDigits 10 e.natAbs ≠ [] :=
    List.append_ne_nil_of_right_ne_nil _ Nat.toDigits_ne_nil
  have hvalue : digitsValue (List.replicate zeros '0' ++ Nat.toDigits 10 e.natAbs) = e.natAbs := by
    rw [digitsValue_replicate_append, digitsValue_toDigits]
  rw [exponentText, String.toList_ofList, ← hzeros]
  split
  · have hminus := WritesTail.minus hdigit hne
    have hsign : -((e.natAbs : Nat) : Int) = e := by omega
    rwa [hvalue, hsign] at hminus
  · have hplus := WritesTail.plus hdigit hne
    have hsign : ((e.natAbs : Nat) : Int) = e := by omega
    rwa [hvalue, hsign] at hplus

/-! The point has one of four places: behind the first digit, where an exponent follows; before all
the digits; behind all of them; or between two of them. -/

section Places

variable {digits : List Char} {e : Int} {point : Nat}

/-- With an exponent the first digit stands before the point, and the others, if there are any,
behind it. -/
theorem writes_scientific (sp : Spelling) (hdigits : ∀ c ∈ digits, c.isDigit = true)
    (hne : digits ≠ []) (e : Int) : Writes Char.isDigit
      (digits.take 1 ++ (if digits.length = 1 then [] else '.' :: digits.drop 1) ++
        (sp.exponentText ((digits.length : Int) + e - 1)).toList) (digitsValue digits) e := by
  obtain ⟨c, rest, rfl⟩ := List.exists_cons_of_ne_nil hne
  obtain ⟨hc, hrest⟩ := List.forall_mem_cons.1 hdigits
  have hfirst : ∀ d ∈ [c], d.isDigit = true := List.forall_mem_singleton.2 hc
  split
  · rename_i hone
    obtain rfl : rest = [] := List.eq_nil_of_length_eq_zero (Nat.succ.inj hone)
    refine (Writes.whole hfirst (List.cons_ne_nil _ _) (writesTail_exponentText sp _)).of_eq
      rfl rfl ?_
    rw [List.length_singleton]
    omega
  · refine (Writes.point hfirst hrest (List.cons_ne_nil _ _)
      (writesTail_exponentText sp (((c :: rest).length : Int) + e - 1))).of_eq ?_ rfl ?_
    · simp
    · rw [List.length_cons]
      omega

/-- Before the digits the point has a zero on its left, and zeros up to the first digit. -/
theorem writes_before (hdigits : ∀ c ∈ digits, c.isDigit = true)
    (hpoint : (digits.length : Int) + e ≤ 0) : Writes Char.isDigit
      ('0' :: '.' :: (List.replicate (-((digits.length : Int) + e)).toNat '0' ++ digits))
      (digitsValue digits) e := by
  have hzero : ∀ c ∈ ['0'], c.isDigit = true := List.all_iff_forall_prop.1 (by decide)
  have hpart : ∀ c ∈ List.replicate (-((digits.length : Int) + e)).toNat '0' ++ digits,
      c.isDigit = true :=
    List.forall_mem_append.2 ⟨fun c hc => isDigit_of_mem_replicate hc, hdigits⟩
  refine (Writes.point hzero hpart (List.cons_ne_nil _ _) .none).of_eq ?_ ?_ ?_
  · rw [List.append_nil]
    rfl
  · exact (digitsValue_replicate_append 1 _).trans (digitsValue_replicate_append _ _)
  · rw [List.length_append, List.length_replicate]
    omega

/-- Behind the digits zeros fill up the places to the point, and one stands on its right. -/
theorem writes_behind (hdigits : ∀ c ∈ digits, c.isDigit = true)
    (hpoint : (digits.length : Int) + e = point) (hlength : digits.length ≤ point) :
    Writes Char.isDigit (digits ++ List.replicate (point - digits.length) '0' ++ ['.', '0'])
      (digitsValue digits * Nat.pow 10 (point - digits.length + 1))
      (e - (point - digits.length + 1 : Nat)) := by
  have hzero : ∀ c ∈ ['0'], c.isDigit = true := List.all_iff_forall_prop.1 (by decide)
  have hfilled : ∀ c ∈ digits ++ List.replicate (point - digits.length) '0', c.isDigit = true :=
    List.forall_mem_append.2 ⟨hdigits, fun c hc => isDigit_of_mem_replicate hc⟩
  refine (Writes.point hfilled hzero (List.append_ne_nil_of_right_ne_nil _ (List.cons_ne_nil _ _))
    .none).of_eq rfl ?_ ?_
  · rw [List.append_assoc, ← List.replicate_succ', digitsValue_append, digitsValue_replicate,
      List.length_replicate, Nat.add_zero]
  · rw [List.length_singleton]
    omega

/-- Between two digits the point moves none of them. -/
theorem writes_between (hdigits : ∀ c ∈ digits, c.isDigit = true)
    (hpoint : (digits.length : Int) + e = point) (hlength : point < digits.length) :
    Writes Char.isDigit (digits.take point ++ '.' :: digits.drop point) (digitsValue digits) e := by
  have htake : ∀ c ∈ digits.take point, c.isDigit = true := fun c hc =>
    hdigits c (List.mem_of_mem_take hc)
  have hdrop : ∀ c ∈ digits.drop point, c.isDigit = true := fun c hc =>
    hdigits c (List.mem_of_mem_drop hc)
  refine (Writes.point htake hdrop ?_ .none).of_eq ?_ ?_ ?_
  · rw [List.take_append_drop]
    exact List.ne_nil_of_length_pos (Nat.zero_lt_of_lt hlength)
  · rw [List.append_nil]
  · rw [List.take_append_drop]
  · rw [List.length_drop]
    omega

end Places

/-- **A number that is spelled writes its value**, with further zeros or without. -/
theorem exists_writes_decimalText (sp : Spelling) (d : Binary64.Decimal) : ∃ k : Nat,
    Writes Char.isDigit (sp.decimalText d).toList (d.digits * Nat.pow 10 k) (d.exponent - k) := by
  have hdigits : ∀ c ∈ Nat.toDigits 10 d.digits, c.isDigit = true := fun c =>
    isDigit_of_mem_toDigits
  have hne : Nat.toDigits 10 d.digits ≠ [] := Nat.toDigits_ne_nil
  have hvalue := digitsValue_toDigits d.digits
  have hsame : ∀ {cs}, Writes Char.isDigit cs (digitsValue (Nat.toDigits 10 d.digits)) d.exponent →
      ∃ k : Nat, Writes Char.isDigit cs (d.digits * Nat.pow 10 k) (d.exponent - k) := fun h =>
    ⟨0, h.of_eq rfl (hvalue.trans (Nat.mul_one _).symm) (Int.sub_zero _).symm⟩
  unfold decimalText
  simp only
  generalize Nat.toDigits 10 d.digits = digits at hdigits hne hvalue hsame
  split
  · rw [String.toList_append, String.toList_ofList]
    exact hsame (writes_scientific sp hdigits hne d.exponent)
  split
  · rename_i hpoint
    rw [String.toList_ofList]
    exact hsame (writes_before hdigits hpoint)
  · rename_i hpoint
    obtain ⟨point, hpos⟩ : ∃ point : Nat, (digits.length : Int) + d.exponent = point :=
      ⟨_, (Int.toNat_of_nonneg (by omega)).symm⟩
    rw [String.toList_ofList, hpos, Int.toNat_natCast]
    rcases Nat.lt_or_ge point digits.length with hlength | hlength
    · have hdrop : (digits.drop point).isEmpty = false := by simpa using hlength
      rw [hdrop, Nat.sub_eq_zero_of_le (Nat.le_of_lt hlength), List.replicate_zero, List.append_nil]
      exact hsame (writes_between hdigits hpos hlength)
    · have hdrop : (digits.drop point).isEmpty = true := by simpa using hlength
      rw [hdrop, List.take_of_length_le hlength, ← hvalue]
      exact ⟨_, writes_behind hdigits hpos hlength⟩

/-- **A number that is spelled is a decimal.** -/
theorem isDecimal_decimalText (sp : Spelling) (d : Binary64.Decimal) :
    IsDecimal (sp.decimalText d).toList := by
  obtain ⟨k, hwrites⟩ := exists_writes_decimalText sp d
  exact hwrites.isDecimal

/-- A number is spelled by a word or as a decimal, with a minus or without a sign. -/
theorem text_cases (sp : Spelling) (x : Binary64) :
    sp.text x = sp.nan ∨ sp.text x = sp.infinity ∨ sp.text x = "-" ++ sp.infinity ∨
      IsSigned (sp.text x).toList := by
  cases x with
  | nan => exact Or.inl rfl
  | infinity negative =>
    cases negative with
    | false => exact Or.inr (Or.inl (String.empty_append))
    | true => exact Or.inr (Or.inr (Or.inl rfl))
  | finite negative mantissa exponent =>
    have hdecimal := isDecimal_decimalText sp (Binary64.shortest mantissa exponent)
    refine Or.inr (Or.inr (Or.inr ?_))
    rw [text, String.toList_append]
    cases negative with
    | false => exact Or.inl hdecimal
    | true => exact Or.inr ⟨_, rfl, hdecimal⟩

end Spelling

/-- The digits of a whole number are a decimal, with a minus or without a sign. -/
theorem isSigned_toString (n : Int) : Numeral.IsSigned (toString n).toList := by
  have hnat : ∀ m : Nat, Numeral.IsDecimal m.repr.toList := by
    intro m
    have h := Numeral.IsDecimal.whole (fun c => Spelling.isDigit_of_mem_toDigits (n := m))
      Nat.toDigits_ne_nil .none
    rwa [List.append_nil, ← Nat.toList_repr] at h
  change Numeral.IsSigned n.repr.toList
  rw [Int.repr_eq_if]
  split
  · exact Or.inl (hnat _)
  · exact Or.inr ⟨(-n).toNat.repr.toList, String.toList_append, hnat _⟩

namespace Size

open Numeral

variable {cs : List Char} {text : String}

/-- The texts of the numbers that a size may be: a string that is a number, or a JSON number as JSON
is written. -/
inductive NumberText : String → Prop
  | given {text : String} (isNumber : isNumber text.toList = true) : NumberText text
  | int (n : Int) : NumberText (Json.Value.int n).write
  | float (x : Binary64) : NumberText (Json.Value.float x).write

theorem signed_cases (cs : List Char) : cs = (signed cs).2 ∨ cs = '-' :: (signed cs).2 := by
  unfold signed
  split
  · exact Or.inr rfl
  · exact Or.inl rfl

/-- Behind its sign a number has digits of any script, with a point that has a digit on one of its
sides or without one. -/
theorem body_of_isNumber (h : isNumber cs = true) :
    ((∀ c ∈ (signed cs).2, isDigit c = true) ∧ (signed cs).2 ≠ []) ∨
      ∃ digits part, (signed cs).2 = digits ++ '.' :: part ∧ (∀ c ∈ digits, isDigit c = true) ∧
        (∀ c ∈ part, isDigit c = true) ∧ digits ++ part ≠ [] := by
  unfold isNumber at h
  simp only at h
  generalize (signed cs).2 = body at h
  have hbody : body.takeWhile isDigit ++ body.dropWhile isDigit = body :=
    List.takeWhile_append_dropWhile
  have hdigits : ∀ c ∈ body.takeWhile isDigit, isDigit c = true :=
    List.all_eq_true.1 List.all_takeWhile
  split at h
  · rename_i hrest
    rw [hrest, List.append_nil] at hbody
    rw [hbody] at h hdigits
    exact Or.inl ⟨hdigits, by simpa using h⟩
  · rename_i part hrest
    rw [Bool.and_eq_true, List.all_eq_true] at h
    rw [hrest] at hbody
    refine Or.inr ⟨_, part, hbody.symm, hdigits, h.1, fun hnil => ?_⟩
    obtain ⟨hdigits, hpart⟩ := List.append_eq_nil_iff.1 hnil
    simp [hdigits, hpart] at h
  · cases h

/-- **What the pattern of numbers accepts is a decimal** once it is in ASCII. -/
theorem isSigned_of_isNumber (h : isNumber cs = true) : IsSigned (cs.map asciiChar) := by
  have hascii : ∀ {xs : List Char}, (∀ c ∈ xs, isDigit c = true) →
      ∀ c ∈ xs.map asciiChar, c.isDigit = true := by
    intro xs hxs c hc
    obtain ⟨d, hd, rfl⟩ := List.mem_map.1 hc
    exact isDigit_asciiChar (hxs d hd)
  have hbody : IsDecimal ((signed cs).2.map asciiChar) := by
    rcases body_of_isNumber h with ⟨hdigits, hne⟩ | ⟨digits, part, hbody, hdigits, hpart, hne⟩
    · rw [← List.append_nil (List.map _ _)]
      exact .whole (hascii hdigits) (mt List.map_eq_nil_iff.1 hne) .none
    · rw [hbody, List.map_append, List.map_cons]
      refine .fixed (hascii hdigits) (hascii hpart) ?_
      rwa [← List.map_append, ne_eq, List.map_eq_nil_iff]
  rcases signed_cases cs with hcs | hcs
  · rw [hcs]
    exact Or.inl hbody
  · rw [hcs]
    exact Or.inr ⟨_, rfl, hbody⟩

namespace NumberText

/-- **Whatever is a number can be read as one.** -/
theorem isSome_decimal? (h : NumberText text) : (decimal? text.toList).isSome = true := by
  cases h with
  | given isNumber => exact Numeral.isSome_decimal? (isSigned_of_isNumber isNumber)
  | int n => exact (isSigned_toString n).isSome_decimal?
  | float x =>
    rw [Json.Value.write]
    rcases Json.spelling.text_cases x with h | h | h | h
    · rw [h]
      rfl
    · rw [h]
      rfl
    · rw [h]
      rfl
    · exact h.isSome_decimal?

/-- **The characters of the text of a number.** -/
theorem isNumberChar (h : NumberText text) : ∀ c ∈ text.toList, IsNumberChar c := by
  cases h with
  | given isNumber =>
    intro c hc
    have hbody : ∀ c ∈ (signed text.toList).2, IsNumberChar c := by
      intro c hc
      rcases body_of_isNumber isNumber with ⟨hdigits, -⟩ | ⟨digits, part, hbody, hdigits, hpart, -⟩
      · exact Or.inl (hdigits c hc)
      · rw [hbody, List.mem_append, List.mem_cons] at hc
        rcases hc with hc | rfl | hc
        · exact Or.inl (hdigits c hc)
        · decide
        · exact Or.inl (hpart c hc)
    rcases signed_cases text.toList with htext | htext
    · exact hbody c (htext ▸ hc)
    · rw [htext] at hc
      rcases List.mem_cons.1 hc with rfl | hc
      · decide
      · exact hbody c hc
  | int n => exact fun c hc => ((isSigned_toString n).isDecimalChar c hc).isNumberChar
  | float x =>
    rw [Json.Value.write]
    rcases Json.spelling.text_cases x with h | h | h | h
    · rw [h]
      exact List.all_iff_forall_prop.1 (by decide)
    · rw [h]
      exact List.all_iff_forall_prop.1 (by decide)
    · rw [h]
      exact List.all_iff_forall_prop.1 (by decide)
    · exact fun c hc => (h.isDecimalChar c hc).isNumberChar

end NumberText

end Size

/-! ## Numerals in generated code -/

namespace Python

open Numeral

variable {text numeral : String}

theorem isSome_numeral? (h : Size.NumberText text) : (numeral? text).isSome = true := by
  unfold numeral?
  split
  · rfl
  · rw [Option.isSome_map]
    exact h.isSome_decimal?

/-- **A numeral that is written** is a decimal or one of three words. -/
theorem numeral?_cases (h : numeral? text = some numeral) :
    numeral ∈ ["nan", "inf", "-inf"] ∨ IsSigned numeral.toList := by
  unfold numeral? at h
  split at h
  · cases h
    exact Or.inr (isSigned_toString _)
  · obtain ⟨x, -, rfl⟩ := Option.map_eq_some_iff.1 h
    rcases Spelling.plain.text_cases x with h | h | h | h
    · exact Or.inl (h ▸ by decide)
    · exact Or.inl (h ▸ by decide)
    · exact Or.inl (h ▸ by decide)
    · exact Or.inr h

theorem numeral_ne_nil (h : numeral? text = some numeral) : numeral.toList ≠ [] := by
  have hwords : ∀ word ∈ ["nan", "inf", "-inf"], word.toList ≠ [] := by decide
  rcases numeral?_cases h with hword | hsigned
  · exact hwords numeral hword
  · exact hsigned.ne_nil

/-- **The characters of a numeral.** -/
theorem isNumberChar_of_numeral? (h : numeral? text = some numeral) :
    ∀ c ∈ numeral.toList, IsNumberChar c := by
  rcases numeral?_cases h with hword | hsigned
  · have hwords : ∀ word ∈ ["nan", "inf", "-inf"], ∀ c ∈ word.toList, IsNumberChar c := by
      intro word hword
      exact List.all_iff_forall_prop.1 (by revert word; decide)
    exact hwords numeral hword
  · exact fun c hc => (hsigned.isDecimalChar c hc).isNumberChar

end Python

end DesignTokens
