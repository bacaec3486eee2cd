import DesignTokens.Proofs.Json.Literal
import DesignTokens.Proofs.Target.NumberLiteral

/-!
# Proofs/Json/Number — the numbers of JSON

A number in JSON is a minus or none, a whole number without zeros in front, a point with digits
behind it or none, and an exponent or none.  **The reader takes exactly these**, apart from its
words for infinity and for what is no number: it reads each of them as far as it goes, and what it
has read is one of them.

* `Lexeme` — the numbers of JSON.
* `Lexeme.scalar_append` — reading a number in front of what cannot continue it.
* `exists_lexeme` — what is read is a number or a word.
* `startsLong_of_scalar` — what is refused for its digits is a whole number.
-/

namespace DesignTokens.Json

open Text Python

variable {c : Char} {cs rest whole : List Char} {part : Option (List Char)} {v : Value}

/-! ## The grammar -/

/-- Digits in ASCII, one at least. -/
def AsciiRun (cs : List Char) : Prop := cs ≠ [] ∧ ∀ c ∈ cs, c.isDigit = true

/-- The exponent of a number: a letter, a sign or none, and digits. -/
structure Exponent where
  letter : Char
  sign : List Char
  digits : List Char
  letter_eq : letter = 'e' ∨ letter = 'E'
  sign_eq : sign = [] ∨ sign = ['+'] ∨ sign = ['-']
  digits_run : AsciiRun digits

namespace Exponent

def text (x : Exponent) : List Char := x.letter :: (x.sign ++ x.digits)

/-- Whether the sign is a minus. -/
def negative (x : Exponent) : Bool := x.sign == ['-']

/-- The power of ten that an exponent stands for. -/
def value (x : Exponent) : ℤ := Size.signedValue x.negative x.digits

end Exponent

/-- A number of JSON. -/
structure Lexeme where
  negative : Bool
  /-- The digits before the point. -/
  whole : List Char
  /-- The digits behind the point, if there is one. -/
  part : Option (List Char)
  exponent : Option Exponent
  whole_literal : IsIntLiteral whole
  part_run : ∀ digits ∈ part, AsciiRun digits

/-- A point with digits behind it. -/
def fractionText : Option (List Char) → List Char
  | none => []
  | some part => '.' :: part

/-- An exponent, if there is one. -/
def exponentText : Option Exponent → List Char
  | none => []
  | some x => x.text

namespace Lexeme

/-- What follows the sign of a number. -/
def body (l : Lexeme) : List Char := l.whole ++ (fractionText l.part ++ exponentText l.exponent)

def text (l : Lexeme) : List Char := Size.sign l.negative ++ l.body

/-- A number without a point and without an exponent. -/
def IsWhole (l : Lexeme) : Prop := l.part = none ∧ l.exponent = none

instance (l : Lexeme) : Decidable l.IsWhole :=
  decidable_of_iff (l.part.isNone = true ∧ l.exponent.isNone = true) (by simp [IsWhole])

/-- All digits of a number, read without its point. -/
def digits (l : Lexeme) : ℕ := digitsValue (l.whole ++ l.part.getD [])

/-- The power of ten that the digits of a number are multiplied with. -/
def power (l : Lexeme) : ℤ := (l.exponent.map Exponent.value).getD 0 - (l.part.getD []).length

/-- What a number is read as. -/
def value (l : Lexeme) : Value :=
  if l.IsWhole then .int (Size.signedValue l.negative l.whole)
  else .float (.ofDecimal l.negative l.digits l.power)

end Lexeme

/-! ## Reading the parts of a number -/

/-- What cannot continue a number: it starts with no digit, point or letter of an exponent. -/
def Ends (cs : List Char) : Prop :=
  ∀ c ∈ cs.head?, ¬ c.isDigit = true ∧ c ≠ '.' ∧ c ≠ 'e' ∧ c ≠ 'E'

theorem wholePart?_append (h : IsIntLiteral whole) (hrest : ∀ c ∈ rest.head?, ¬ c.isDigit = true) :
    wholePart? (whole ++ rest) = some (whole, rest) := by
  cases h with
  | zero => rfl
  | @digits c digits isDigit ne_zero =>
    obtain ⟨hc, hdigits⟩ := List.forall_mem_cons.1 isDigit
    obtain ⟨htake, hdrop⟩ := span_iff.2 ⟨rfl, hdigits, hrest⟩
    rw [List.cons_append, wholePart?, if_pos hc, htake, hdrop]
    exact ne_zero

theorem fractionPart?_append (h : ∀ digits ∈ part, AsciiRun digits)
    (hrest : ∀ c ∈ rest.head?, ¬ c.isDigit = true ∧ c ≠ '.') :
    fractionPart? (fractionText part ++ rest) = part.map fun digits => (digits, rest) := by
  cases part with
  | none =>
    cases rest with
    | nil => rfl
    | cons c rest =>
      rw [fractionText, List.nil_append, fractionPart?]
      · rfl
      · rintro d rest ⟨⟩
        exact (hrest '.' rfl).2 rfl
  | some digits =>
    obtain ⟨hne, hdigits⟩ := h digits rfl
    obtain ⟨c, digits, rfl⟩ := List.exists_cons_of_ne_nil hne
    obtain ⟨hc, hdigits⟩ := List.forall_mem_cons.1 hdigits
    obtain ⟨htake, hdrop⟩ := span_iff.2 ⟨rfl, hdigits, fun c hc => (hrest c hc).1⟩
    rw [fractionText, List.cons_append, List.cons_append, fractionPart?, if_pos hc, htake, hdrop]
    rfl

theorem Exponent.exponentSign_append (x : Exponent) (rest : List Char) :
    exponentSign (x.sign ++ (x.digits ++ rest)) = (x.negative, x.digits ++ rest) := by
  obtain ⟨hne, hdigits⟩ := x.digits_run
  rcases x.sign_eq with hsign | hsign | hsign
  · obtain ⟨c, digits, hcons⟩ := List.exists_cons_of_ne_nil hne
    have hc : c.isDigit = true := hdigits c (hcons ▸ List.mem_cons_self)
    rw [Exponent.negative, hsign, hcons]
    unfold exponentSign
    split
    · rename_i heq
      exact absurd ((List.cons.inj heq).1 ▸ hc) (by decide)
    · rename_i heq
      exact absurd ((List.cons.inj heq).1 ▸ hc) (by decide)
    · rfl
  · rw [Exponent.negative, hsign]
    rfl
  · rw [Exponent.negative, hsign]
    rfl

theorem exponentPart?_append {x : Option Exponent} (hrest : Ends rest) :
    exponentPart? (exponentText x ++ rest) = x.map fun x => (x.value, rest) := by
  cases x with
  | none =>
    cases rest with
    | nil => rfl
    | cons c rest =>
      obtain ⟨-, -, he, hE⟩ := hrest c rfl
      have hletter : ¬ ((c = 'e' ∨ c = 'E') ∧
          (exponentSign rest).2.takeWhile Char.isDigit ≠ []) := fun h => h.1.elim he hE
      rw [exponentText, List.nil_append, exponentPart?]
      exact if_neg hletter
  | some x =>
    obtain ⟨hne, hdigits⟩ := x.digits_run
    obtain ⟨htake, hdrop⟩ := span_iff.2 ⟨rfl, hdigits, fun c hc => (hrest c hc).1⟩
    rw [exponentText, Exponent.text, List.cons_append, List.append_assoc, exponentPart?,
      x.exponentSign_append]
    simp only [htake, hdrop]
    exact if_pos ⟨x.letter_eq, hne⟩

/-! ## Reading a number -/

namespace Lexeme

variable {l : Lexeme}

/-- The digits before the point end where the point is, or the exponent, or the number. -/
theorem head?_exponentText (l : Lexeme) (hrest : Ends rest) :
    ∀ c ∈ (exponentText l.exponent ++ rest).head?, ¬ c.isDigit = true ∧ c ≠ '.' := by
  intro c hc
  cases hexponent : l.exponent with
  | none =>
    rw [hexponent] at hc
    exact ⟨(hrest c hc).1, (hrest c hc).2.1⟩
  | some x =>
    rw [hexponent] at hc
    cases hc
    rcases x.letter_eq with hletter | hletter <;> rw [hletter] <;> decide

theorem head?_fractionText (l : Lexeme) (hrest : Ends rest) :
    ∀ c ∈ (fractionText l.part ++ (exponentText l.exponent ++ rest)).head?,
      ¬ c.isDigit = true := by
  intro c hc
  cases hpart : l.part with
  | none =>
    rw [hpart] at hc
    exact (l.head?_exponentText hrest c hc).1
  | some digits =>
    rw [hpart] at hc
    cases hc
    decide

theorem body_append (l : Lexeme) (rest : List Char) : l.body ++ rest =
    l.whole ++ (fractionText l.part ++ (exponentText l.exponent ++ rest)) := by
  rw [body, List.append_assoc, List.append_assoc]

/-- What is read of a number, once its parts are. -/
theorem unsigned_eq (l : Lexeme) (start : List Char)
    (hwhole : wholePart? (l.body ++ rest) =
      some (l.whole, fractionText l.part ++ (exponentText l.exponent ++ rest)))
    (hfraction : fractionPart? (fractionText l.part ++ (exponentText l.exponent ++ rest)) =
      l.part.map fun digits => (digits, exponentText l.exponent ++ rest))
    (hexponent : exponentPart? (exponentText l.exponent ++ rest) =
      l.exponent.map fun x => (x.value, rest)) :
    unsigned start l.negative (l.body ++ rest) =
      if l.IsWhole ∧ digitLimit < l.whole.length then .error (.digits ⟨l.whole.length⟩)
      else .ok (l.value, rest) := by
  have hpart : (l.part.map fun digits => (digits, exponentText l.exponent ++ rest)).getD
      ([], fractionText l.part ++ (exponentText l.exponent ++ rest)) =
        (l.part.getD [], exponentText l.exponent ++ rest) := by
    cases l.part <;> rfl
  have hpower : (l.exponent.map fun x => (x.value, rest)).getD
      (0, exponentText l.exponent ++ rest) = ((l.exponent.map Exponent.value).getD 0, rest) := by
    cases l.exponent <;> rfl
  have hsome : (l.part.isSome || l.exponent.isSome) = true ↔ ¬ l.IsWhole := by
    rw [IsWhole, ← Option.not_isSome_iff_eq_none, ← Option.not_isSome_iff_eq_none, Bool.or_eq_true]
    tauto
  rw [unsigned, hwhole]
  simp only [hfraction, hpart, hexponent, hpower, Option.isSome_map, value]
  by_cases h : l.IsWhole
  · rw [if_neg (mt hsome.1 (not_not.2 h)), if_pos h, readDigits]
    by_cases hlimit : l.whole.length ≤ digitLimit
    · rw [if_pos hlimit, if_neg (mt And.right (not_lt.2 hlimit))]
      rfl
    · rw [if_neg hlimit, if_pos ⟨h, lt_of_not_ge hlimit⟩]
  · rw [if_pos (hsome.2 h), if_neg h, if_neg (mt And.left h)]
    rfl

/-- **What follows the sign of a number is read as far as it goes.** -/
theorem unsigned_append (l : Lexeme) (hlimit : l.IsWhole → l.whole.length ≤ digitLimit)
    (start : List Char) (hrest : Ends rest) :
    unsigned start l.negative (l.body ++ rest) = .ok (l.value, rest) := by
  have hwhole := wholePart?_append l.whole_literal (l.head?_fractionText hrest)
  rw [← body_append] at hwhole
  rw [l.unsigned_eq start hwhole (fractionPart?_append l.part_run (l.head?_exponentText hrest))
    (exponentPart?_append hrest), if_neg fun h => absurd (hlimit h.1) (not_le.2 h.2)]

/-- What follows the sign of a number starts with a digit. -/
theorem body_eq_cons (l : Lexeme) : ∃ c cs, l.body = c :: cs ∧ c.isDigit = true := by
  obtain ⟨c, cs, hwhole, hc⟩ := l.whole_literal.eq_cons
  exact ⟨c, _, by rw [body, hwhole]; rfl, hc c List.mem_cons_self⟩

end Lexeme

/-- No word starts with a digit. -/
theorem find?_words_digit (hc : c.isDigit = true) (cs : List Char) :
    (words.find? fun w => w.1.isPrefixOf (c :: cs)) = none := by
  refine List.find?_eq_none.2 fun w hw hprefix => ?_
  obtain ⟨rest, hrest⟩ := List.isPrefixOf_iff_prefix.1 hprefix
  simp only [words, List.mem_cons, List.not_mem_nil, or_false] at hw
  rcases hw with rfl | rfl | rfl | rfl | rfl | rfl <;>
    exact absurd ((List.cons.inj hrest).1 ▸ hc) (by decide)

/-- No word has a digit behind a minus. -/
theorem find?_words_minus (hc : c.isDigit = true) (cs : List Char) :
    (words.find? fun w => w.1.isPrefixOf ('-' :: c :: cs)) = none := by
  refine List.find?_eq_none.2 fun w hw hprefix => ?_
  obtain ⟨rest, hrest⟩ := List.isPrefixOf_iff_prefix.1 hprefix
  simp only [words, List.mem_cons, List.not_mem_nil, or_false] at hw
  rcases hw with rfl | rfl | rfl | rfl | rfl | rfl
  iterate 5 exact absurd (List.cons.inj hrest).1 (by decide)
  exact absurd ((List.cons.inj (List.cons.inj hrest).2).1 ▸ hc) (by decide)

namespace Lexeme

/-- **A number is none of the words**, and is read as far as it goes. -/
theorem scalar_append (l : Lexeme) (hlimit : l.IsWhole → l.whole.length ≤ digitLimit)
    (hrest : Ends rest) : scalar (l.text ++ rest) = .ok (l.value, rest) := by
  obtain ⟨c, cs, hbody, hc⟩ := l.body_eq_cons
  have hread := fun start => l.unsigned_append hlimit start hrest
  rw [hbody, List.cons_append] at hread
  rw [text, hbody]
  cases hnegative : l.negative with
  | true =>
    rw [hnegative] at hread
    have hwords := find?_words_minus hc (cs ++ rest)
    change scalar ('-' :: c :: (cs ++ rest)) = _
    rw [scalar, hwords]
    exact hread _
  | false =>
    rw [hnegative] at hread
    have hwords := find?_words_digit hc (cs ++ rest)
    change scalar (c :: (cs ++ rest)) = _
    rw [scalar, hwords]
    · exact hread _
    · rintro cs heq
      exact absurd ((List.cons.inj heq).1 ▸ hc) (by decide)

end Lexeme

/-! ## What is read is a number -/

variable {negative : Bool} {digits : List Char} {n : ℤ} {start : List Char}

theorem isIntLiteral_of_wholePart? (h : wholePart? cs = some (whole, rest)) :
    IsIntLiteral whole ∧ cs = whole ++ rest := by
  unfold wholePart? at h
  split at h
  · cases h
  · cases h
    exact ⟨.zero, rfl⟩
  · rename_i c rest' hzero
    split at h
    · rename_i hc
      cases h
      refine ⟨.digits (List.forall_mem_cons.2 ⟨hc, List.all_eq_true.1 List.all_takeWhile⟩)
        fun h => hzero h, ?_⟩
      rw [List.cons_append, List.takeWhile_append_dropWhile]
    · cases h

/-- Behind more than one digit there is no further one. -/
theorem head?_of_wholePart? (h : wholePart? cs = some (whole, rest)) (hlong : 1 < whole.length) :
    ∀ c ∈ rest.head?, ¬ c.isDigit = true := by
  unfold wholePart? at h
  split at h
  · cases h
  · cases h
    exact absurd hlong (by decide)
  · split at h
    · cases h
      exact (span_iff.1 ⟨rfl, rfl⟩).2.2
    · cases h

theorem append_of_fractionPart? (h : fractionPart? cs = some (digits, rest)) :
    AsciiRun digits ∧ cs = fractionText (some digits) ++ rest := by
  unfold fractionPart? at h
  split at h
  · rename_i c rest'
    split at h
    · rename_i hc
      cases h
      refine ⟨⟨List.cons_ne_nil _ _,
        List.forall_mem_cons.2 ⟨hc, List.all_eq_true.1 List.all_takeWhile⟩⟩, ?_⟩
      rw [fractionText, List.cons_append, List.cons_append, List.takeWhile_append_dropWhile]
    · cases h
  · cases h

theorem append_of_exponentSign (cs : List Char) : ∃ sign, (sign = [] ∨ sign = ['+'] ∨ sign = ['-']) ∧
    cs = sign ++ (exponentSign cs).2 ∧ (exponentSign cs).1 = (sign == ['-']) := by
  unfold exponentSign
  split
  · exact ⟨['-'], by decide, rfl, rfl⟩
  · exact ⟨['+'], by decide, rfl, rfl⟩
  · exact ⟨[], by decide, rfl, rfl⟩

theorem append_of_exponentPart? (h : exponentPart? cs = some (n, rest)) :
    ∃ x : Exponent, cs = exponentText (some x) ++ rest ∧ x.value = n := by
  unfold exponentPart? at h
  split at h
  · cases h
  · rename_i c rest'
    obtain ⟨sign, hsign, hcs, hnegative⟩ := append_of_exponentSign rest'
    simp only at h
    split at h
    · rename_i hletter
      cases h
      have hdigits : ∀ c ∈ (exponentSign rest').2.takeWhile Char.isDigit, c.isDigit = true :=
        List.all_eq_true.1 List.all_takeWhile
      refine ⟨⟨c, sign, _, hletter.1, hsign, hletter.2, hdigits⟩, ?_, ?_⟩
      · rw [exponentText, Exponent.text, List.cons_append, List.append_assoc,
          List.takeWhile_append_dropWhile, ← hcs]
      · rw [Exponent.value, Exponent.negative, ← hnegative]
        rfl
    · cases h

/-- What is read for a fraction is one, or nothing is. -/
theorem exists_fractionText (cs : List Char) : ∃ part : Option (List Char),
    (∀ digits ∈ part, AsciiRun digits) ∧ ∃ rest, cs = fractionText part ++ rest ∧
      fractionPart? cs = part.map fun digits => (digits, rest) := by
  cases hpart : fractionPart? cs with
  | none => exact ⟨none, by simp, cs, rfl, rfl⟩
  | some p =>
    obtain ⟨hrun, happend⟩ := append_of_fractionPart? hpart
    exact ⟨some p.1, fun _ h => Option.some.inj h ▸ hrun, p.2, happend, rfl⟩

/-- What is read for an exponent is one, or nothing is. -/
theorem exists_exponentText (cs : List Char) : ∃ exponent : Option Exponent, ∃ rest,
    cs = exponentText exponent ++ rest ∧
      exponentPart? cs = exponent.map fun x => (x.value, rest) := by
  cases hexponent : exponentPart? cs with
  | none => exact ⟨none, cs, rfl, rfl⟩
  | some p =>
    obtain ⟨x, happend, hvalue⟩ := append_of_exponentPart? hexponent
    exact ⟨some x, p.2, happend, by rw [Option.map_some, hvalue]⟩

/-- A whole number that is too long stands at the front of a text, and no further digit, no fraction
and no exponent follows it. -/
def StartsLong (cs : List Char) : Prop :=
  ∃ (l : Lexeme) (rest : List Char), cs = l.text ++ rest ∧ l.IsWhole ∧
    digitLimit < l.whole.length ∧ (∀ c ∈ rest.head?, ¬ c.isDigit = true) ∧
    fractionPart? rest = none ∧ exponentPart? rest = none

/-- What stands behind the sign of a number is what follows the sign of one, and it is read unless
it is whole and too long. -/
theorem unsigned_cases (start : List Char) (negative : Bool) {w : List Char × List Char}
    (hwhole : wholePart? cs = some w) : ∃ (l : Lexeme) (rest : List Char),
      l.negative = negative ∧ cs = l.body ++ rest ∧
      (unsigned start negative cs = .ok (l.value, rest) ∨
        StartsLong (l.text ++ rest) ∧
          unsigned start negative cs = .error (.digits ⟨l.whole.length⟩)) := by
  obtain ⟨whole, rest₁⟩ := w
  obtain ⟨hliteral, rfl⟩ := isIntLiteral_of_wholePart? hwhole
  have hhead := head?_of_wholePart? hwhole
  obtain ⟨part, hrun, rest₂, rfl, hpart⟩ := exists_fractionText rest₁
  obtain ⟨exponent, rest₃, rfl, hexponent⟩ := exists_exponentText rest₂
  let l : Lexeme := ⟨negative, whole, part, exponent, hliteral, hrun⟩
  have hbody : l.body ++ rest₃ =
      whole ++ (fractionText part ++ (exponentText exponent ++ rest₃)) := l.body_append rest₃
  have hread := l.unsigned_eq start (hbody ▸ hwhole) hpart hexponent
  rw [hbody] at hread
  refine ⟨l, rest₃, rfl, hbody.symm, ?_⟩
  by_cases h : l.IsWhole ∧ digitLimit < l.whole.length
  · rw [if_pos h] at hread
    obtain ⟨⟨hnone, hnone'⟩, hlong⟩ := h
    obtain rfl : part = none := hnone
    obtain rfl : exponent = none := hnone'
    exact Or.inr ⟨⟨l, rest₃, rfl, ⟨rfl, rfl⟩, hlong, hhead (Nat.lt_trans (by decide) hlong), hpart,
      hexponent⟩, hread⟩
  · rw [if_neg h] at hread
    exact Or.inl hread

/-- What is read behind the sign of a number is what follows the sign of one. -/
theorem exists_lexeme_of_unsigned (h : unsigned start negative cs = .ok (v, rest)) :
    ∃ l : Lexeme, l.negative = negative ∧ cs = l.body ++ rest ∧ v = l.value := by
  cases hwhole : wholePart? cs with
  | none =>
    rw [unsigned, hwhole] at h
    cases h
  | some w =>
    obtain ⟨l, rest', hnegative, hcs, hread | ⟨-, hread⟩⟩ := unsigned_cases start negative hwhole
    · cases h.symm.trans hread
      exact ⟨l, hnegative, hcs, rfl⟩
    · cases h.symm.trans hread

/-- What is refused for its digits, together with its sign. -/
theorem startsLong_of_unsigned {e : TooManyDigits}
    (h : unsigned start negative cs = .error (.digits e)) :
    StartsLong (Size.sign negative ++ cs) := by
  cases hwhole : wholePart? cs with
  | none =>
    rw [unsigned, hwhole] at h
    cases h
  | some w =>
    obtain ⟨l, rest', hnegative, hcs, hread | ⟨hlong, -⟩⟩ := unsigned_cases start negative hwhole
    · cases h.symm.trans hread
    · rwa [Lexeme.text, hnegative, List.append_assoc, ← hcs] at hlong

/-- **What is read is a word or a number of JSON.** -/
theorem exists_lexeme (h : scalar cs = .ok (v, rest)) :
    (∃ w ∈ words, cs = w.1 ++ rest ∧ v = w.2) ∨ ∃ l : Lexeme, cs = l.text ++ rest ∧ v = l.value := by
  unfold scalar at h
  split at h
  · rename_i w hw
    have hprefix : w.1.isPrefixOf cs = true :=
      List.find?_some (p := fun w : List Char × Value => w.1.isPrefixOf cs) hw
    obtain ⟨rest', rfl⟩ := List.isPrefixOf_iff_prefix.1 hprefix
    rw [List.drop_left] at h
    cases h
    exact Or.inl ⟨w, List.mem_of_find?_eq_some hw, rfl, rfl⟩
  · right
    split at h
    · obtain ⟨l, hnegative, hbody, hv⟩ := exists_lexeme_of_unsigned h
      exact ⟨l, by rw [Lexeme.text, hnegative, hbody]; rfl, hv⟩
    · obtain ⟨l, hnegative, hbody, hv⟩ := exists_lexeme_of_unsigned h
      exact ⟨l, by rw [Lexeme.text, hnegative, hbody]; rfl, hv⟩

/-- **What is refused for its digits is a whole number that is too long.** -/
theorem startsLong_of_scalar {e : TooManyDigits} (h : scalar cs = .error (.digits e)) :
    StartsLong cs := by
  unfold scalar at h
  split at h
  · cases h
  · split at h
    · exact startsLong_of_unsigned h
    · exact startsLong_of_unsigned h

/-! ## Objects of one member -/

/-- The text of an object of one member. -/
def objectText (name : String) (cs : List Char) : List Char :=
  '\x7b' :: ((literal name).toList ++ ':' :: ' ' :: (cs ++ ['\x7d']))

theorem skipBlank_cons (hc : isBlankChar c = false) (cs : List Char) :
    skipBlank (c :: cs) = c :: cs := List.dropWhile_cons_of_neg (by rw [hc]; decide)

/-- **An object of one member is read where its value is.** -/
theorem value_objectText (name : String) (rest : List Char) {fuel room : ℕ}
    (hblank : ∀ c ∈ cs.head?, isBlankChar c = false)
    (h : value fuel room (cs ++ '\x7d' :: rest) = .ok (v, '\x7d' :: rest)) :
    value (fuel + 2) (room + 1) (objectText name cs ++ rest) = .ok (.object [(name, v)], rest) := by
  obtain ⟨body, hbody, hread⟩ := string_literal name (':' :: ' ' :: (cs ++ '\x7d' :: rest))
  have htext : objectText name cs ++ rest = '\x7b' :: '"' :: body := by
    rw [← hbody, objectText, List.cons_append, List.append_assoc]
    simp
  have hskip : skipBlank (' ' :: (cs ++ '\x7d' :: rest)) = cs ++ '\x7d' :: rest := by
    cases cs with
    | nil => rfl
    | cons c cs => exact skipBlank_cons (hblank c rfl) _
  have hquote : skipBlank ('"' :: body) = '"' :: body := skipBlank_cons (by decide) _
  have hcolon : skipBlank (':' :: ' ' :: (cs ++ '\x7d' :: rest)) =
      ':' :: ' ' :: (cs ++ '\x7d' :: rest) := skipBlank_cons (by decide) _
  have hbrace : skipBlank ('\x7d' :: rest) = '\x7d' :: rest := skipBlank_cons (by decide) _
  have hmembers : members (fuel + 1) room ('"' :: body) = .ok ([(name, v)], rest) := by
    rw [members, hread]
    simp only [bind, Except.bind, hcolon, hskip, h, hbrace]
    rfl
  rw [htext, value, hquote]
  change Except.map _ (members (fuel + 1) room ('"' :: body)) = _
  rw [hmembers]
  rfl

namespace Lexeme

theorem text_append_eq_cons (l : Lexeme) (rest : List Char) :
    ∃ c cs, l.text ++ rest = c :: cs ∧ (c.isDigit = true ∨ c = '-') := by
  obtain ⟨c, cs, hbody, hc⟩ := l.body_eq_cons
  rw [text, hbody]
  cases l.negative with
  | true => exact ⟨'-', _, rfl, Or.inr rfl⟩
  | false => exact ⟨c, _, rfl, Or.inl hc⟩

/-- **A number is read where a value is.** -/
theorem value_append (l : Lexeme) (hlimit : l.IsWhole → l.whole.length ≤ digitLimit)
    (fuel room : ℕ) (hrest : Ends rest) :
    Json.value (fuel + 1) room (l.text ++ rest) = .ok (l.value, rest) := by
  rw [← l.scalar_append hlimit hrest]
  obtain ⟨c, cs, htext, hc⟩ := l.text_append_eq_cons rest
  rw [htext, Json.value]
  -- a minus and a digit are neither a quote nor a bracket
  all_goals
    intro rest heq
    obtain ⟨rfl, -⟩ := List.cons.inj heq
    exact absurd hc (by decide)

/-- The text of a file with one entry, whose value is a number. -/
def fileText (key : String) (l : Lexeme) : List Char := objectText key (objectText "value" l.text)

/-- No white space stands before a number. -/
theorem head?_text_not_blank (l : Lexeme) : ∀ c ∈ l.text.head?, isBlankChar c = false := by
  obtain ⟨c, cs, htext, hc⟩ := l.text_append_eq_cons []
  rw [List.append_nil] at htext
  rw [htext]
  rintro c ⟨⟩
  refine Bool.eq_false_iff.2 fun hblank => ?_
  simp only [isBlankChar, Bool.or_eq_true, beq_iff_eq] at hblank
  rcases hblank with ((rfl | rfl) | rfl) | rfl <;> exact absurd hc (by decide)

/-- **A file with one entry is read** as that entry. -/
theorem read_fileText (l : Lexeme) (hlimit : l.IsWhole → l.whole.length ≤ digitLimit)
    (key : String) (room : ℕ) :
    read (room + 2) (l.fileText key) = .ok (.object [(key, .object [("value", l.value)])]) := by
  have hbrace : ∀ cs, Ends ('\x7d' :: cs) := by
    rintro cs c ⟨⟩
    decide
  have hentry : ∀ c ∈ (objectText "value" l.text).head?, isBlankChar c = false := by
    rintro c ⟨⟩
    decide
  obtain ⟨k, hk⟩ : ∃ k, 2 * (l.fileText key).length + 2 = k + 1 + 2 + 2 := by
    have hlength : 2 ≤ (l.fileText key).length := by
      simp only [fileText, objectText, List.length_cons, List.length_append]
      omega
    exact ⟨_, (Nat.sub_add_cancel (by omega : 1 + 2 + 2 ≤ 2 * (l.fileText key).length + 2)).symm⟩
  have hvalue := value_objectText key [] hentry
    (value_objectText "value" _ l.head?_text_not_blank (l.value_append hlimit k room (hbrace _)))
  have hdocument : document (room + 2) (l.fileText key) =
      .ok (.object [(key, .object [("value", l.value)])]) := by
    have hskip : skipBlank (l.fileText key) = l.fileText key := skipBlank_cons (by decide) _
    rw [List.append_nil, ← fileText] at hvalue
    rw [document, hskip, hk, hvalue]
    · rfl
    · rintro rest heq
      exact absurd (List.cons.inj heq).1 (by decide)
  rw [read, hdocument]

end Lexeme

end DesignTokens.Json
