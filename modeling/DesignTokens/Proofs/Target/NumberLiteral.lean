import DesignTokens.Proofs.Number.Reading
import DesignTokens.Proofs.Target.Python

/-!
# Proofs/Target/NumberLiteral — numbers as literals of Python

A run of digits that is not too long is written as **the whole number that it is**, and any other
number as the double-precision number nearest to it.  Both are literals of Python, but the words for
infinity and for what is no number are none: they are written where a number is past the finite
ones.

* `Python.denotesWhole_toString`, `Python.denotesFloat_text` — what is written are literals.
* `render_python_number` — every number that a size may be.
-/

namespace DesignTokens

open Text Numeral

namespace Size

variable {body : List Char} {text : String} {raw : Json.Value}

/-! ## What the texts of numbers write -/

/-- The words for numbers in JSON that are not finite, with what Python has for them. -/
def numberWords : List (String × String) :=
  [("NaN", "nan"), ("Infinity", "inf"), ("-Infinity", "-inf")]

theorem IsUnsigned.exists_writes (h : IsUnsigned body) : ∃ n e, Writes isDigit body n e := by
  rcases h with digits_run | ⟨digits_run, isDigit_part⟩ | part_run
  · have hwrites := Writes.whole digits_run.2 digits_run.1 .none
    rw [List.append_nil] at hwrites
    exact ⟨_, _, hwrites⟩
  · have hwrites := Writes.point digits_run.2 isDigit_part
      (List.append_ne_nil_of_left_ne_nil digits_run.1 _) .none
    rw [List.append_nil] at hwrites
    exact ⟨_, _, hwrites⟩
  · have hnone : ∀ c ∈ ([] : List Char), isDigit c = true := List.forall_mem_nil _
    have hwrites := Writes.point hnone part_run.2 part_run.1 .none
    rw [List.append_nil] at hwrites
    exact ⟨_, _, hwrites⟩

/-- The text of a whole number is its digits behind its sign. -/
theorem toList_toString (n : ℤ) :
    (toString n).toList = sign (decide (n < 0)) ++ Nat.toDigits 10 n.natAbs := by
  change n.repr.toList = _
  rw [Int.repr_eq_if]
  split
  · rename_i hn
    have habs : n.toNat = n.natAbs := by omega
    rw [decide_eq_false (by omega), Nat.toList_repr, habs]
    rfl
  · rename_i hn
    have habs : (-n).toNat = n.natAbs := by omega
    rw [decide_eq_true (by omega), String.toList_append, Nat.toList_repr, habs]
    rfl

theorem digitRun_toDigits (n : ℕ) : DigitRun (Nat.toDigits 10 n) :=
  ⟨Nat.toDigits_ne_nil, fun _ hc => isDigit_of_isDigit (Spelling.isDigit_of_mem_toDigits hc)⟩

/-- **The text of a number** is a word, or writes a number behind a minus or without a sign. -/
theorem NumberText.cases (h : NumberText text) : (∃ word, (text, word) ∈ numberWords) ∨
    ∃ negative body n e, text.toList = sign negative ++ body ∧ Writes isDigit body n e := by
  rcases h with isNumber | n | x
  · obtain ⟨negative, body, hbody, htext⟩ := isNumber_iff.1 isNumber
    obtain ⟨n, e, hwrites⟩ := hbody.exists_writes
    exact Or.inr ⟨negative, body, n, e, htext, hwrites⟩
  · obtain ⟨k, e, hwrites⟩ := (IsUnsigned.whole (digitRun_toDigits n.natAbs)).exists_writes
    exact Or.inr ⟨_, _, k, e, toList_toString n, hwrites⟩
  · rcases x with _ | negative | ⟨negative, m, e⟩
    · exact Or.inl ⟨"nan", List.mem_cons_self⟩
    · cases negative with
      | false => exact Or.inl ⟨"inf", by decide⟩
      | true => exact Or.inl ⟨"-inf", by decide⟩
    · obtain ⟨k, hwrites⟩ :=
        Spelling.exists_writes_decimalText Json.spelling (Binary64.shortest m e)
      exact Or.inr ⟨negative, _, _, _, Spelling.toList_text _ negative m e, hwrites.isDigit⟩

theorem numberText_of_read (h : read raw = .ok (.number text)) : NumberText text := by
  obtain ⟨numberText⟩ := isSize_of_read h
  exact numberText

end Size

namespace Python

variable {cs : List Char} {text : String} {n : ℕ} {e : ℤ} {m : ℕ} {negative : Bool}

/-! ## Literals -/

/-- A whole number in base ten as Python writes it: zero alone, or digits of which zero is not the
first. -/
inductive IsIntLiteral : List Char → Prop
  | zero : IsIntLiteral ['0']
  | digits {c : Char} {rest : List Char} (isDigit : ∀ d ∈ c :: rest, d.isDigit = true)
      (ne_zero : c ≠ '0') : IsIntLiteral (c :: rest)

/-- A number as Python writes it with a point, with an exponent or with both. -/
inductive IsFloatLiteral : List Char → Prop
  | point {digits part tail : List Char} (isDigit : ∀ c ∈ digits, c.isDigit = true)
      (isDigit_part : ∀ c ∈ part, c.isDigit = true) (ne_nil : digits ++ part ≠ [])
      (isTail : IsTail tail) : IsFloatLiteral (digits ++ '.' :: (part ++ tail))
  | exponent {digits tail : List Char} (isDigit : ∀ c ∈ digits, c.isDigit = true)
      (ne_nil : digits ≠ []) (isTail : IsTail tail) (tail_ne_nil : tail ≠ []) :
      IsFloatLiteral (digits ++ tail)

/-- The text is a literal of a whole number, with a minus or without a sign. -/
def DenotesWhole (cs : List Char) (n : ℤ) : Prop :=
  ∃ negative literal, cs = Size.sign negative ++ literal ∧ IsIntLiteral literal ∧
    Size.signedValue negative literal = n

/-- The text is a literal of a double-precision number, with a minus or without a sign: the one
nearest to what it writes. -/
def DenotesFloat (cs : List Char) (x : Binary64) : Prop :=
  ∃ negative literal n e, cs = Size.sign negative ++ literal ∧ IsFloatLiteral literal ∧
    Writes Char.isDigit literal n e ∧ Binary64.ofDecimal negative n e = x

/-- The digits of a number do not start with zero. -/
theorem toDigits_eq_cons {n : ℕ} (hn : 0 < n) :
    ∃ c rest, Nat.toDigits 10 n = c :: rest ∧ c ≠ '0' := by
  have hdigit : ∀ d < 10, 0 < d → d.digitChar ≠ '0' := by decide
  induction n using Nat.strongRecOn with
  | ind n ih =>
    rcases Nat.lt_or_ge n 10 with hlt | hge
    · exact ⟨_, [], Nat.toDigits_of_lt_base hlt, hdigit n hlt hn⟩
    · obtain ⟨c, rest, hfront, hc⟩ := ih (n / 10) (Nat.div_lt_self hn (by decide)) (by omega)
      exact ⟨c, _, by rw [Nat.toDigits_of_base_le (by decide) hge, hfront]; rfl, hc⟩

theorem isIntLiteral_toDigits (n : ℕ) : IsIntLiteral (Nat.toDigits 10 n) := by
  have hdigits : ∀ c ∈ Nat.toDigits 10 n, c.isDigit = true := fun c =>
    Spelling.isDigit_of_mem_toDigits
  rcases Nat.eq_zero_or_pos n with rfl | hn
  · exact .zero
  · obtain ⟨c, rest, heq, hc⟩ := toDigits_eq_cons hn
    rw [heq] at hdigits ⊢
    exact .digits hdigits hc

theorem IsIntLiteral.eq_cons (h : IsIntLiteral cs) :
    ∃ c rest, cs = c :: rest ∧ ∀ d ∈ c :: rest, d.isDigit = true := by
  cases h with
  | zero => exact ⟨'0', [], rfl, List.forall_mem_singleton.2 rfl⟩
  | digits isDigit _ => exact ⟨_, _, rfl, isDigit⟩

theorem IsIntLiteral.isDigit (h : IsIntLiteral cs) : ∀ c ∈ cs, c.isDigit = true := by
  obtain ⟨c, rest, rfl, hdigits⟩ := h.eq_cons
  exact hdigits

/-- A digit in ASCII is the digit of its value. -/
theorem exists_digitChar {c : Char} (h : c.isDigit = true) :
    ∃ d < 10, c = d.digitChar ∧ digitValue? c = some d := by
  have hchar : ∀ d < 10, Char.ofNat (0x30 + d) = d.digitChar := by decide
  obtain ⟨hlow, hhigh⟩ := toNat_of_isDigit h
  obtain ⟨d, hd⟩ := Nat.exists_eq_add_of_le hlow
  have hc : Char.ofNat (0x30 + d) = c := by rw [← hd, Char.ofNat_toNat]
  exact ⟨d, by omega, by rw [← hc, hchar d (by omega)], hc ▸ digitValue?_ofNat d (by omega)⟩

theorem digitsValue_singleton {c : Char} {d : ℕ} (h : digitValue? c = some d) :
    digitsValue [c] = d := by
  rw [← List.nil_append [c], digitsValue_append_singleton, h, digitsValue_nil, Option.getD_some,
    Nat.mul_zero, Nat.zero_add]

/-- Digits write a positive number where the first of them is not zero. -/
theorem digitsValue_pos {c : Char} (hc : c.isDigit = true) (hzero : c ≠ '0') (rest : List Char) :
    0 < digitsValue (c :: rest) := by
  obtain ⟨d, hd, rfl, hvalue⟩ := exists_digitChar hc
  have hpos : 0 < d := by
    refine Nat.pos_of_ne_zero ?_
    rintro rfl
    exact hzero rfl
  rw [← List.singleton_append, digitsValue_append, digitsValue_singleton hvalue]
  have := Nat.mul_pos hpos (Nat.pow_pos (by decide) : 0 < 10 ^ rest.length)
  exact Nat.lt_of_lt_of_le this (Nat.le_add_right _ _)

theorem IsIntLiteral.eq_zero_or_pos (h : IsIntLiteral cs) : cs = ['0'] ∨ 0 < digitsValue cs := by
  cases h with
  | zero => exact Or.inl rfl
  | digits isDigit ne_zero => exact Or.inr (digitsValue_pos (isDigit _ List.mem_cons_self) ne_zero _)

/-- **The digits of a number without zeros in front** are the ones that it is written with. -/
theorem IsIntLiteral.toDigits_digitsValue (h : IsIntLiteral cs) :
    Nat.toDigits 10 (digitsValue cs) = cs := by
  cases h with
  | zero => rfl
  | @digits c rest isDigit ne_zero =>
    induction rest using List.reverseRecOn with
    | nil =>
      obtain ⟨d, hd, rfl, hvalue⟩ := exists_digitChar (isDigit c List.mem_cons_self)
      rw [digitsValue_singleton hvalue]
      exact Nat.toDigits_of_lt_base hd
    | append_singleton rest c' ih =>
      obtain ⟨hrest, hc'⟩ := List.forall_mem_append.1 (List.cons_append ▸ isDigit)
      obtain ⟨d, hd, rfl, hvalue⟩ := exists_digitChar (hc' c' List.mem_cons_self)
      have hpos := digitsValue_pos (hrest c List.mem_cons_self) ne_zero rest
      rw [← List.cons_append, digitsValue_append_singleton, hvalue, Option.getD_some,
        Nat.toDigits_of_base_le (by decide) (by omega), Nat.mul_add_div (by decide),
        Nat.div_eq_of_lt hd, Nat.add_zero, ih hrest, Nat.mul_add_mod, Nat.mod_eq_of_lt hd]

/-- **The text of a whole number is a literal of it.** -/
theorem denotesWhole_toString (n : ℤ) : DenotesWhole (toString n).toList n := by
  refine ⟨_, _, Size.toList_toString n, isIntLiteral_toDigits _, ?_⟩
  rw [Size.signedValue, digitsValue_toDigits]
  by_cases hn : n < 0
  · rw [decide_eq_true hn, if_pos rfl]
    omega
  · rw [decide_eq_false hn, if_neg (by decide)]
    omega

/-- The characters of which a float literal has one. -/
def floatMarks : List Char := ['.', 'e']

theorem isDigit_floatMarks : ∀ c ∈ floatMarks, isDigit c = false :=
  List.forall_mem_cons.2 ⟨by decide, List.forall_mem_singleton.2 (by decide)⟩

/-- A decimal with a point or an exponent is a literal. -/
theorem isFloatLiteral_of_isDecimal (h : IsDecimal cs) (hmark : ∃ c ∈ floatMarks, c ∈ cs) :
    IsFloatLiteral cs := by
  rcases h with ⟨isDigit, ne_nil, isTail⟩ | ⟨isDigit, isDigit_part, ne_nil, isTail⟩
  · refine .exponent isDigit ne_nil isTail ?_
    rintro rfl
    obtain ⟨c, hc, hmem⟩ := hmark
    rw [List.append_nil] at hmem
    exact Bool.eq_false_iff.1 (isDigit_floatMarks c hc) (isDigit_of_isDigit (isDigit c hmem))
  · exact .point isDigit isDigit_part ne_nil isTail

theorem exists_mark_decimalText (sp : Spelling) (d : Binary64.Decimal) :
    ∃ c ∈ floatMarks, c ∈ (sp.decimalText d).toList := by
  unfold Spelling.decimalText
  simp only
  split
  · exact ⟨'e', by decide, by simp [Spelling.exponentText]⟩
  split
  · exact ⟨'.', by decide, by simp⟩
  · exact ⟨'.', by decide, by simp⟩

/-- What has a point or an exponent is no run of digits. -/
theorem not_digitRun (hmark : ∃ c ∈ floatMarks, c ∈ cs) : ¬ DigitRun cs := by
  rintro ⟨-, hdigits⟩
  obtain ⟨c, hc, hmem⟩ := hmark
  exact Bool.eq_false_iff.1 (isDigit_floatMarks c hc) (hdigits c hmem)

/-- **The text of a double-precision number is a literal of it.** -/
theorem denotesFloat_text (h : Binary64.IsCanonical m e) (sp : Spelling) (negative : Bool) :
    DenotesFloat (sp.text (.finite negative m e)).toList (.finite negative m e) := by
  obtain ⟨n, k, hwrites, hround⟩ := Spelling.exists_writes_shortest sp h
  exact ⟨negative, _, n, k, Spelling.toList_text sp negative m e,
    isFloatLiteral_of_isDecimal hwrites.isDecimal (exists_mark_decimalText sp _), hwrites,
    hround negative⟩

/-! ## What is written for a text -/

theorem numeral?_of_run {run : List Char} (htext : text.toList = Size.sign negative ++ run)
    (hrun : ShortRun run) : numeral? text = some (toString (Size.signedValue negative run)) := by
  simp only [numeral?]
  rw [htext, integer?_of_run hrun]

theorem numeral?_of_writes {body : List Char} (htext : text.toList = Size.sign negative ++ body)
    (hwrites : Writes isDigit body n e) (hrun : ¬ ShortRun body) :
    numeral? text = some (Spelling.plain.text (.ofDecimal negative n e)) := by
  simp only [numeral?]
  rw [htext, integer?_eq_none hwrites hrun, decimal?_of_writes hwrites]
  rfl

theorem numeral?_of_mem {word : String} (h : (text, word) ∈ Size.numberWords) :
    numeral? text = some word := by
  simp only [Size.numberWords, List.mem_cons, Prod.mk.injEq, List.not_mem_nil, or_false] at h
  rcases h with ⟨rfl, rfl⟩ | ⟨rfl, rfl⟩ | ⟨rfl, rfl⟩
  · rfl
  · rfl
  · rfl

end Python

open Python

/-- **What is written for every number that a size may be.**  A run of digits that is not too long
is written as a literal of the same whole number.  Any other number is written as a literal of the
double-precision number nearest to it, unless it is so large that this is infinity, and the word for
it is written; the words in JSON for numbers that are not finite are written as words too.  A finite
number in JSON is written as a literal of the same number. -/
theorem render_python_number {raw : Json.Value} {text : String}
    (h : Size.read raw = .ok (.number text)) :
    ∃ numeral : String, (Expr.number text).render .python = .ok numeral ∧
      (∀ negative run, text.toList = Size.sign negative ++ run → ShortRun run →
        DenotesWhole numeral.toList (Size.signedValue negative run)) ∧
      (∀ negative body n e, text.toList = Size.sign negative ++ body → Writes isDigit body n e →
        ¬ ShortRun body →
          ((n : ℚ) * 10 ^ e < Binary64.overflow →
            DenotesFloat numeral.toList (.ofDecimal negative n e)) ∧
          (Binary64.overflow ≤ (n : ℚ) * 10 ^ e →
            numeral.toList = Size.sign negative ++ "inf".toList)) ∧
      ((text, numeral) ∈ Size.numberWords ∨
        ∃ negative body n e, text.toList = Size.sign negative ++ body ∧ Writes isDigit body n e) ∧
      ∀ negative m e, Binary64.IsCanonical m e → raw = .float (.finite negative m e) →
        DenotesFloat numeral.toList (.finite negative m e) := by
  have htext := Size.numberText_of_read h
  obtain ⟨numeral, hnumeral⟩ := Option.isSome_iff_exists.1 (isSome_numeral? htext)
  refine ⟨numeral, ?_, ?_, ?_, ?_, ?_⟩
  · simp only [Expr.render, Target.python, hnumeral]
  · intro negative run hrunText hrun
    rw [numeral?_of_run hrunText hrun] at hnumeral
    cases hnumeral
    exact denotesWhole_toString _
  · intro negative body n e hbody hwrites hrun
    rw [numeral?_of_writes hbody hwrites hrun] at hnumeral
    cases hnumeral
    rcases Binary64.ofDecimal_cases negative n e with ⟨hlt, m, k, hcanonical, hround⟩ | ⟨hge, hround⟩
    · refine ⟨fun _ => ?_, fun hge => absurd hlt (not_lt.2 hge)⟩
      rw [hround]
      exact denotesFloat_text hcanonical _ negative
    · refine ⟨fun hlt => absurd hlt (not_lt.2 hge), fun _ => ?_⟩
      rw [hround]
      cases negative with
      | false => rfl
      | true => rfl
  · rcases htext.cases with ⟨word, hword⟩ | hwrites
    · rw [numeral?_of_mem hword] at hnumeral
      cases hnumeral
      exact Or.inl hword
    · exact Or.inr hwrites
  · rintro negative m e hcanonical rfl
    cases h
    obtain ⟨n, k, hwrites, hround⟩ := Spelling.exists_writes_shortest Json.spelling hcanonical
    have hrun := not_digitRun
      (exists_mark_decimalText Json.spelling (Binary64.shortest m e))
    have hwritten := numeral?_of_writes (Spelling.toList_text Json.spelling negative m e)
      hwrites.isDigit fun h => hrun h.1
    rw [hround] at hwritten
    obtain rfl := Option.some.inj (hwritten.symm.trans hnumeral)
    exact denotesFloat_text hcanonical _ negative

/-- A whole number and a decimal, both with digits of another script. -/
theorem render_python_number_arabic :
    (Size.read (.string "-\u0660\u0667") = .ok (.number "-\u0660\u0667") ∧
      ∃ numeral : String, (Expr.number "-\u0660\u0667").render .python = .ok numeral ∧
        DenotesWhole numeral.toList (-7)) ∧
    (Size.read (.string "\u0660.75") = .ok (.number "\u0660.75") ∧
      ∃ numeral : String, (Expr.number "\u0660.75").render .python = .ok numeral ∧
        DenotesFloat numeral.toList (.ofDecimal false 75 (-2))) := by
  have hwhole : Size.read (.string "-\u0660\u0667") = .ok (.number "-\u0660\u0667") := rfl
  have hdecimal : Size.read (.string "\u0660.75") = .ok (.number "\u0660.75") := rfl
  have hzero : ∀ c ∈ ['\u0660'], isDigit c = true := List.forall_mem_singleton.2 (by decide)
  have hpart : ∀ c ∈ ['7', '5'], isDigit c = true := List.all_iff_forall_prop.1 (by decide)
  have hrun : ShortRun ['\u0660', '\u0667'] :=
    ⟨⟨List.cons_ne_nil _ _, List.all_iff_forall_prop.1 (by decide)⟩, by decide⟩
  have hwrites : Writes isDigit ['\u0660', '.', '7', '5'] 75 (-2) :=
    .point hzero hpart (List.cons_ne_nil _ _) .none
  have hpoint : ¬ DigitRun ['\u0660', '.', '7', '5'] := not_digitRun ⟨'.', by decide, by decide⟩
  have hlt : ((75 : ℕ) : ℚ) * 10 ^ (-2 : ℤ) < Binary64.overflow :=
    lt_trans (by norm_num) Binary64.one_lt_overflow
  obtain ⟨numeral, hnumeral, hruns, -⟩ := render_python_number hwhole
  obtain ⟨numeral', hnumeral', -, hdecimals, -⟩ := render_python_number hdecimal
  exact ⟨⟨hwhole, numeral, hnumeral, hruns true _ rfl hrun⟩, hdecimal, numeral', hnumeral',
    (hdecimals false _ _ _ rfl hwrites fun h => hpoint h.1).1 hlt⟩

end DesignTokens
