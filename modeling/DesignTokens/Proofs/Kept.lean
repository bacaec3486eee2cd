import DesignTokens.Proofs.Json.Number
import DesignTokens.Proofs.Number.Fifteen

/-!
# Proofs/Kept — which numbers stay as they are written

A number in a token file is read as JSON and written again.  A whole number is exact on the way, and
only a minus before a zero is lost.  Any other number becomes the double-precision number nearest to
it, and **it is kept where it is the spelling of that number**: a decimal of at most fifteen digits
is, unless it is very small or has zeros that its spelling has not.

* `Json.Lexeme.toList_write_int` — whole numbers.
* `Json.Lexeme.eq_text_iff` — the numbers that are spelled as they were.
* `Json.Lexeme.toList_decimalText` — decimals in their common form.
* `size_of_lexeme` — what a size keeps of every number.
-/

namespace DesignTokens

open Json Text Numeral Python

namespace Json.Lexeme

variable {l : Lexeme} {m : ℕ} {e : ℤ} {digits : List Char}

/-! ## Whole numbers -/

theorem text_eq_of_isWhole (h : l.IsWhole) : l.text = Size.sign l.negative ++ l.whole := by
  rw [text, body, h.1, h.2, fractionText, exponentText, List.append_nil, List.append_nil]

/-- **A whole number is written as it was**, but zero without its minus. -/
theorem toList_write_of_isWhole (h : l.IsWhole) :
    l.value.write.toList = if l.text = ['-', '0'] then ['0'] else l.text := by
  have hdigits := l.whole_literal.toDigits_digitsValue
  rw [text_eq_of_isWhole h, value, if_pos h, Value.write, Size.toList_toString]
  cases l.negative with
  | false =>
    have habs : (Size.signedValue false l.whole).natAbs = digitsValue l.whole := rfl
    have hsign : ¬ Size.signedValue false l.whole < 0 := not_lt.2 (Int.natCast_nonneg _)
    obtain ⟨c, rest, hwhole, hc⟩ := l.whole_literal.eq_cons
    have hminus : ¬ Size.sign false ++ l.whole = ['-', '0'] := by
      rw [hwhole]
      rintro ⟨⟩
      exact absurd (hc '-' List.mem_cons_self) (by decide)
    rw [habs, hdigits, decide_eq_false hsign, if_neg hminus]
  | true =>
    have habs : (Size.signedValue true l.whole).natAbs = digitsValue l.whole := Int.natAbs_neg _
    rw [habs, hdigits]
    rcases l.whole_literal.eq_zero_or_pos with hzero | hpos
    · rw [hzero]
      rfl
    · have hsign : Size.signedValue true l.whole < 0 := Int.neg_neg_of_pos (Int.natCast_pos.2 hpos)
      have hminus : ¬ Size.sign true ++ l.whole = ['-', '0'] := by
        intro heq
        have hwhole : l.whole = ['0'] := (List.cons.inj heq).2
        rw [hwhole] at hpos
        exact absurd hpos (by decide)
      rw [decide_eq_true hsign, if_neg hminus]

/-! ## Other numbers -/

theorem write_of_not_isWhole (h : ¬ l.IsWhole) :
    l.value.write = Json.spelling.text (.ofDecimal l.negative l.digits l.power) := by
  rw [value, if_neg h, Value.write]

theorem signed_eq_exponentSign (cs : List Char) : Numeral.signed cs = exponentSign cs := by
  unfold Numeral.signed exponentSign
  rfl

theorem exponent?_exponentText (x : Option Exponent) :
    exponent? (exponentText x) = some ((x.map Exponent.value).getD 0) := by
  cases x with
  | none => rfl
  | some x =>
    obtain ⟨hne, hdigits⟩ := x.digits_run
    have hall : x.digits.all Char.isDigit = true := List.all_eq_true.2 hdigits
    have hsigned := x.exponentSign_append []
    rw [List.append_nil, ← signed_eq_exponentSign] at hsigned
    rw [exponentText, Exponent.text, exponent?, if_pos x.letter_eq, hsigned]
    simp [hne, hall, Exponent.value, Size.signedValue]

theorem ends_nil : Ends [] := by
  rintro c ⟨⟩

theorem fraction_eq (l : Lexeme) :
    fraction (fractionText l.part ++ exponentText l.exponent) =
      (l.part.getD [], exponentText l.exponent) := by
  have hhead := l.head?_exponentText ends_nil
  rw [List.append_nil] at hhead
  cases hpart : l.part with
  | none =>
    rw [fractionText, List.nil_append]
    unfold fraction
    split
    · rename_i rest heq
      rw [heq] at hhead
      exact absurd rfl (hhead '.' rfl).2
    · rfl
  | some digits =>
    obtain ⟨-, hdigits⟩ := l.part_run digits hpart
    obtain ⟨htake, hdrop⟩ := span_iff.2 ⟨rfl, hdigits, fun c hc => (hhead c hc).1⟩
    rw [fractionText, List.cons_append, fraction, htake, hdrop]
    rfl

/-- **A number of JSON is a numeral** of the same value. -/
theorem unsigned?_eq (l : Lexeme) :
    unsigned? l.negative l.body = some (.ofDecimal l.negative l.digits l.power) := by
  obtain ⟨c, cs, hbody, hc⟩ := l.body_eq_cons
  have hword : ∀ {word : String}, word.toList.head? = some 'n' ∨ word.toList.head? = some 'i' →
      String.ofList (l.body.map Char.toLower) ≠ word := fun hword =>
    hbody ▸ word_ne_of_cons (Or.inl hc) hword
  have hend := l.head?_fractionText ends_nil
  rw [List.append_nil] at hend
  obtain ⟨htake, hdrop⟩ := span_iff.2 ⟨rfl, l.whole_literal.isDigit, hend⟩
  have hne : (l.whole ++ l.part.getD []).isEmpty = false := by
    obtain ⟨c, rest, hwhole, -⟩ := l.whole_literal.eq_cons
    rw [hwhole]
    rfl
  rw [unsigned?]
  simp only
  rw [if_neg (hword (by decide)), if_neg (not_or.2 ⟨hword (by decide), hword (by decide)⟩), body,
    htake, hdrop, l.fraction_eq]
  simp only [hne, exponent?_exponentText]
  rfl

/-- **A number is kept where it is the spelling of a double-precision number.** -/
theorem toList_write_eq_text_iff (h : ¬ l.IsWhole) : l.value.write.toList = l.text ↔
    ∃ m e, Binary64.IsCanonical m e ∧
      l.text = (Json.spelling.text (.finite l.negative m e)).toList := by
  rw [write_of_not_isWhole h]
  constructor
  · intro hkept
    rcases Binary64.ofDecimal_cases l.negative l.digits l.power with
      ⟨-, m, e, hcanonical, hround⟩ | ⟨-, hround⟩
    · exact ⟨m, e, hcanonical, by rw [← hkept, hround]⟩
    · -- the word for infinity does not start with a digit
      obtain ⟨c, cs, hbody, hc⟩ := l.body_eq_cons
      have hword : Size.sign l.negative ++ "Infinity".toList = Size.sign l.negative ++ c :: cs := by
        rw [← hbody, ← text, ← hkept, hround]
        cases l.negative with
        | false => rfl
        | true => rfl
      have hletter : 'I' = c := (List.cons.inj (List.append_cancel_left hword)).1
      exact absurd hc (hletter ▸ by decide)
  · rintro ⟨m, e, hcanonical, htext⟩
    obtain ⟨n, k, hwrites, hround⟩ := Spelling.exists_writes_shortest Json.spelling hcanonical
    have hbody : l.body = (Json.spelling.decimalText (Binary64.shortest m e)).toList := by
      rw [Spelling.toList_text, text] at htext
      exact List.append_cancel_left htext
    have hvalue : Binary64.ofDecimal l.negative l.digits l.power = .finite l.negative m e := by
      rw [← hround l.negative]
      exact Option.some.inj (l.unsigned?_eq.symm.trans (hbody ▸ hwrites.unsigned?_eq))
    rw [hvalue, htext]

end Json.Lexeme

/-! ## Decimals in their common form -/

namespace Spelling

variable {whole part run : List Char} {zeros : ℕ}

/-- A decimal of which the first digit stands before the point. -/
theorem toList_decimalText_append (h : IsIntLiteral (whole ++ part)) (hwhole : whole ≠ [])
    (hpart : part ≠ []) (hshort : whole.length ≤ 16) :
    (Json.spelling.decimalText ⟨digitsValue (whole ++ part), -part.length⟩).toList =
      whole ++ '.' :: part := by
  have hlength : 0 < whole.length := List.length_pos_of_ne_nil hwhole
  have hpoint : (((whole ++ part).length : ℕ) : ℤ) + -(part.length : ℤ) = whole.length := by
    rw [List.length_append]
    push_cast
    omega
  have hexponent : ¬ (digitsValue (whole ++ part) ≠ 0 ∧ ((whole.length : ℤ) - 1 < -4 ∨
      16 ≤ (whole.length : ℤ) - 1)) := by omega
  have hplain : Json.spelling.leastPower = -4 ∧ Json.spelling.exponentFrom = 16 := ⟨rfl, rfl⟩
  unfold decimalText
  simp only [h.toDigits_digitsValue, hpoint, hplain]
  rw [if_neg hexponent, if_neg (by omega), String.toList_ofList, Int.toNat_natCast,
    List.take_left, List.drop_left, List.length_append, Nat.sub_eq_zero_of_le (by omega)]
  simp [hpart]

/-- A decimal with zeros between the point and its first digit. -/
theorem toList_decimalText_zeros (h : IsIntLiteral run) (hfew : zeros ≤ 3) :
    (Json.spelling.decimalText ⟨digitsValue run, -((zeros + run.length : ℕ) : ℤ)⟩).toList =
      '0' :: '.' :: (List.replicate zeros '0' ++ run) := by
  have hpoint : ((run.length : ℕ) : ℤ) + -((zeros + run.length : ℕ) : ℤ) = -zeros := by
    push_cast
    omega
  have hexponent : ¬ (digitsValue run ≠ 0 ∧ (-(zeros : ℤ) - 1 < -4 ∨ 16 ≤ -(zeros : ℤ) - 1)) := by
    omega
  have hplain : Json.spelling.leastPower = -4 ∧ Json.spelling.exponentFrom = 16 := ⟨rfl, rfl⟩
  unfold decimalText
  simp only [h.toDigits_digitsValue, hpoint, hplain]
  rw [if_neg hexponent, if_pos (by omega), String.toList_ofList, neg_neg, Int.toNat_natCast]
  rfl

/-- The digits of a number without zeros in front are as many as its size says. -/
theorem length_le_iff {k : ℕ} (h : IsIntLiteral run) (hk : 0 < k) :
    run.length ≤ k ↔ digitsValue run < 10 ^ k := by
  rw [← Nat.length_toDigits_le_iff (by decide) hk, h.toDigits_digitsValue]

/-- Digits in ASCII are zeros and a number without zeros in front, unless they end with a zero. -/
theorem exists_replicate_append (hpart : AsciiRun part) (hlast : part.getLast? ≠ some '0') :
    ∃ zeros run, part = List.replicate zeros '0' ++ run ∧ IsIntLiteral run := by
  obtain ⟨hne, hdigits⟩ := hpart
  have happend : part.takeWhile (· == '0') ++ part.dropWhile (· == '0') = part :=
    List.takeWhile_append_dropWhile
  have hzeros : part.takeWhile (· == '0') =
      List.replicate (part.takeWhile (· == '0')).length '0' := by
    refine List.eq_replicate_of_mem fun c hc => ?_
    exact beq_iff_eq.1 (List.all_eq_true.1 List.all_takeWhile c hc)
  refine ⟨_, part.dropWhile (· == '0'), by rw [← hzeros, happend], ?_⟩
  cases hrun : part.dropWhile (· == '0') with
  | nil =>
    rw [hrun, List.append_nil] at happend
    have hmem : part.getLast hne ∈ part.takeWhile (· == '0') := by
      rw [happend]
      exact List.getLast_mem hne
    have hall : (part.takeWhile (· == '0')).all (· == '0') = true := List.all_takeWhile
    have hzero : part.getLast hne = '0' := beq_iff_eq.1 (List.all_eq_true.1 hall _ hmem)
    exact absurd (hzero ▸ List.getLast?_eq_some_getLast hne) hlast
  | cons c run =>
    have hc := List.head?_dropWhile_not (· == '0') part
    rw [hrun] at hc
    refine .digits (fun d hd => hdigits d ?_) (by simpa using hc)
    rw [← happend, hrun]
    exact List.mem_append_right _ hd

/-- **A decimal that is neither small nor has zeros at its end is spelled as it is.** -/
theorem toList_decimalText (hwhole : IsIntLiteral whole) (hpart : AsciiRun part)
    (hlast : part.getLast? ≠ some '0') (hdigits : digitsValue (whole ++ part) < 10 ^ 15)
    (hge : (10 : ℚ) ^ (-4 : ℤ) ≤ digitsValue (whole ++ part) * 10 ^ (-part.length : ℤ)) :
    (Json.spelling.decimalText ⟨digitsValue (whole ++ part), -part.length⟩).toList =
      whole ++ '.' :: part := by
  cases hwhole with
  | zero =>
    obtain ⟨zeros, run, rfl, hrun⟩ := exists_replicate_append hpart hlast
    have hvalue : digitsValue (['0'] ++ (List.replicate zeros '0' ++ run)) = digitsValue run :=
      (digitsValue_replicate_append 1 _).trans (digitsValue_replicate_append zeros run)
    rw [hvalue, List.length_append, List.length_replicate] at hge ⊢
    refine toList_decimalText_zeros hrun (not_lt.1 fun hmany => not_lt.2 hge ?_)
    obtain ⟨c, cs, hcons, -⟩ := hrun.eq_cons
    have hlength : 0 < run.length := by
      rw [hcons]
      exact Nat.succ_pos _
    have hlt : (digitsValue run : ℚ) < 10 ^ (run.length : ℤ) := by
      exact_mod_cast (length_le_iff hrun hlength).1 le_rfl
    calc (digitsValue run : ℚ) * 10 ^ (-((zeros + run.length : ℕ) : ℤ))
        < 10 ^ (run.length : ℤ) * 10 ^ (-((zeros + run.length : ℕ) : ℤ)) :=
          mul_lt_mul_of_pos_right hlt (Binary64.ten_zpow_pos _)
      _ = 10 ^ (-(zeros : ℤ)) := by
          rw [← zpow_add₀ (by norm_num)]
          congr 1
          push_cast
          ring
      _ ≤ 10 ^ (-4 : ℤ) := zpow_le_zpow_right₀ (by norm_num) (by omega)
  | @digits c rest isDigit ne_zero =>
    have hliteral : IsIntLiteral (c :: rest ++ part) :=
      .digits (List.forall_mem_append.2 ⟨isDigit, hpart.2⟩) ne_zero
    have hlength := (length_le_iff hliteral (by decide)).2 hdigits
    rw [List.length_append] at hlength
    exact toList_decimalText_append hliteral (List.cons_ne_nil _ _) hpart.1 (by omega)

/-- Digits that do not end with a zero write no multiple of ten. -/
theorem digitsValue_mod_ten_ne (hdigits : ∀ c ∈ run, c.isDigit = true) (hne : run ≠ [])
    (hlast : run.getLast? ≠ some '0') : digitsValue run % 10 ≠ 0 := by
  obtain ⟨init, c, rfl⟩ := (List.eq_nil_or_concat' run).resolve_left hne
  obtain ⟨d, hd, rfl, hvalue⟩ :=
    exists_digitChar (hdigits c (List.mem_append_right _ List.mem_cons_self))
  have hzero : d ≠ 0 := by
    rintro rfl
    exact hlast List.getLast?_concat
  rw [digitsValue_append_singleton, hvalue, Option.getD_some, Nat.mul_add_mod, Nat.mod_eq_of_lt hd]
  exact hzero

end Spelling

/-! ## What a size keeps -/

namespace Json.Lexeme

variable {l : Lexeme} {digits : List Char}

/-- A decimal of at most fifteen digits that is written with a point only, is not below 10⁻⁴ and has
no zero at its end. -/
structure IsPlain (l : Lexeme) : Prop where
  exponent_eq : l.exponent = none
  exists_part : ∃ part, l.part = some part ∧ part.getLast? ≠ some '0'
  digits_lt : l.digits < 10 ^ 15
  ge : (10 : ℚ) ^ (-4 : ℤ) ≤ l.digits * 10 ^ l.power

/-- **A plain decimal is the spelling of a double-precision number.** -/
theorem IsPlain.exists_spelling (h : l.IsPlain) : ∃ m e, Binary64.IsCanonical m e ∧
    l.text = (Json.spelling.text (.finite l.negative m e)).toList := by
  obtain ⟨part, hpart, hlast⟩ := h.exists_part
  have hrun := l.part_run part hpart
  have hdigits : l.digits = digitsValue (l.whole ++ part) := by rw [Lexeme.digits, hpart]; rfl
  have hpower : l.power = -part.length := by
    rw [power, h.exponent_eq, hpart]
    exact zero_sub _
  have hge := h.ge
  have hlt := h.digits_lt
  rw [hdigits] at hge hlt
  rw [hpower] at hge
  have htrim : digitsValue (l.whole ++ part) % 10 ≠ 0 := by
    refine Spelling.digitsValue_mod_ten_ne
      (List.forall_mem_append.2 ⟨l.whole_literal.isDigit, hrun.2⟩)
      (List.append_ne_nil_of_right_ne_nil _ hrun.1) ?_
    rwa [List.getLast?_append_of_ne_nil _ hrun.1]
  have hoverflow : (digitsValue (l.whole ++ part) : ℚ) * 10 ^ (-part.length : ℤ) <
      Binary64.overflow := by
    have hle : (10 : ℚ) ^ (-part.length : ℤ) ≤ 1 := zpow_le_one_of_nonpos₀ (by norm_num) (by omega)
    have hcast : (digitsValue (l.whole ++ part) : ℚ) < 10 ^ 15 := by exact_mod_cast hlt
    calc (digitsValue (l.whole ++ part) : ℚ) * 10 ^ (-part.length : ℤ)
        ≤ digitsValue (l.whole ++ part) := mul_le_of_le_one_right (Nat.cast_nonneg _) hle
      _ < 10 ^ 15 := hcast
      _ < Binary64.overflow := Binary64.fifteen_lt_overflow
  obtain ⟨m, e, hcanonical, -, hshortest⟩ := Binary64.exists_ofDecimal_shortest
    (d := ⟨digitsValue (l.whole ++ part), -part.length⟩) l.negative hlt htrim
    (Binary64.leastFull_le.trans hge) hoverflow
  refine ⟨m, e, hcanonical, ?_⟩
  rw [Spelling.toList_text, hshortest,
    Spelling.toList_decimalText l.whole_literal hrun hlast hlt hge, text, body, h.exponent_eq,
    hpart, exponentText, List.append_nil, fractionText]

/-- Behind a point and an exponent a number is the double-precision number nearest to it. -/
theorem write_cases (h : ¬ l.IsWhole) :
    ((l.digits : ℚ) * 10 ^ l.power < Binary64.overflow → ∃ m e, Binary64.IsCanonical m e ∧
      Binary64.ofDecimal l.negative l.digits l.power = .finite l.negative m e ∧
      l.value.write = Json.spelling.text (.finite l.negative m e) ∧
      decimal? l.value.write.toList = some (.finite l.negative m e)) ∧
    (Binary64.overflow ≤ (l.digits : ℚ) * 10 ^ l.power →
      l.value.write.toList = Size.sign l.negative ++ "Infinity".toList) := by
  rw [write_of_not_isWhole h]
  rcases Binary64.ofDecimal_cases l.negative l.digits l.power with
    ⟨hlt, m, e, hcanonical, hround⟩ | ⟨hge, hround⟩
  · refine ⟨fun _ => ⟨m, e, hcanonical, hround, by rw [hround], ?_⟩,
      fun hge => absurd hlt (not_lt.2 hge)⟩
    rw [hround]
    exact Spelling.decimal?_text Json.spelling hcanonical l.negative
  · refine ⟨fun hlt => absurd hlt (not_lt.2 hge), fun _ => ?_⟩
    rw [hround]
    cases l.negative with
    | false => rfl
    | true => rfl

end Json.Lexeme

open Json.Lexeme

/-- **What a size keeps of a number**, in the file of an entry that has the number for its value,
with room for the two objects that the number lies in.  Every number is read, and taken for a size.
A whole number stays as it is written, but for the minus before a zero.  Any other number is written
as the double-precision number nearest to it, which is read back from that text, or with the word
for infinity where that is nearest.  It stays as it is written exactly where it is the spelling of
such a number, and every plain decimal of at most fifteen digits is. -/
theorem size_of_lexeme (l : Lexeme) (hlimit : l.IsWhole → l.whole.length ≤ digitLimit)
    (key : String) : ∃ entry text,
      (∀ room, Json.read (room + 2) (l.fileText key) = .ok (.object [(key, entry)])) ∧
      Size.ofEntry key entry = .ok (.number text) ∧
      (l.IsWhole → text.toList = if l.text = ['-', '0'] then ['0'] else l.text) ∧
      (¬ l.IsWhole →
        ((l.digits : ℚ) * 10 ^ l.power < Binary64.overflow → ∃ m e, Binary64.IsCanonical m e ∧
          Binary64.ofDecimal l.negative l.digits l.power = .finite l.negative m e ∧
          text = Json.spelling.text (.finite l.negative m e) ∧
          decimal? text.toList = some (.finite l.negative m e)) ∧
        (Binary64.overflow ≤ (l.digits : ℚ) * 10 ^ l.power →
          text.toList = Size.sign l.negative ++ "Infinity".toList) ∧
        (text.toList = l.text ↔ ∃ m e, Binary64.IsCanonical m e ∧
          l.text = (Json.spelling.text (.finite l.negative m e)).toList)) ∧
      (l.IsPlain → text.toList = l.text) := by
  refine ⟨.object [("value", l.value)], l.value.write, l.read_fileText hlimit key, ?_,
    toList_write_of_isWhole, fun h => ⟨(write_cases h).1, (write_cases h).2,
      toList_write_eq_text_iff h⟩, fun h => ?_⟩
  · have hread : Size.read l.value = .ok (.number l.value.write) := by
      rw [Lexeme.value]
      split
      · rfl
      · rfl
    exact hread
  · have hwhole : ¬ l.IsWhole := by
      obtain ⟨part, hpart, -⟩ := h.exists_part
      exact fun hwhole => Option.some_ne_none part (hpart ▸ hwhole.1)
    exact (toList_write_eq_text_iff hwhole).2 h.exists_spelling

/-- The number `-0.25`. -/
def quarter : Lexeme where
  negative := true
  whole := ['0']
  part := some ['2', '5']
  exponent := none
  whole_literal := .zero
  part_run := by
    rintro digits ⟨⟩
    exact ⟨List.cons_ne_nil _ _, List.all_iff_forall_prop.1 (by decide)⟩

/-- A number that stays as it is written. -/
theorem size_of_lexeme_quarter : (quarter.IsWhole → quarter.whole.length ≤ digitLimit) ∧
    quarter.IsPlain ∧ ∃ entry text,
      Json.read Files.commonNesting "\x7b\"ratio\": \x7b\"value\": -0.25\x7d\x7d".toList =
        .ok (.object [("ratio", entry)]) ∧
      Size.ofEntry "ratio" entry = .ok (.number text) ∧ text.toList = "-0.25".toList := by
  have hlimit : quarter.IsWhole → quarter.whole.length ≤ digitLimit := by decide
  have hdigits : quarter.digits = 25 := rfl
  have hpower : quarter.power = -2 := rfl
  have hplain : quarter.IsPlain :=
    { exponent_eq := rfl
      exists_part := ⟨_, rfl, by decide⟩
      digits_lt := by decide
      ge := by rw [hdigits, hpower]; norm_num }
  obtain ⟨entry, text, hread, htext, -, -, hkept⟩ := size_of_lexeme quarter hlimit "ratio"
  exact ⟨hlimit, hplain, entry, text, hread 978, htext, hkept hplain⟩

end DesignTokens
