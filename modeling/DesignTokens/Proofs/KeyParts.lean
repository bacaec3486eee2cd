import DesignTokens.Key
import DesignTokens.Proofs.Except
import DesignTokens.Proofs.Runs

/-!
# Proofs/KeyParts — which keys end in a number

A key is read from its back: one line feed is passed over, then the digits are the longest run
there, and a hyphen has to be before them.  From the front this is **a stem, a hyphen and digits**;
since no digit is a hyphen, the hyphen is the last one of the key, so that no key can be taken apart
in two ways.

* `numbered?_eq_some_iff` — the reader of keys accepts exactly its grammar.
* `split_cases` — a key ends in a number, or it does not.
* `split_exact` — what becomes of every key.
-/

namespace DesignTokens.Key

open Text

variable {cs body stem stem' digits digits' : List Char} {key part : String} {n : Nat}
variable {e : TooManyDigits}

/-! ## The grammar -/

/-- A key that ends in a number: a stem in one line, a hyphen and digits of any script, with one
line feed behind them or none. -/
structure EndsInNumber (cs stem digits : List Char) : Prop where
  eq_append : cs = stem ++ '-' :: digits ∨ cs = stem ++ '-' :: digits ++ ['\n']
  stem_ne_nil : stem ≠ []
  newline_not_mem : '\n' ∉ stem
  digits_ne_nil : digits ≠ []
  isDigit : ∀ c ∈ digits, isDigit c = true

/-- The hyphen before the digits is the last one. -/
theorem EndsInNumber.hyphen_not_mem (h : EndsInNumber cs stem digits) : '-' ∉ digits :=
  fun hmem => absurd (h.isDigit '-' hmem) (by decide)

/-! ## The reader -/

/-- **One line feed at the end is passed over.** -/
theorem dropFinalNewline_eq_iff (hbody : body.getLast? ≠ some '\n') :
    dropFinalNewline cs = body ↔ cs = body ∨ cs = body ++ ['\n'] := by
  unfold dropFinalNewline
  constructor
  · rintro rfl
    split
    · rename_i hlast
      obtain ⟨front, rfl⟩ := List.getLast?_eq_some_iff.1 hlast
      exact Or.inr (by rw [List.dropLast_concat])
    · exact Or.inl rfl
  · rintro (rfl | rfl)
    · exact if_neg hbody
    · rw [if_pos List.getLast?_concat, List.dropLast_concat]

/-- No line feed is at the end of digits. -/
theorem getLast?_ne_newline (hne : digits ≠ []) (hdigits : ∀ c ∈ digits, isDigit c = true) :
    (stem ++ '-' :: digits).getLast? ≠ some '\n' := by
  intro hlast
  rw [List.append_cons, List.getLast?_append, List.getLast?_eq_some_getLast hne] at hlast
  exact absurd (hdigits '\n' (Option.some.inj hlast ▸ List.getLast_mem hne)) (by decide)

/-- Read from its back, a text is digits behind a hyphen where it is so from the front. -/
theorem span_reverse_iff (hdigits : ∀ c ∈ digits, isDigit c = true) :
    cs.reverse.takeWhile isDigit = digits.reverse ∧
        cs.reverse.dropWhile isDigit = '-' :: stem.reverse ↔
      cs = stem ++ '-' :: digits := by
  have hhead : ∀ c ∈ ('-' :: stem.reverse).head?, ¬ isDigit c = true := by
    rintro c ⟨⟩
    decide
  have hrun : ∀ c ∈ digits.reverse, isDigit c = true := fun c hc =>
    hdigits c (List.mem_reverse.1 hc)
  rw [span_iff, and_iff_left ⟨hrun, hhead⟩, List.reverse_eq_iff, List.reverse_append,
    List.reverse_cons, List.reverse_reverse, List.reverse_reverse, ← List.append_cons]

/-- What the reader of keys looks for at the back of a key. -/
theorem numbered?_eq_some_iff_back : numbered? cs = some (stem, digits) ↔
    ((dropFinalNewline cs).reverse.takeWhile isDigit = digits.reverse ∧
        (dropFinalNewline cs).reverse.dropWhile isDigit = '-' :: stem.reverse) ∧
      digits ≠ [] ∧ stem ≠ [] ∧ '\n' ∉ stem := by
  constructor
  · intro h
    simp only [numbered?] at h
    split at h
    · rename_i back hdrop
      split at h
      · rename_i hparts
        cases h
        obtain ⟨hne, hstem, hnewline⟩ := hparts
        refine ⟨⟨(List.reverse_reverse _).symm, ?_⟩, hne, ?_, ?_⟩
        · rw [hdrop, List.reverse_reverse]
        · rwa [ne_eq, List.reverse_eq_nil_iff]
        · rwa [List.mem_reverse]
      · cases h
    · cases h
  · rintro ⟨⟨htake, hdrop⟩, hne, hstem, hnewline⟩
    simp only [numbered?, htake, hdrop, List.reverse_reverse]
    refine if_pos ⟨hne, ?_, ?_⟩
    · rwa [ne_eq, List.reverse_eq_nil_iff]
    · rwa [List.mem_reverse]

/-- **The reader of keys accepts exactly its grammar.** -/
theorem numbered?_eq_some_iff :
    numbered? cs = some (stem, digits) ↔ EndsInNumber cs stem digits := by
  rw [numbered?_eq_some_iff_back]
  constructor
  · rintro ⟨hback, hne, hstem, hnewline⟩
    have hdigits : ∀ c ∈ digits, isDigit c = true := fun c hc =>
      List.all_eq_true.1 List.all_takeWhile c (hback.1 ▸ List.mem_reverse.2 hc)
    have hbody := (span_reverse_iff hdigits).1 hback
    exact ⟨(dropFinalNewline_eq_iff (getLast?_ne_newline hne hdigits)).1 hbody, hstem, hnewline,
      hne, hdigits⟩
  · rintro ⟨hcs, hstem, hnewline, hne, hdigits⟩
    have hbody := (dropFinalNewline_eq_iff (getLast?_ne_newline hne hdigits)).2 hcs
    exact ⟨(span_reverse_iff hdigits).2 hbody, hne, hstem, hnewline⟩

/-- **No key ends in a number in two ways.** -/
theorem EndsInNumber.eq (h : EndsInNumber cs stem digits) (h' : EndsInNumber cs stem' digits') :
    (stem, digits) = (stem', digits') :=
  Option.some.inj ((numbered?_eq_some_iff.2 h).symm.trans (numbered?_eq_some_iff.2 h'))

/-! ## Taking a key apart -/

/-- A key that ends in a number is taken apart as far as the number can be read. -/
theorem EndsInNumber.split_eq (h : EndsInNumber key.toList stem digits) :
    split key = (readDigits digits).map fun n => ⟨String.ofList stem, some n⟩ := by
  simp only [split, numbered?_eq_some_iff.2 h]
  cases readDigits digits <;> rfl

/-- Any other key is left as it is. -/
theorem split_eq_of_not_endsInNumber (h : ∀ stem digits, ¬ EndsInNumber key.toList stem digits) :
    split key = .ok ⟨key, none⟩ := by
  have hnone : numbered? key.toList = none := Option.eq_none_iff_forall_ne_some.2 fun r hr =>
    h r.1 r.2 (numbered?_eq_some_iff.1 hr)
  simp only [split, hnone]

/-- **A key ends in a number, or it does not.** -/
theorem split_cases (key : String) :
    (∃ stem digits, EndsInNumber key.toList stem digits ∧
      split key = (readDigits digits).map fun n => ⟨String.ofList stem, some n⟩) ∨
    (∀ stem digits, ¬ EndsInNumber key.toList stem digits) ∧ split key = .ok ⟨key, none⟩ := by
  by_cases h : ∃ stem digits, EndsInNumber key.toList stem digits
  · obtain ⟨stem, digits, h⟩ := h
    exact Or.inl ⟨stem, digits, h, h.split_eq⟩
  · simp only [not_exists] at h
    exact Or.inr ⟨h, split_eq_of_not_endsInNumber h⟩

theorem split_eq_some_iff : split key = .ok ⟨part, some n⟩ ↔
    ∃ digits, EndsInNumber key.toList part.toList digits ∧ digits.length ≤ digitLimit ∧
      digitsValue digits = n := by
  constructor
  · intro h
    rcases split_cases key with ⟨stem, digits, hends, hsplit⟩ | ⟨-, hsplit⟩
    · obtain ⟨m, hread, hparts⟩ := map_eq_ok (hsplit.symm.trans h)
      cases hparts
      exact ⟨digits, by rwa [String.toList_ofList], readDigits_eq_ok_iff.1 hread⟩
    · cases hsplit.symm.trans h
  · rintro ⟨digits, hends, hread⟩
    rw [hends.split_eq, readDigits_eq_ok_iff.2 hread, String.ofList_toList]
    rfl

theorem split_eq_none_iff : split key = .ok ⟨part, none⟩ ↔
    part = key ∧ ∀ stem digits, ¬ EndsInNumber key.toList stem digits := by
  constructor
  · intro h
    rcases split_cases key with ⟨stem, digits, -, hsplit⟩ | ⟨hends, hsplit⟩
    · obtain ⟨m, -, hparts⟩ := map_eq_ok (hsplit.symm.trans h)
      cases hparts
    · cases hsplit.symm.trans h
      exact ⟨rfl, hends⟩
  · rintro ⟨rfl, hends⟩
    exact split_eq_of_not_endsInNumber hends

theorem split_eq_error_iff : split key = .error e ↔
    ∃ stem digits, EndsInNumber key.toList stem digits ∧ digitLimit < digits.length ∧
      e = ⟨digits.length⟩ := by
  constructor
  · intro h
    rcases split_cases key with ⟨stem, digits, hends, hsplit⟩ | ⟨-, hsplit⟩
    · exact ⟨stem, digits, hends, readDigits_eq_error_iff.1 (map_eq_error (hsplit.symm.trans h))⟩
    · cases hsplit.symm.trans h
  · rintro ⟨stem, digits, hends, hread⟩
    rw [hends.split_eq, readDigits_eq_error_iff.2 hread]
    rfl

/-- **What becomes of every key.**  It is taken apart into a stem and a number where it ends in a
number of at most as many digits as can be read; it is refused, with the count of its digits, where
there are more of them; and any other key is its own stem, without a number.  A key ends in a number
behind its last hyphen, and in one way only. -/
theorem split_exact (key : String) :
    (∀ stem n, split key = .ok ⟨stem, some n⟩ ↔
      ∃ digits, EndsInNumber key.toList stem.toList digits ∧ digits.length ≤ digitLimit ∧
        digitsValue digits = n) ∧
    (∀ e, split key = .error e ↔
      ∃ stem digits, EndsInNumber key.toList stem digits ∧ digitLimit < digits.length ∧
        e = ⟨digits.length⟩) ∧
    (∀ stem, split key = .ok ⟨stem, none⟩ ↔
      stem = key ∧ ∀ stem digits, ¬ EndsInNumber key.toList stem digits) ∧
    ∀ stem digits, EndsInNumber key.toList stem digits → '-' ∉ digits ∧
      ∀ stem' digits', EndsInNumber key.toList stem' digits' → (stem', digits') = (stem, digits) :=
  ⟨fun _ _ => split_eq_some_iff, fun _ => split_eq_error_iff, fun _ => split_eq_none_iff,
    fun _ _ h => ⟨h.hyphen_not_mem, fun _ _ h' => h'.eq h⟩⟩

/-- Two hyphens, digits of two scripts with a zero in front, and a line feed at the end. -/
theorem split_exact_spacing :
    EndsInNumber "spacing-75-\u0660\u06675\n".toList "spacing-75".toList "\u0660\u06675".toList ∧
      '-' ∉ "\u0660\u06675".toList ∧
      split "spacing-75-\u0660\u06675\n" = .ok ⟨"spacing-75", some 75⟩ := by
  have hends : EndsInNumber "spacing-75-\u0660\u06675\n".toList "spacing-75".toList
      "\u0660\u06675".toList :=
    { eq_append := Or.inr rfl
      stem_ne_nil := by decide
      newline_not_mem := by decide
      digits_ne_nil := by decide
      isDigit := List.all_eq_true.1 rfl }
  obtain ⟨hnumber, -, -, hunique⟩ := split_exact "spacing-75-\u0660\u06675\n"
  exact ⟨hends, (hunique _ _ hends).1, (hnumber _ _).2 ⟨_, hends, by decide, rfl⟩⟩

/-- A stem stands in one line. -/
example : split "gray\n-5" = .ok ⟨"gray\n-5", none⟩ := rfl

end DesignTokens.Key
