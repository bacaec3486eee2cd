import DesignTokens.Proofs.Spaced
import DesignTokens.Reading

/-!
# Proofs/Size — the grammar of sizes

A string that is given for a size is a placeholder, a count of pixels or a number, tried in this
order.  The order does not matter: **the three grammars have no text in common**, since each needs a
character that the others do not have.

* `pixels?_eq_some_iff`, `isNumber_iff` — each reader accepts exactly its grammar.
* `Reads`, `reads_read` — what becomes of a string, by the form that it has.
* `read_eq_ok_iff` — what is read of a string.
* `size_read_exact` — what becomes of every string.
-/

namespace DesignTokens

open Json Text

namespace Size

variable {c : Char} {cs body run : List Char} {negative : Bool} {s key : String} {e : Expr}
variable {raw : Value} {r : Except EntryFault Expr}

/-! ## Signs -/

/-- A minus, or nothing. -/
def sign (negative : Bool) : List Char := if negative then ['-'] else []

theorem eq_of_mem_sign (h : c ∈ sign negative) : c = '-' := by
  cases negative with
  | true => exact List.mem_singleton.1 h
  | false => exact absurd h List.not_mem_nil

theorem eq_sign_append (cs : List Char) : cs = sign (signed cs).1 ++ (signed cs).2 := by
  unfold signed
  split
  · rfl
  · rfl

/-- **A sign is told from what follows it**, unless that starts with a minus itself. -/
theorem signed_append (hbody : ∀ c ∈ body.head?, c ≠ '-') :
    signed (sign negative ++ body) = (negative, body) := by
  cases negative with
  | true => rfl
  | false =>
    change signed body = (false, body)
    unfold signed
    split
    · exact absurd rfl (hbody '-' rfl)
    · rfl

theorem ne_minus_of_isDigit (h : isDigit c = true) : c ≠ '-' := by
  rintro rfl
  exact absurd h (by decide)

theorem head?_digitRun_append {rest : List Char} (hrun : DigitRun run) :
    ∀ c ∈ (run ++ rest).head?, c ≠ '-' := by
  obtain ⟨hne, hdigits⟩ := hrun
  obtain ⟨d, digits, rfl⟩ := List.exists_cons_of_ne_nil hne
  rintro c ⟨⟩
  exact ne_minus_of_isDigit (hdigits d List.mem_cons_self)

/-! ## Counts of pixels -/

/-- A text that writes a count of pixels with the given sign and digits. -/
structure IsPixels (cs : List Char) (negative : Bool) (run : List Char) : Prop where
  run_run : DigitRun run
  eq_append : cs = sign negative ++ (run ++ ['p', 'x'])

/-- The number that digits with a sign write. -/
def signedValue (negative : Bool) (run : List Char) : Int :=
  if negative then -(digitsValue run : Int) else digitsValue run

/-- **The reader of pixels accepts exactly its grammar.** -/
theorem pixels?_eq_some_iff : pixels? cs = some (negative, run) ↔ IsPixels cs negative run := by
  constructor
  · intro h
    have hcs := eq_sign_append cs
    simp only [pixels?] at h
    split at h
    · rename_i hdigits
      cases h
      obtain ⟨hbody, hrun, -⟩ := span_iff.1 ⟨rfl, hdigits.2⟩
      exact ⟨⟨hdigits.1, hrun⟩, hcs.trans (congrArg _ hbody)⟩
    · cases h
  · rintro ⟨hrun, rfl⟩
    have hend : ∀ c ∈ ['p', 'x'].head?, ¬ isDigit c = true := by
      rintro c ⟨⟩
      decide
    obtain ⟨htake, hdrop⟩ := span_iff.2 ⟨rfl, hrun.2, hend⟩
    simp only [pixels?, signed_append (head?_digitRun_append hrun), htake, hdrop]
    exact if_pos ⟨hrun.1, trivial⟩

/-! ## Numbers -/

/-- A number without a sign: digits, digits and a point with further digits behind it or none, or a
point and digits. -/
inductive IsUnsigned : List Char → Prop
  | whole {digits : List Char} (digits_run : DigitRun digits) : IsUnsigned digits
  | point {digits part : List Char} (digits_run : DigitRun digits)
      (isDigit_part : ∀ c ∈ part, isDigit c = true) : IsUnsigned (digits ++ '.' :: part)
  | fraction {part : List Char} (part_run : DigitRun part) : IsUnsigned ('.' :: part)

/-- A text that writes a number. -/
def IsNumeral (cs : List Char) : Prop :=
  ∃ negative body, IsUnsigned body ∧ cs = sign negative ++ body

theorem IsUnsigned.head? (h : IsUnsigned body) : ∀ c ∈ body.head?, c ≠ '-' := by
  cases h with
  | whole digits_run =>
    rw [← List.append_nil body]
    exact head?_digitRun_append digits_run
  | point digits_run _ => exact head?_digitRun_append digits_run
  | fraction _ =>
    rintro c ⟨⟩
    decide

/-- **The reader of numbers accepts exactly its grammar.** -/
theorem isNumber_iff : isNumber cs = true ↔ IsNumeral cs := by
  constructor
  · intro h
    refine ⟨_, _, ?_, eq_sign_append cs⟩
    rcases body_of_isNumber h with ⟨hdigits, hne⟩ | ⟨digits, part, hbody, hdigits, hpart, hne⟩
    · exact .whole ⟨hne, hdigits⟩
    · rw [hbody]
      by_cases hnil : digits = []
      · subst hnil
        exact .fraction ⟨hne, hpart⟩
      · exact .point ⟨hnil, hdigits⟩ hpart
  · rintro ⟨negative, body, hbody, rfl⟩
    have hpoint : ∀ part : List Char, ∀ c ∈ ('.' :: part).head?, ¬ isDigit c = true := by
      rintro part c ⟨⟩
      decide
    simp only [isNumber, signed_append hbody.head?]
    cases hbody with
    | whole digits_run =>
      obtain ⟨hne, hdigits⟩ := digits_run
      obtain ⟨htake, hdrop⟩ := span_iff.2 ⟨(List.append_nil body).symm, hdigits, by simp⟩
      simp only [htake, hdrop]
      simpa using hne
    | @point digits part digits_run isDigit_part =>
      obtain ⟨hne, hdigits⟩ := digits_run
      obtain ⟨htake, hdrop⟩ := span_iff.2 ⟨rfl, hdigits, hpoint part⟩
      simp only [htake, hdrop]
      simp [hne, List.all_eq_true.2 isDigit_part]
    | @fraction part part_run =>
      obtain ⟨hne, hdigits⟩ := part_run
      have hnil : '.' :: part = [] ++ '.' :: part := rfl
      obtain ⟨htake, hdrop⟩ := span_iff.2 ⟨hnil, by simp, hpoint part⟩
      simp only [htake, hdrop]
      simp [hne, List.all_eq_true.2 hdigits]

/-! ## No text has two forms -/

/-- The characters of a count of pixels. -/
theorem IsPixels.mem (h : IsPixels cs negative run) (hc : c ∈ cs) :
    isDigit c = true ∨ c ∈ "-px".toList := by
  obtain ⟨⟨-, hdigits⟩, rfl⟩ := h
  rcases List.mem_append.1 hc with hc | hc
  · exact Or.inr (eq_of_mem_sign hc ▸ List.mem_cons_self)
  rcases List.mem_append.1 hc with hc | hc
  · exact Or.inl (hdigits c hc)
  · exact Or.inr (List.mem_cons_of_mem '-' hc)

/-- The characters of a number. -/
theorem IsNumeral.mem (h : IsNumeral cs) (hc : c ∈ cs) : isDigit c = true ∨ c ∈ "-.".toList := by
  obtain ⟨negative, body, hbody, rfl⟩ := h
  rcases List.mem_append.1 hc with hc | hc
  · exact Or.inr (eq_of_mem_sign hc ▸ List.mem_cons_self)
  cases hbody with
  | whole digits_run => exact Or.inl (digits_run.2 c hc)
  | @point digits part digits_run isDigit_part =>
    rcases List.mem_append.1 hc with hc | hc
    · exact Or.inl (digits_run.2 c hc)
    rcases List.mem_cons.1 hc with rfl | hc
    · exact Or.inr (by decide)
    · exact Or.inl (isDigit_part c hc)
  | fraction part_run =>
    rcases List.mem_cons.1 hc with rfl | hc
    · exact Or.inr (by decide)
    · exact Or.inl (part_run.2 c hc)

/-- **No count of pixels is a number**: it has letters. -/
theorem IsPixels.not_isNumeral (h : IsPixels cs negative run) : ¬ IsNumeral cs := by
  intro hnumeral
  have hp : 'p' ∈ cs := by
    rw [h.eq_append]
    exact List.mem_append_right _ (List.mem_append_right _ List.mem_cons_self)
  exact absurd (hnumeral.mem hp) (by decide)

theorem IsNumeral.pixels?_eq_none (h : IsNumeral cs) : pixels? cs = none := by
  refine Option.eq_none_iff_forall_ne_some.2 ?_
  rintro ⟨negative, run⟩ hpixels
  exact (pixels?_eq_some_iff.1 hpixels).not_isNumeral h

/-- **No count of pixels is a placeholder**: it has no braces. -/
theorem IsPixels.ne_placeholder (h : IsPixels cs negative run) (key : List Char) :
    cs ≠ Alias.placeholder key := by
  rintro rfl
  exact absurd (h.mem List.mem_cons_self) (by decide)

/-- **Nor is a number**. -/
theorem IsNumeral.ne_placeholder (h : IsNumeral cs) (key : List Char) :
    cs ≠ Alias.placeholder key := by
  rintro rfl
  exact absurd (h.mem List.mem_cons_self) (by decide)

/-! ## What is read -/

theorem mayName_iff : mayName key = true ↔
    ¬ "font".toList <:+: key.toList ∨ "font-size".toList <:+: key.toList := by
  rw [mayName, Bool.or_eq_true, Bool.not_eq_true', ← Bool.not_eq_true, occursIn_iff, occursIn_iff]

/-- What becomes of a string that is given for a size, by the form that it has. -/
inductive Reads (s : String) : Except EntryFault Expr → Prop
  | reference {key : String} (isKey : Alias.IsKey key.toList)
      (eq_placeholder : s.toList = Alias.placeholder key.toList) (named : mayName key = true) :
      Reads s (.ok (.reference key))
  /-- A size may not name the key. -/
  | unnamed {key : String} (isKey : Alias.IsKey key.toList)
      (eq_placeholder : s.toList = Alias.placeholder key.toList)
      (not_named : ¬ mayName key = true) : Reads s (.error (.rejected (.size (.string s))))
  | pixels {negative : Bool} {run : List Char} (isPixels : IsPixels s.toList negative run)
      (short : run.length ≤ digitLimit) : Reads s (.ok (.pixels (signedValue negative run)))
  /-- The count has too many digits. -/
  | long {negative : Bool} {run : List Char} (isPixels : IsPixels s.toList negative run)
      (long : digitLimit < run.length) : Reads s (.error (.digits ⟨run.length⟩))
  | number (isNumeral : IsNumeral s.toList) : Reads s (.ok (.number s))
  | neither (not_placeholder : ¬ ∃ key, Alias.IsKey key ∧ s.toList = Alias.placeholder key)
      (not_pixels : ∀ negative run, ¬ IsPixels s.toList negative run)
      (not_numeral : ¬ IsNumeral s.toList) : Reads s (.error (.rejected (.size (.string s))))

theorem Reads.read_eq (h : Reads s r) : read (.string s) = r := by
  cases h with
  | reference isKey eq_placeholder named =>
    simp only [read, Alias.read?_eq_some_iff.2 ⟨isKey, eq_placeholder⟩, if_pos named]
  | unnamed isKey eq_placeholder not_named =>
    simp only [read, Alias.read?_eq_some_iff.2 ⟨isKey, eq_placeholder⟩, if_neg not_named]
  | pixels isPixels short =>
    simp only [read, Alias.read?_eq_none isPixels.ne_placeholder, pixels?_eq_some_iff.2 isPixels,
      readDigits_eq_ok_iff.2 ⟨short, rfl⟩]
    rfl
  | long isPixels long =>
    simp only [read, Alias.read?_eq_none isPixels.ne_placeholder, pixels?_eq_some_iff.2 isPixels,
      readDigits_eq_error_iff.2 ⟨long, rfl⟩]
    rfl
  | number isNumeral =>
    simp only [read, Alias.read?_eq_none isNumeral.ne_placeholder, isNumeral.pixels?_eq_none,
      if_pos (isNumber_iff.2 isNumeral)]
  | neither not_placeholder not_pixels not_numeral =>
    have hpixels : pixels? s.toList = none := by
      refine Option.eq_none_iff_forall_ne_some.2 ?_
      rintro ⟨negative, run⟩ h
      exact not_pixels negative run (pixels?_eq_some_iff.1 h)
    simp only [read, Alias.read?_eq_none_iff.2 not_placeholder, hpixels,
      if_neg (mt isNumber_iff.1 not_numeral)]

theorem exists_reads (s : String) : ∃ r, Reads s r := by
  by_cases hplaceholder : ∃ key, Alias.IsKey key ∧ s.toList = Alias.placeholder key
  · obtain ⟨key, hkey, hs⟩ := hplaceholder
    rw [← String.toList_ofList (l := key)] at hkey hs
    by_cases hname : mayName (String.ofList key) = true
    · exact ⟨_, .reference hkey hs hname⟩
    · exact ⟨_, .unnamed hkey hs hname⟩
  by_cases hpixels : ∃ negative run, IsPixels s.toList negative run
  · obtain ⟨negative, run, hpixels⟩ := hpixels
    rcases Nat.lt_or_ge digitLimit run.length with hlong | hshort
    · exact ⟨_, .long hpixels hlong⟩
    · exact ⟨_, .pixels hpixels hshort⟩
  by_cases hnumeral : IsNumeral s.toList
  · exact ⟨_, .number hnumeral⟩
  · exact ⟨_, .neither hplaceholder (fun negative run h => hpixels ⟨negative, run, h⟩) hnumeral⟩

/-- **What becomes of a string** is told by the form that it has. -/
theorem reads_read (s : String) : Reads s (read (.string s)) := by
  obtain ⟨r, h⟩ := exists_reads s
  rwa [h.read_eq]

/-- **What is read of a string**: the placeholders for keys that a size may name, the counts of
pixels that are not too long, and the numbers, whose text is kept. -/
theorem read_eq_ok_iff : read (.string s) = .ok e ↔
    (∃ key, e = .reference key ∧ Alias.IsKey key.toList ∧
      s.toList = Alias.placeholder key.toList ∧ mayName key = true) ∨
    (∃ negative run, e = .pixels (signedValue negative run) ∧ IsPixels s.toList negative run ∧
      run.length ≤ digitLimit) ∨
    (e = .number s ∧ IsNumeral s.toList) := by
  constructor
  · intro h
    have hreads := reads_read s
    rw [h] at hreads
    cases hreads with
    | reference isKey eq_placeholder named =>
      exact Or.inl ⟨_, rfl, isKey, eq_placeholder, named⟩
    | pixels isPixels short => exact Or.inr (Or.inl ⟨_, _, rfl, isPixels, short⟩)
    | number isNumeral => exact Or.inr (Or.inr ⟨rfl, isNumeral⟩)
  · rintro (⟨key, rfl, hkey, hs, hname⟩ | ⟨negative, run, rfl, hpixels, hlength⟩ | ⟨rfl, hnumeral⟩)
    · exact (Reads.reference hkey hs hname).read_eq
    · exact (Reads.pixels hpixels hlength).read_eq
    · exact (Reads.number hnumeral).read_eq

/-- **What ends the reading** are the counts of pixels with too many digits. -/
theorem read_eq_digits_iff : (∃ e, read (.string s) = .error (.digits e)) ↔
    ∃ negative run, IsPixels s.toList negative run ∧ digitLimit < run.length := by
  constructor
  · rintro ⟨e, h⟩
    have hreads := reads_read s
    rw [h] at hreads
    cases hreads with
    | long isPixels long => exact ⟨_, _, isPixels, long⟩
  · rintro ⟨negative, run, hpixels, hlength⟩
    exact ⟨_, (Reads.long hpixels hlength).read_eq⟩

/-- **What is rejected** has none of the three forms, or is a placeholder for a key that a size may
not name. -/
theorem read_eq_rejected_iff : read (.string s) = .error (.rejected (.size (.string s))) ↔
    (∀ key : String, Alias.IsKey key.toList → s.toList = Alias.placeholder key.toList →
      ¬ mayName key = true) ∧
    (¬ ∃ negative run, IsPixels s.toList negative run) ∧ ¬ IsNumeral s.toList := by
  constructor
  · intro h
    refine ⟨fun key hkey hs hname => ?_, ?_, fun hnumber => ?_⟩
    · cases h.symm.trans (read_eq_ok_iff.2 (Or.inl ⟨key, rfl, hkey, hs, hname⟩))
    · rintro ⟨negative, run, hpixels⟩
      by_cases hlength : run.length ≤ digitLimit
      · have hread := read_eq_ok_iff.2 (Or.inr (Or.inl ⟨negative, run, rfl, hpixels, hlength⟩))
        cases h.symm.trans hread
      · obtain ⟨e, hread⟩ :=
          read_eq_digits_iff.2 ⟨negative, run, hpixels, Nat.lt_of_not_le hlength⟩
        cases h.symm.trans hread
    · cases h.symm.trans (read_eq_ok_iff.2 (Or.inr (Or.inr ⟨rfl, hnumber⟩)))
  · rintro ⟨hplaceholder, hpixels, hnumeral⟩
    obtain ⟨r, hreads⟩ := exists_reads s
    rw [hreads.read_eq]
    cases hreads with
    | reference isKey eq_placeholder named =>
      exact absurd named (hplaceholder _ isKey eq_placeholder)
    | unnamed => rfl
    | pixels isPixels _ => exact absurd ⟨_, _, isPixels⟩ hpixels
    | long isPixels _ => exact absurd ⟨_, _, isPixels⟩ hpixels
    | number isNumeral => exact absurd isNumeral hnumeral
    | neither => rfl

end Size

/-- **What becomes of every string that is given for a size.**  It is a placeholder for a key that a
size may name; or a count of pixels, read with its sign unless it has too many digits, which ends
the reading; or a number, whose text is kept; or it is rejected.  No two of the three forms have a
text in common. -/
theorem size_read_exact (s : String) :
    (∀ key, Size.read (.string s) = .ok (.reference key) ↔
      Alias.IsKey key.toList ∧ s.toList = Alias.placeholder key.toList ∧
        (¬ "font".toList <:+: key.toList ∨ "font-size".toList <:+: key.toList)) ∧
    (∀ count, Size.read (.string s) = .ok (.pixels count) ↔
      ∃ negative run, Size.IsPixels s.toList negative run ∧ run.length ≤ digitLimit ∧
        count = Size.signedValue negative run) ∧
    (∀ text, Size.read (.string s) = .ok (.number text) ↔ text = s ∧ Size.IsNumeral s.toList) ∧
    ((∃ e, Size.read (.string s) = .error (.digits e)) ↔
      ∃ negative run, Size.IsPixels s.toList negative run ∧ digitLimit < run.length) ∧
    (Size.read (.string s) = .error (.rejected (.size (.string s))) ↔
      (∀ key : String, Alias.IsKey key.toList → s.toList = Alias.placeholder key.toList →
        "font".toList <:+: key.toList ∧ ¬ "font-size".toList <:+: key.toList) ∧
      (¬ ∃ negative run, Size.IsPixels s.toList negative run) ∧ ¬ Size.IsNumeral s.toList) ∧
    (∀ key, s.toList = Alias.placeholder key →
      (∀ negative run, ¬ Size.IsPixels s.toList negative run) ∧ ¬ Size.IsNumeral s.toList) ∧
    ∀ negative run, Size.IsPixels s.toList negative run → ¬ Size.IsNumeral s.toList := by
  refine ⟨fun key => ?_, fun count => ?_, fun text => ?_, Size.read_eq_digits_iff, ?_,
    fun key hs => ?_, fun negative run hpixels => hpixels.not_isNumeral⟩
  · rw [Size.read_eq_ok_iff, ← Size.mayName_iff]
    constructor
    · rintro (⟨key, he, h⟩ | ⟨negative, run, he, -⟩ | ⟨he, -⟩)
      · cases he
        exact h
      · cases he
      · cases he
    · intro h
      exact Or.inl ⟨key, rfl, h⟩
  · rw [Size.read_eq_ok_iff]
    constructor
    · rintro (⟨key, he, -⟩ | ⟨negative, run, he, hpixels, hlength⟩ | ⟨he, -⟩)
      · cases he
      · cases he
        exact ⟨negative, run, hpixels, hlength, rfl⟩
      · cases he
    · rintro ⟨negative, run, hpixels, hlength, rfl⟩
      exact Or.inr (Or.inl ⟨negative, run, rfl, hpixels, hlength⟩)
  · rw [Size.read_eq_ok_iff]
    constructor
    · rintro (⟨key, he, -⟩ | ⟨negative, run, he, -⟩ | ⟨he, hnumber⟩)
      · cases he
      · cases he
      · cases he
        exact ⟨rfl, hnumber⟩
    · rintro ⟨rfl, hnumber⟩
      exact Or.inr (Or.inr ⟨rfl, hnumber⟩)
  · simp only [Size.read_eq_rejected_iff, Size.mayName_iff, not_or, not_not]
  · exact ⟨fun negative run hpixels => hpixels.ne_placeholder key hs,
      fun hnumber => hnumber.ne_placeholder key hs⟩

example : Size.read (.string "-0\u0663px") = .ok (.pixels (-3)) := rfl

end DesignTokens
