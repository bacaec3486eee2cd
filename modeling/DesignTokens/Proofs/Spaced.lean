import DesignTokens.Proofs.Numeral
import DesignTokens.Proofs.Runs
import Mathlib.Data.List.TakeWhile

/-!
# Proofs/Spaced — words with white space around them

A text may be a row of words, where white space may stand before each word and behind the last one.
Such a text is read from its front, by turns **white space and a word**: no word that a reader looks
for starts with white space, so it is clear where the white space ends.

* `Spaced` — the texts that are a row of given words.
* `spaced_cons_iff` — the first word is what stands behind the white space.
-/

namespace DesignTokens.Text

variable {c : Char} {cs rest run word : List Char} {words : List (List Char)}

/-! ## White space -/

/-- White space, or nothing. -/
def Blank (cs : List Char) : Prop := ∀ c ∈ cs, isSpace c = true

/-- White space ends where a word starts. -/
theorem skipSpace_eq_cons_iff : skipSpace cs = c :: rest ↔
    ∃ blank, Blank blank ∧ cs = blank ++ c :: rest ∧ isSpace c = false := by
  constructor
  · intro h
    obtain ⟨hcs, hblank, hc⟩ := span_iff.1 ⟨rfl, h⟩
    exact ⟨_, hblank, hcs, Bool.eq_false_iff.2 (hc c rfl)⟩
  · rintro ⟨blank, hblank, hcs, hc⟩
    refine (span_iff.2 ⟨hcs, hblank, ?_⟩).2
    rintro c ⟨⟩
    exact Bool.eq_false_iff.1 hc

/-! ## Rows of words -/

/-- The words in their order, with white space or nothing before each of them and behind the last
one. -/
inductive Spaced : List (List Char) → List Char → Prop
  | nil {blank : List Char} (isBlank : Blank blank) : Spaced [] blank
  | cons {blank word rest : List Char} {words : List (List Char)} (isBlank : Blank blank)
      (spaced : Spaced words rest) : Spaced (word :: words) (blank ++ (word ++ rest))

theorem spaced_nil_iff : Spaced [] cs ↔ skipSpace cs = [] := by
  rw [skipSpace, List.dropWhile_eq_nil_iff]
  constructor
  · intro h
    cases h with
    | nil isBlank => exact isBlank
  · exact .nil

/-- **The first word of a row is what stands behind the white space.** -/
theorem spaced_cons_iff (hc : isSpace c = false) : Spaced ((c :: word) :: words) cs ↔
    ∃ rest, skipSpace cs = c :: word ++ rest ∧ Spaced words rest := by
  constructor
  · intro h
    cases h with
    | @cons blank _ rest _ isBlank spaced =>
      exact ⟨rest, skipSpace_eq_cons_iff.2 ⟨blank, isBlank, rfl, hc⟩, spaced⟩
  · rintro ⟨rest, hskip, hrest⟩
    obtain ⟨blank, hblank, rfl, -⟩ := skipSpace_eq_cons_iff.1 hskip
    exact .cons hblank hrest

/-- A row whose first word starts with no digit starts with none itself. -/
theorem Spaced.head? (h : Spaced ((c :: word) :: words) cs) (hc : isDigit c = false) :
    ∀ d ∈ cs.head?, ¬ isDigit d = true := by
  cases h with
  | @cons blank _ rest _ isBlank spaced =>
    cases blank with
    | nil =>
      rintro d ⟨⟩
      exact Bool.eq_false_iff.1 hc
    | cons d blank =>
      rintro d ⟨⟩ hd
      have hspace : isSpace d = true := isBlank d List.mem_cons_self
      exact Bool.eq_false_iff.1 (not_isSpace_of_isDigit hd) hspace

/-! ## Runs of digits -/

/-- One digit of some script, or several. -/
def DigitRun (cs : List Char) : Prop := cs ≠ [] ∧ ∀ c ∈ cs, isDigit c = true

/-- **A run of digits in a row of words.** -/
theorem spaced_run_iff (hrun : DigitRun run) : Spaced (run :: words) cs ↔
    ∃ rest, skipSpace cs = run ++ rest ∧ Spaced words rest := by
  obtain ⟨c, digits, rfl⟩ := List.exists_cons_of_ne_nil hrun.1
  exact spaced_cons_iff (not_isSpace_of_isDigit (hrun.2 c List.mem_cons_self))

end DesignTokens.Text
