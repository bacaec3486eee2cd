/-!
# Text/Occurs — words inside texts

* `occursIn_iff` — the search finds a word exactly when the text is something, the word, and
  something.
-/

namespace DesignTokens.Text

/-- Whether a word occurs in a text. -/
def occursIn (word : List Char) : List Char → Bool
  | [] => word.isEmpty
  | c :: cs => word.isPrefixOf (c :: cs) || occursIn word cs

/-- **The search finds a word exactly when it is a stretch of the text.** -/
theorem occursIn_iff {word cs : List Char} : occursIn word cs = true ↔ word <:+: cs := by
  induction cs with
  | nil => simp [occursIn]
  | cons c cs ih => simp [occursIn, ih, List.infix_cons_iff]

/-- The text with its ASCII letters in lower case. -/
def lowered (s : String) : List Char := s.toList.map Char.toLower

end DesignTokens.Text
