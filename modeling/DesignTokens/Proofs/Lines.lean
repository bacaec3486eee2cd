import DesignTokens.Text.Newline
import Mathlib.Data.List.Basic

/-!
# Proofs/Lines — the lines of a text

Line breaks are a line feed, a carriage return or both.  Written alike they are told part by part,
and so are the lines of a text that is put together.

* `unifyNewlines_append` — line breaks of a text in two parts.
* `linesOf_append_break`, `linesOf_append` — the lines of a text in two parts.
* `length_linesOf_eq_one_iff` — a text of one line.
-/

namespace DesignTokens.Text

variable {c : Char} {cs a b : List Char}

/-! ## Line breaks -/

/-- A text without a line break. -/
def IsOneLine (cs : List Char) : Prop := '\n' ∉ cs ∧ '\r' ∉ cs

instance (cs : List Char) : Decidable (IsOneLine cs) := inferInstanceAs (Decidable (_ ∧ _))

theorem isOneLine_append_iff : IsOneLine (a ++ b) ↔ IsOneLine a ∧ IsOneLine b := by
  simp only [IsOneLine, List.mem_append, not_or]
  exact and_and_and_comm

theorem IsOneLine.getLast?_ne (h : IsOneLine cs) : cs.getLast? ≠ some '\r' := fun hlast =>
  h.2 (List.mem_of_getLast? hlast)

/-- A carriage return is a line break of its own where no line feed follows it. -/
theorem unifyNewlines_return (h : cs.head? ≠ some '\n') :
    unifyNewlines ('\r' :: cs) = '\n' :: unifyNewlines cs := by
  cases cs with
  | nil => rfl
  | cons c cs =>
    rw [unifyNewlines]
    rintro rest ⟨⟩
    exact h rfl

theorem unifyNewlines_cons (h : c ≠ '\r') : unifyNewlines (c :: cs) = c :: unifyNewlines cs := by
  rw [unifyNewlines]
  · rintro rest rfl
    exact absurd rfl h
  · exact h

/-- **Line breaks are written alike part by part**, unless the parts meet within one. -/
theorem unifyNewlines_append (h : a.getLast? = some '\r' → b.head? ≠ some '\n') :
    unifyNewlines (a ++ b) = unifyNewlines a ++ unifyNewlines b := by
  fun_induction unifyNewlines a with
  | case1 => rfl
  | case2 rest ih =>
    have hrest : rest.getLast? = some '\r' → b.head? ≠ some '\n' := fun hlast =>
      h (by rw [List.getLast?_cons, List.getLast?_cons, hlast]; rfl)
    rw [List.cons_append, List.cons_append, unifyNewlines, ih hrest, List.cons_append]
  | case3 rest hpair ih =>
    have hhead : (rest ++ b).head? ≠ some '\n' := by
      cases rest with
      | nil => exact h rfl
      | cons c rest => exact fun he => hpair rest (by cases he; rfl)
    have hrest : rest.getLast? = some '\r' → b.head? ≠ some '\n' := fun hlast =>
      h (by rw [List.getLast?_cons, hlast]; rfl)
    rw [List.cons_append, unifyNewlines_return hhead, ih hrest, List.cons_append]
  | case4 c rest hpair hreturn ih =>
    have hrest : rest.getLast? = some '\r' → b.head? ≠ some '\n' := fun hlast =>
      h (by rw [List.getLast?_cons, hlast]; rfl)
    rw [List.cons_append, unifyNewlines_cons hreturn, ih hrest, List.cons_append]

theorem unifyNewlines_of_not_mem (h : '\r' ∉ cs) : unifyNewlines cs = cs := by
  induction cs with
  | nil => rfl
  | cons c cs ih =>
    obtain ⟨hc, hcs⟩ := not_or.1 (mt List.mem_cons.2 h)
    rw [unifyNewlines_cons (Ne.symm hc), ih hcs]

/-- A text holds a line feed, once its line breaks are written alike, where it holds a break. -/
theorem mem_unifyNewlines_iff : '\n' ∈ unifyNewlines cs ↔ '\n' ∈ cs ∨ '\r' ∈ cs := by
  fun_induction unifyNewlines cs with
  | case1 => simp
  | case2 rest ih => simp
  | case3 rest hpair ih => simp
  | case4 c rest hpair hreturn ih => simp [ih, Ne.symm hreturn, or_assoc]

/-! ## Lines -/

/-- The lines of a text, which end with a line feed, with a carriage return or with both. -/
def linesOf (cs : List Char) : List (List Char) := (unifyNewlines cs).splitOn '\n'

theorem IsOneLine.linesOf_eq (h : IsOneLine cs) : linesOf cs = [cs] := by
  rw [linesOf, unifyNewlines_of_not_mem h.2, List.splitOn_eq_singleton h.1]

/-- **A line feed is a line break**, and ends the first part where no carriage return does. -/
theorem linesOf_append_break (h : a.getLast? ≠ some '\r') :
    linesOf (a ++ '\n' :: b) = linesOf a ++ linesOf b := by
  rw [linesOf, unifyNewlines_append fun hlast => absurd hlast h, unifyNewlines_cons (by decide),
    List.splitOn_append_cons_self]
  rfl

/-- **A text without a line break in front** goes into the first line. -/
theorem linesOf_append (h : IsOneLine a) :
    linesOf (a ++ b) = (linesOf b).modifyHead (a ++ ·) := by
  rw [linesOf, unifyNewlines_append fun hlast => absurd hlast h.getLast?_ne,
    unifyNewlines_of_not_mem h.2, linesOf]
  generalize unifyNewlines b = b
  have hfeed := h.1
  induction a with
  | nil => exact (congrFun List.modifyHead_id (b.splitOn '\n')).symm
  | cons c a ih =>
    obtain ⟨hc, ha⟩ := not_or.1 (mt List.mem_cons.2 hfeed)
    have hrest := ih ⟨ha, fun hmem => h.2 (List.mem_cons_of_mem _ hmem)⟩ ha
    rw [List.cons_append, List.splitOn_cons_eq_if_modifyHead, if_neg (by simpa using Ne.symm hc),
      hrest, List.modifyHead_modifyHead]
    rfl

/-- **A text is one line where it holds no line break.** -/
theorem length_linesOf_eq_one_iff : (linesOf cs).length = 1 ↔ IsOneLine cs := by
  refine ⟨fun h => ?_, fun h => by rw [h.linesOf_eq, List.length_singleton]⟩
  have hfeed : '\n' ∉ unifyNewlines cs := by
    intro hmem
    obtain ⟨before, after, heq⟩ := List.append_of_mem hmem
    rw [linesOf, heq, List.splitOn_append_cons_self, List.length_append] at h
    have hbefore := List.length_pos_of_ne_nil (List.splitOn_ne_nil '\n' before)
    have hafter := List.length_pos_of_ne_nil (List.splitOn_ne_nil '\n' after)
    omega
  exact not_or.1 (mt mem_unifyNewlines_iff.2 hfeed)

end DesignTokens.Text
