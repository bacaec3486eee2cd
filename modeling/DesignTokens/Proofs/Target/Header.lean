import DesignTokens.Proofs.Compile
import DesignTokens.Proofs.Lines
import DesignTokens.Proofs.Target.Python

/-!
# Proofs/Target/Header — the comment in front of the declarations

The name of the generator is put into the last line of the header as it stands.  A name of one line
stays there, and the header is five lines of comment in every format.  **A line break in the name
ends the comment**: what stands behind it is a line of its own in front of the declarations, and may
be any line of code.

* `linesOf_header` — the lines of a header.
* `emit_header_lines` — the header of a document, and when it is what it should be.
* `emit_header_smuggles` — what a name can add to a document.
-/

namespace DesignTokens

open Text

/-! ## The lines of a header -/

theorem Timestamp.isPlain_text (time : Timestamp) : Python.IsPlain time.text := by
  have hnumber : ∀ n : ℕ, Python.IsPlain (toString n) := fun n =>
    Python.isPlain_of_isSigned (isSigned_toString n)
  have htwo : ∀ n : ℕ, Python.IsPlain (twoDigits n) := by
    intro n
    refine Python.IsPlain.append ?_ (hnumber n)
    split
    · exact Python.isPlain_of_all (by decide)
    · exact Python.isPlain_of_all (by decide)
  have hmark : ∀ mark ∈ ["-", " ", ":"], Python.IsPlain mark := fun mark hmem =>
    Python.isPlain_of_all (by revert mark; decide)
  have hdash := hmark "-" (by decide)
  have hcolon := hmark ":" (by decide)
  exact (((((((((((hnumber _).append hdash).append (htwo _)).append hdash).append
    (htwo _)).append (hmark " " (by decide))).append (htwo _)).append hcolon).append
    (htwo _)).append hcolon).append (htwo _))

theorem Python.IsPlain.isOneLine {s : String} (h : Python.IsPlain s) : IsOneLine s.toList :=
  ⟨fun hmem => absurd (h _ hmem) (by decide), fun hmem => absurd (h _ hmem) (by decide)⟩

/-- The lines of a header in front of the one that names the generator. -/
def noticeLines : List (List Char) :=
  ["# This file is generated from Adobe Spectrum design tokens.".toList,
   "# Source: https://github.com/adobe/spectrum-tokens".toList,
   "# Copyright 2017 Adobe Systems Incorporated".toList,
   "# Licensed under Apache License 2.0".toList]

/-- What stands in front of the name of the generator. -/
def beforeName : List Char := "# Generated by ".toList

/-- What stands behind the name of the generator. -/
def afterName (time : Timestamp) : List Char := " on ".toList ++ time.text.toList

variable {s : Settings} {generator : String} {time : Timestamp} {tokens : List Token}
  {document : String}

theorem isOneLine_afterName (time : Timestamp) : IsOneLine (afterName time) :=
  isOneLine_append_iff.2 ⟨by decide, time.isPlain_text.isOneLine⟩

/-- A header is its notice and the line that names the generator, each behind a line feed. -/
theorem toList_header (generator : String) (time : Timestamp) : (header generator time).toList =
    (noticeLines.flatMap fun l => l ++ ['\n']) ++
      (beforeName ++ (generator.toList ++ afterName time)) := by
  have hheader : header generator time =
      "# This file is generated from Adobe Spectrum design tokens." ++ "\n" ++
      ("# Source: https://github.com/adobe/spectrum-tokens" ++ "\n") ++
      ("# Copyright 2017 Adobe Systems Incorporated" ++ "\n") ++
      ("# Licensed under Apache License 2.0" ++ "\n") ++
      "# Generated by " ++ generator ++ " on " ++ time.text := rfl
  have hlines : ∀ a b c d before after : String,
      (a ++ "\n" ++ (b ++ "\n") ++ (c ++ "\n") ++ (d ++ "\n") ++ before ++ generator ++ after ++
        time.text).toList =
          ([a.toList, b.toList, c.toList, d.toList].flatMap fun l => l ++ ['\n']) ++
          (before.toList ++ (generator.toList ++ (after.toList ++ time.text.toList))) := by
    intro a b c d before after
    simp
  rw [hheader]
  exact hlines _ _ _ _ _ _

/-- Lines with a line feed behind each of them are lines in front of what follows. -/
theorem linesOf_flatMap_append {ls : List (List Char)} (h : ∀ l ∈ ls, IsOneLine l)
    (cs : List Char) : linesOf ((ls.flatMap fun l => l ++ ['\n']) ++ cs) = ls ++ linesOf cs := by
  induction ls with
  | nil => rfl
  | cons l ls ih =>
    obtain ⟨hl, hls⟩ := List.forall_mem_cons.1 h
    rw [List.flatMap_cons, List.append_assoc, List.append_assoc, List.singleton_append,
      linesOf_append_break hl.getLast?_ne, hl.linesOf_eq, ih hls, List.singleton_append,
      List.cons_append]

/-- **The lines of a header**: the name of the generator goes into the last line of the template,
and on from there. -/
theorem linesOf_header (generator : String) (time : Timestamp) :
    linesOf (header generator time).toList = noticeLines ++
      (linesOf (generator.toList ++ afterName time)).modifyHead (beforeName ++ ·) := by
  rw [toList_header, linesOf_flatMap_append (by decide), linesOf_append (by decide)]

/-- **The header is five lines where the name is one.** -/
theorem length_linesOf_header_iff :
    (linesOf (header generator time).toList).length = 5 ↔ IsOneLine generator.toList := by
  rw [linesOf_header, List.length_append, List.length_modifyHead]
  have hone : (linesOf (generator.toList ++ afterName time)).length = 1 ↔
      IsOneLine generator.toList := by
    rw [length_linesOf_eq_one_iff, isOneLine_append_iff,
      and_iff_left (isOneLine_afterName time)]
  rw [← hone]
  exact Nat.add_left_cancel_iff (n := noticeLines.length) (k := 1)

theorem linesOf_header_of_isOneLine (h : IsOneLine generator.toList) :
    linesOf (header generator time).toList =
      noticeLines ++ [beforeName ++ (generator.toList ++ afterName time)] := by
  rw [linesOf_header, (isOneLine_append_iff.2 ⟨h, isOneLine_afterName time⟩).linesOf_eq]
  rfl

/-! ## The lines of a document -/

/-- **In every format an empty line stands behind the header.** -/
theorem exists_toList_document (h : emit s.target generator time tokens = .ok document) :
    ∃ code, document.toList = (header generator time).toList ++ '\n' :: '\n' :: code := by
  obtain ⟨declarations, -, h⟩ := bind_eq_ok h
  rw [Settings.target] at h
  cases hformat : s.format with
  | tcl =>
    rw [hformat] at h
    obtain rfl := Except.ok.inj h
    exact ⟨_, by simp [Tcl.wrap]; rfl⟩
  | python =>
    rw [hformat] at h
    obtain rfl := Except.ok.inj h
    exact ⟨_, by simp [Python.wrap]; rfl⟩

theorem exists_linesOf_document (h : emit s.target generator time tokens = .ok document) :
    ∃ code, linesOf document.toList = linesOf (header generator time).toList ++ [] :: code := by
  obtain ⟨code, hdocument⟩ := exists_toList_document h
  have hlast : (header generator time).toList.getLast? ≠ some '\r' := by
    obtain ⟨before, hbefore⟩ : ∃ before, (header generator time).toList =
        before ++ afterName time := ⟨_, by rw [toList_header, ← List.append_assoc,
          ← List.append_assoc]⟩
    have hne : afterName time ≠ [] := List.append_ne_nil_of_left_ne_nil (by decide) _
    rw [hbefore, List.getLast?_append_of_ne_nil _ hne]
    exact (isOneLine_afterName time).getLast?_ne
  refine ⟨linesOf code, ?_⟩
  rw [hdocument, linesOf_append_break hlast]
  rfl

/-- **What the header of a document is**, in every format.  The lines of the document are those of
the header, an empty one, and the code.  The lines of the header are the notice, and the lines of
the name between the words around it.  So the header is five lines, each of them a comment, exactly
where the name is one line, and the name stands in the fifth. -/
theorem emit_header_lines (s : Settings) (time : Timestamp) (tokens : List Token)
    {document : String} (h : emit s.target s.generator.text time tokens = .ok document) :
    (∃ code, linesOf document.toList =
      linesOf (header s.generator.text time).toList ++ [] :: code) ∧
    linesOf (header s.generator.text time).toList = noticeLines ++
      (linesOf (s.generator.text.toList ++ afterName time)).modifyHead (beforeName ++ ·) ∧
    (((linesOf (header s.generator.text time).toList).length = 5 ∧
        ∀ l ∈ linesOf (header s.generator.text time).toList, l.head? = some '#') ↔
      IsOneLine s.generator.text.toList) ∧
    (IsOneLine s.generator.text.toList → linesOf (header s.generator.text time).toList =
      noticeLines ++ [beforeName ++ (s.generator.text.toList ++ afterName time)]) := by
  refine ⟨exists_linesOf_document h, linesOf_header _ _, ⟨fun hfive => ?_, fun hone => ⟨?_, ?_⟩⟩,
    linesOf_header_of_isOneLine⟩
  · exact length_linesOf_header_iff.1 hfive.1
  · exact length_linesOf_header_iff.2 hone
  · rw [linesOf_header_of_isOneLine hone]
    exact List.forall_mem_append.2 ⟨by decide, List.forall_mem_singleton.2 rfl⟩

/-- Settings with a name of two lines for the generator. -/
def twoLined : Settings :=
  { Settings.standard with generator := ⟨"x\nset var(a) 1", by decide⟩, format := .python }

/-- The header that the standard settings give, and one that does not stay within five lines, in
front of the same declarations. -/
theorem emit_header_lines_twoLined :
    (∃ document code, emit Settings.standard.target Settings.standard.generator.text
        ⟨2025, 1, 2, 3, 4, 5⟩ paperTokens = .ok document ∧
      linesOf document.toList = noticeLines ++
        ["# Generated by spectrum-tokens on 2025-01-02 03:04:05".toList] ++ [] :: code) ∧
    ∃ document code, emit twoLined.target twoLined.generator.text ⟨2025, 1, 2, 3, 4, 5⟩
        paperTokens = .ok document ∧
      linesOf document.toList = noticeLines ++
        ["# Generated by x".toList, "set var(a) 1 on 2025-01-02 03:04:05".toList] ++
          [] :: code := by
  obtain ⟨document, hstandard⟩ : ∃ document, emit Settings.standard.target
      Settings.standard.generator.text ⟨2025, 1, 2, 3, 4, 5⟩ paperTokens = .ok document :=
    emit_tcl _ _ _ _
  have htwoLined : emit twoLined.target twoLined.generator.text ⟨2025, 1, 2, 3, 4, 5⟩
      paperTokens = .ok _ :=
    Python.emit_python_eq _ _ fun t ht => Python.isLegible_of_isRead
      (isRead_paperTokens "1.5" (List.mem_cons_of_mem _ List.mem_cons_self) t
        (List.mem_cons_of_mem _ ht))
  obtain ⟨⟨code, hcode⟩, -, -, hone⟩ := emit_header_lines Settings.standard _ _ hstandard
  obtain ⟨⟨code', hcode'⟩, hlines, -, -⟩ := emit_header_lines twoLined _ _ htwoLined
  refine ⟨⟨_, code, hstandard, ?_⟩, _, code', htwoLined, ?_⟩
  · rw [hcode, hone (by decide)]
    rfl
  · rw [hcode', hlines]
    rfl

/-! ## Names of several lines -/

/-- **A name can add any lines of code to a document**: they stand behind the notice, in front of
all declarations. -/
theorem emit_header_smuggles (s : Settings) (time : Timestamp) (tokens : List Token) (code : String)
    (hcode : code.toList.getLast? ≠ some '\r') : ∃ generator : Label,
      ∀ document, emit s.target generator.text time tokens = .ok document → ∃ rest,
        linesOf document.toList =
          noticeLines ++ ["# Generated by x".toList] ++ linesOf code.toList ++ rest := by
  have hname : ∀ after, ("x" ++ "\n" ++ code ++ "\n" ++ "#").toList ++ after =
      "x".toList ++ '\n' :: (code.toList ++ '\n' :: ("#".toList ++ after)) := by
    intro after
    simp only [String.toList_append, List.append_assoc]
    rfl
  have hblank : Text.isBlank ("x" ++ "\n" ++ code ++ "\n" ++ "#") = false := by
    rw [Text.isBlank, ← List.append_nil (String.toList _), hname, List.all_append]
    rfl
  refine ⟨⟨_, hblank⟩, fun document h => ?_⟩
  obtain ⟨rest, hdocument⟩ := exists_linesOf_document h
  have hfirst : IsOneLine "x".toList := by decide
  refine ⟨linesOf ("#".toList ++ afterName time) ++ [] :: rest, ?_⟩
  rw [hdocument, linesOf_header, hname, linesOf_append_break (by decide),
    linesOf_append_break hcode, hfirst.linesOf_eq]
  simp only [List.modifyHead_cons, List.cons_append, List.append_assoc]
  rfl

end DesignTokens
