import DesignTokens.Proofs.Json.Literal
import DesignTokens.Proofs.Target.Python

/-!
# Proofs/Target/StringLiteral — what Python reads in a string literal

Keys and names are written for Python as JSON writes them.  The two languages agree on every escape
but the pair of code units for a character past U+FFFF: JSON joins the two, and **Python reads each
of them as a code point of its own**.

* `Python.string?_literal` — the code points that Python reads.
* `render_python_strings` — the keys and names in a declaration.
* `Python.units_eq_points_iff` — the strings that are read back as they were.
-/

namespace DesignTokens

namespace Python

open Text Json

/-! ## String literals of Python -/

/-- The code point that an escape of one letter stands for. -/
def letterEscape? : Char → Option Nat
  | '\\' => some 0x5C
  | '\x27' => some 0x27
  | '"' => some 0x22
  | 'a' => some 0x07
  | 'b' => some 0x08
  | 'f' => some 0x0C
  | 'n' => some 0x0A
  | 'r' => some 0x0D
  | 't' => some 0x09
  | 'v' => some 0x0B
  | _ => none

/-- How many digits follow the letter of a hexadecimal escape. -/
def hexWidth? : Char → Option Nat
  | 'x' => some 2
  | 'u' => some 4
  | 'U' => some 8
  | _ => none

/-- The code point that a hexadecimal escape stands for. -/
def hexEscape? (width : Nat) (rest : List Char) : Option Nat :=
  if rest.length < width then none
  else (hexNumber? (rest.take width)).filter (· < 0x110000)

/-- Whether a character is an octal digit. -/
def isOctal (c : Char) : Bool := '0' ≤ c && c ≤ '7'

/-- The octal digits of an escape, three at most. -/
def octalRun (rest : List Char) : List Char := (rest.take 3).takeWhile isOctal

/-- An escape given what follows its backslash: the code points it stands for, and how many
characters it takes.  A backslash before any other character stands for itself, and the end of a
line behind one for nothing. -/
def escape? : List Char → Option (List Nat × Nat)
  | [] => none
  | '\r' :: '\n' :: _ => some ([], 2)
  | c :: rest =>
    if c = '\n' ∨ c = '\r' then some ([], 1)
    -- characters by name: which names there are is left open
    else if c = 'N' then none
    else if isOctal c then
      let digits := octalRun (c :: rest)
      some ([digits.foldl (fun n d => 8 * n + (d.toNat - 0x30)) 0], digits.length)
    else match hexWidth? c with
      | some width => (hexEscape? width rest).map fun n => ([n], width + 1)
      | none =>
        match letterEscape? c with
        | some n => some ([n], 1)
        | none => some ([0x5C], 0)

/-- The code points up to the closing quote; the next `skip` characters belong to an escape that has
been read. -/
def stringBody? (skip : Nat) : List Char → Option (List Nat × List Char)
  | [] => none
  | c :: rest =>
    match skip with
    | skip + 1 => stringBody? skip rest
    | 0 =>
      if c = '"' then some ([], rest)
      else if c = '\\' then
        match escape? rest with
        | some (points, n) => (stringBody? n rest).map fun r => (points ++ r.1, r.2)
        | none => none
      else if c = '\n' ∨ c = '\r' ∨ c = '\x00' then none
      else (stringBody? 0 rest).map fun r => (c.toNat :: r.1, r.2)

/-- A string literal between double quotes at the front of a text: its code points, and what follows
it.  Three quotes open a literal of another kind. -/
def string? : List Char → Option (List Nat × List Char)
  | '"' :: '"' :: '"' :: _ => none
  | '"' :: rest => stringBody? 0 rest
  | _ => none

/-! ## Code points and code units -/

/-- The code points of a string. -/
def points (s : String) : List Nat := s.toList.map Char.toNat

/-- The code units in which a character is written. -/
def charUnits (c : Char) : List Nat :=
  if c.toNat < 0x10000 then [c.toNat] else [highUnit c, lowUnit c]

/-- The code units in which a string is written. -/
def units (s : String) : List Nat := s.toList.flatMap charUnits

variable {c : Char} {cs t rest : List Char} {ns : List Nat} {n : Nat} {s : String}

theorem charUnits_of_lt (h : c.toNat < 0x10000) : charUnits c = [c.toNat] := if_pos h

theorem length_charUnits_pos (c : Char) : 1 ≤ (charUnits c).length := by
  unfold charUnits
  split
  · exact Nat.le_refl 1
  · exact Nat.le_succ 1

theorem length_flatMap_charUnits (cs : List Char) : cs.length ≤ (cs.flatMap charUnits).length := by
  induction cs with
  | nil => exact Nat.zero_le _
  | cons c cs ih =>
    have hc := length_charUnits_pos c
    rw [List.flatMap_cons, List.length_cons, List.length_append]
    omega

/-- **The code units are the code points** where no character is past U+FFFF, and only there. -/
theorem flatMap_charUnits_eq_iff (cs : List Char) :
    cs.flatMap charUnits = cs.map Char.toNat ↔ ∀ c ∈ cs, c.toNat < 0x10000 := by
  induction cs with
  | nil => exact iff_of_true rfl (List.forall_mem_nil _)
  | cons c cs ih =>
    rw [List.forall_mem_cons, List.flatMap_cons, List.map_cons]
    refine ⟨fun h => ?_, fun h => ?_⟩
    · -- two units for one character make the units more than the points
      have hc : c.toNat < 0x10000 := by
        by_contra hc
        have hlength := congrArg List.length h
        have htail := length_flatMap_charUnits cs
        rw [charUnits, if_neg hc] at hlength
        simp only [List.length_append, List.length_cons, List.length_nil, List.length_map]
          at hlength
        omega
      rw [charUnits_of_lt hc] at h
      exact ⟨hc, ih.1 (List.cons.inj h).2⟩
    · rw [charUnits_of_lt h.1, ih.2 h.2]
      rfl

theorem units_eq_points_iff (s : String) :
    units s = points s ↔ ∀ c ∈ s.toList, c.toNat < 0x10000 :=
  flatMap_charUnits_eq_iff s.toList

/-! ## Reading escapes -/

/-- The escape of a code unit is read alone, whatever follows it. -/
theorem escape?_unit (hn : n < 0x10000) (t : List Char) :
    escape? ('u' :: (hexDigits 4 n ++ t)) = some ([n], 5) := by
  have hlength : ¬ (hexDigits 4 n ++ t).length < 4 := by
    rw [List.length_append, length_hexDigits]
    omega
  have hread : hexEscape? 4 (hexDigits 4 n ++ t) = some n := by
    rw [hexEscape?, if_neg hlength, List.take_left' (length_hexDigits 4 n), hexNumber?_hexDigits,
      Nat.mod_eq_of_lt hn]
    exact Option.filter_some_pos (decide_eq_true (Nat.lt_trans hn (by decide)))
  change (hexEscape? 4 (hexDigits 4 n ++ t)).map (fun n => ([n], 5)) = _
  rw [hread]
  rfl

/-- The letters that JSON writes behind a backslash stand for the same in both languages. -/
theorem escape?_letter {l : Char} (mem : l ∈ escapeLetters) (stands : Json.letterEscape? l = some c)
    (t : List Char) : escape? (l :: t) = some ([c.toNat], 1) := by
  have hboth : ∀ l ∈ escapeLetters,
      escape? (l :: t) = (Json.letterEscape? l).map fun c => ([c.toNat], 1) := by
    intro l hl
    fin_cases hl <;> rfl
  rw [hboth l mem, stands]
  rfl

/-! ## Reading strings -/

/-- Reading passes over the characters of an escape. -/
theorem stringBody?_append (cs t : List Char) :
    stringBody? cs.length (cs ++ t) = stringBody? 0 t := by
  induction cs with
  | nil => rfl
  | cons c cs ih => rw [List.cons_append, List.length_cons, stringBody?, ih]

theorem stringBody?_backslash (cs : List Char) (h : escape? (cs ++ t) = some (ns, cs.length)) :
    stringBody? 0 ('\\' :: (cs ++ t)) = (stringBody? 0 t).map fun r => (ns ++ r.1, r.2) := by
  rw [stringBody?, if_neg (by decide), if_pos rfl, h]
  simp only [stringBody?_append]

theorem stringBody?_unit (hn : n < 0x10000) (t : List Char) :
    stringBody? 0 (unitEscape n ++ t) = (stringBody? 0 t).map fun r => ([n] ++ r.1, r.2) := by
  refine stringBody?_backslash ('u' :: hexDigits 4 n) ?_
  rw [List.length_cons, length_hexDigits]
  exact escape?_unit hn t

/-- **A character is read as the code units in which it is written.** -/
theorem stringBody?_escaped (h : Escaped c cs) (t : List Char) :
    stringBody? 0 (cs ++ t) = (stringBody? 0 t).map fun r => (charUnits c ++ r.1, r.2) := by
  rcases h with ⟨mem, stands⟩ | ⟨quote, backslash, visible⟩ | lt | le
  · rename_i l
    have hc : c.toNat < 0x10000 := by
      have hletters : ∀ l ∈ escapeLetters,
          (Json.letterEscape? l).all fun c => c.toNat < 0x10000 := by
        intro l hl
        fin_cases hl <;> rfl
      exact of_decide_eq_true ((congrArg (Option.all _) stands).symm.trans (hletters l mem))
    rw [charUnits_of_lt hc]
    exact stringBody?_backslash [l] (escape?_letter mem stands t)
  · have hline : ¬ (c = '\n' ∨ c = '\r' ∨ c = '\x00') := by
      rintro (rfl | rfl | rfl) <;> exact absurd visible (by decide)
    rw [charUnits_of_lt (Nat.lt_of_le_of_lt visible.2 (by decide)), List.singleton_append,
      stringBody?, if_neg quote, if_neg backslash, if_neg hline]
    rfl
  · rw [charUnits_of_lt lt]
    exact stringBody?_unit lt t
  · have hlt := toNat_lt c
    have hhigh : highUnit c < 0x10000 := by
      unfold highUnit
      omega
    have hlow : lowUnit c < 0x10000 := by
      unfold lowUnit
      omega
    rw [charUnits, if_neg (Nat.not_lt.2 le), List.append_assoc, stringBody?_unit hhigh,
      stringBody?_unit hlow, Option.map_map]
    rfl

theorem stringBody?_flatMap (cs rest : List Char) :
    stringBody? 0 (cs.flatMap escapeChar ++ '"' :: rest) = some (cs.flatMap charUnits, rest) := by
  induction cs with
  | nil => rfl
  | cons c cs ih =>
    rw [List.flatMap_cons, List.append_assoc, stringBody?_escaped (escaped_escapeChar c), ih]
    rfl

/-- No character is written with a quote in front. -/
theorem exists_cons_of_escaped (h : Escaped c cs) : ∃ d rest, cs = d :: rest ∧ d ≠ '"' := by
  rcases h with ⟨mem, stands⟩ | ⟨quote, backslash, visible⟩ | lt | le
  · exact ⟨_, _, rfl, by decide⟩
  · exact ⟨_, _, rfl, quote⟩
  · exact ⟨_, _, rfl, by decide⟩
  · exact ⟨_, _, rfl, by decide⟩

/-- **Python reads the code units of the string that was written**, where no further quote comes
behind the literal. -/
theorem string?_literal (s : String) (h : rest.head? ≠ some '"') :
    string? ((Json.literal s).toList ++ rest) = some (units s, rest) := by
  have hbody := stringBody?_flatMap s.toList rest
  have hliteral : (Json.literal s).toList ++ rest =
      '"' :: (s.toList.flatMap escapeChar ++ '"' :: rest) := by simp [Json.literal]
  rw [hliteral]
  rw [string?]
  · exact hbody
  -- two quotes behind the first one would be the empty string before a quote
  · rintro more hmore
    rcases hs : s.toList with _ | ⟨c, cs⟩
    · rw [hs, List.flatMap_nil, List.nil_append] at hmore
      exact h (congrArg List.head? (List.cons.inj hmore).2)
    · obtain ⟨d, tail, hd, hne⟩ := exists_cons_of_escaped (escaped_escapeChar c)
      rw [hs, List.flatMap_cons, hd] at hmore
      exact hne (List.cons.inj hmore).1

/-! ## Keys and names in declarations -/

/-- The text goes on with a string literal that Python reads as the code units of `s`, and with
`rest` behind it. -/
def ReadsAs (s : String) (rest text : List Char) : Prop := string? text = some (units s, rest)

/-- The text of a variable, with what is written before and after it. -/
theorem exists_readsAs_variableRef (before key after : String) :
    ∃ text, before ++ variableRef key ++ after = String.ofList ((before ++ "var[").toList ++ text) ∧
      ReadsAs key (']' :: after.toList) text := by
  have hbracket : (']' :: after.toList).head? ≠ some '"' := fun h =>
    absurd (Option.some.inj h) (by decide)
  refine ⟨_, String.toList_inj.1 ?_, string?_literal key hbracket⟩
  simp [variableRef]

/-- The text of a font, up to each of its names. -/
theorem exists_readsAs_fontCall (family size : String) (bold : Bool) :
    ∃ text text', fontCall family size bold = String.ofList ("get_or_create_font(".toList ++ text) ∧
      ReadsAs family (", ".toList ++ text') text ∧
      ReadsAs size (", ".toList ++ ((weight bold).toList ++ [')'])) text' := by
  have hcomma : ∀ r : List Char, (", ".toList ++ r).head? ≠ some '"' := fun r hr =>
    absurd (Option.some.inj hr) (by decide)
  obtain ⟨text', htext'⟩ : ∃ text', text' = (Json.literal size).toList ++
      (", ".toList ++ ((weight bold).toList ++ [')'])) := ⟨_, rfl⟩
  refine ⟨(Json.literal family).toList ++ (", ".toList ++ text'), text', ?_, ?_, ?_⟩
  · rw [← String.toList_inj, String.toList_ofList, htext', ← toList_fontCall family size bold [],
      List.append_nil]
  · exact string?_literal family (hcomma text')
  · rw [htext']
    exact string?_literal size (hcomma _)

end Python

open Python

/-- **What Python reads where a key or a name of a font is written**: the code units of the string,
with the literal ending where it was ended.  These are the code points of the string unless it has
one past U+FFFF, and then they are not. -/
theorem render_python_strings (key family size : String) (bold : Bool) :
    (∃ text, (Expr.reference key).render .python = .ok (String.ofList ("var[".toList ++ text)) ∧
      ReadsAs key [']'] text) ∧
    (∀ t : Token, t.key = key → ∀ value, t.value.render .python = .ok value →
      ∃ text, t.declaration .python = .ok (String.ofList ("    var[".toList ++ text)) ∧
        ReadsAs key ("] = ".toList ++ value.toList) text) ∧
    (∃ text text', (Expr.font family size bold).render .python =
        .ok (String.ofList ("get_or_create_font(".toList ++ text)) ∧
      ReadsAs family (", ".toList ++ text') text ∧
      ReadsAs size (", ".toList ++ ((weight bold).toList ++ [')'])) text') ∧
    ∀ s : String, units s = points s ↔ ∀ c ∈ s.toList, c.toNat < 0x10000 := by
  refine ⟨?_, ?_, ?_, units_eq_points_iff⟩
  · obtain ⟨text, htext, hread⟩ := exists_readsAs_variableRef "" key ""
    rw [String.empty_append, String.append_empty] at htext
    exact ⟨text, congrArg Except.ok htext, hread⟩
  · rintro t rfl value hvalue
    obtain ⟨text, htext, hread⟩ := exists_readsAs_variableRef "    " t.key (" = " ++ value)
    refine ⟨text, ?_, ?_⟩
    · rw [Token.declaration, hvalue]
      refine congrArg Except.ok ?_
      rw [assignment, String.append_assoc]
      exact htext
    · rwa [String.toList_append] at hread
  · obtain ⟨text, text', htext, hread⟩ := exists_readsAs_fontCall family size bold
    exact ⟨text, text', congrArg Except.ok htext, hread⟩

/-- One character past U+FFFF is read as two code points, and characters up to there as themselves,
in a declaration and in a font alike. -/
theorem render_python_strings_grin :
    (units "😀" = [0xD83D, 0xDE00] ∧ points "😀" = [0x1F600]) ∧
    units "Adobe Clean Ж" = points "Adobe Clean Ж" ∧
    (∃ text, (ratioToken "1.5").declaration .python =
        .ok (String.ofList ("    var[".toList ++ text)) ∧
      ReadsAs "ratio" "] = 1.5".toList text) ∧
    ∃ text text', (Expr.font "Adobe Clean Ж" "😀" true).render .python =
        .ok (String.ofList ("get_or_create_font(".toList ++ text)) ∧
      ReadsAs "Adobe Clean Ж" (", ".toList ++ text') text ∧
      ReadsAs "😀" (", ".toList ++ ((weight true).toList ++ [')'])) text' := by
  have hvalue : (ratioToken "1.5").value.render .python = .ok "1.5" := by decide +kernel
  obtain ⟨-, hdeclaration, hfont, hunits⟩ :=
    render_python_strings "ratio" "Adobe Clean Ж" "😀" true
  exact ⟨⟨by decide, by decide⟩, (hunits _).2 (List.all_iff_forall_prop.1 rfl),
    hdeclaration (ratioToken "1.5") rfl "1.5" hvalue, hfont⟩

end DesignTokens
