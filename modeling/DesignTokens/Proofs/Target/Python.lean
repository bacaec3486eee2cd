import DesignTokens.Compile
import DesignTokens.Proofs.Except
import DesignTokens.Proofs.Json.Literal
import DesignTokens.Proofs.Runs
import DesignTokens.Proofs.Values
import Mathlib

/-!
# Proofs/Target/Python — declarations for Python read back

Names are string literals and every value starts with a character that tells its kind, so that **a
value says where it ends** unless it is a number, which ends where no further character of a number
follows.  Literals keep line feeds out of declarations: there is one line for each of them.

* `Python.value_append_inj` — a value at the front of a text, up to the spelling of its numbers.
* `Python.line_inj` — a declaration.
* `emit_python_inj` — whole documents.
-/

namespace DesignTokens

open Text

/-- The value with the text of each number replaced. -/
def Expr.mapNumbers (f : String → String) : Expr → Expr
  | .color hex => .color hex
  | .number text => .number (f text)
  | .reference key => .reference key
  | .conditional flag dark light => .conditional flag (dark.mapNumbers f) (light.mapNumbers f)
  | .pixels count => .pixels count
  | .font family size bold => .font family size bold

/-- The texts of the numbers of a value. -/
def Expr.numbers : Expr → List String
  | .number text => [text]
  | .conditional _ dark light => dark.numbers ++ light.numbers
  | .color _ | .reference _ | .pixels _ | .font _ _ _ => []

namespace Python

variable {e e' : Expr} {t t' : Token} {ts ts' : List Token} {text key key' : String} {c : Char}
variable {r r' : List Char}

/-! ## Values -/

/-- The numeral of a text; of a text that is no number, the text. -/
def spelled (text : String) : String := (numeral? text).getD text

/-- How a value is written, if it can be. -/
def value : Expr → String
  | .color hex => quotedColor hex
  | .number text => spelled text
  | .reference key => variableRef key
  | .conditional flag dark light => choice (variableRef flag) (value dark) (value light)
  | .pixels count => scaled count
  | .font family size bold => fontCall family size bold

/-- The colours of a value are visible and hold no quote, and its numbers are numbers. -/
def IsLegible : Expr → Prop
  | .color hex => ∀ c ∈ hex.toList, IsVisibleAscii c ∧ c ≠ '"'
  | .number text => (numeral? text).isSome = true
  | .conditional _ dark light => IsLegible dark ∧ IsLegible light
  | .reference _ | .pixels _ | .font _ _ _ => True

theorem numeral?_eq_some (h : (numeral? text).isSome = true) :
    numeral? text = some (spelled text) := by
  obtain ⟨numeral, hnumeral⟩ := Option.isSome_iff_exists.1 h
  rw [spelled, hnumeral, Option.getD_some]

/-- **A value can be written** where each of its numbers is one. -/
theorem render_eq_of_numbers (h : ∀ text ∈ e.numbers, (numeral? text).isSome = true) :
    e.render .python = .ok (value e) := by
  induction e with
  | color hex => rfl
  | number text =>
    simp only [Expr.render, Target.python, numeral?_eq_some (h text List.mem_cons_self)]
    rfl
  | reference key => rfl
  | conditional flag dark light ihDark ihLight =>
    obtain ⟨hdark, hlight⟩ := List.forall_mem_append.1 h
    rw [Expr.render, ihDark hdark, ihLight hlight]
    rfl
  | pixels count => rfl
  | font family size bold => rfl

theorem isSome_numeral?_of_isLegible (h : IsLegible e) :
    ∀ text ∈ e.numbers, (numeral? text).isSome = true := by
  induction e with
  | number text => exact List.forall_mem_singleton.2 h
  | conditional flag dark light ihDark ihLight =>
    exact List.forall_mem_append.2 ⟨ihDark h.1, ihLight h.2⟩
  | color hex | reference key | pixels count | font family size bold => exact List.forall_mem_nil _

/-- **What is legible can be written.** -/
theorem render_eq (h : IsLegible e) : e.render .python = .ok (value e) :=
  render_eq_of_numbers (isSome_numeral?_of_isLegible h)

theorem isLegible_of_isPaint (h : e.IsPaint) : IsLegible e := by
  have hdigit : ∀ c ∈ Color.hexadecimals, IsVisibleAscii c ∧ c ≠ '"' :=
    List.all_iff_forall_prop.1 (by decide)
  cases h with
  | color isHex =>
    intro c hc
    rcases isHex.mem hc with rfl | hc
    · decide
    · exact hdigit c hc
  | reference isKey => trivial

/-- **Whatever an entry has for a value is legible.** -/
theorem isLegible_of_isRead (h : e.IsRead) : IsLegible e := by
  obtain ⟨flag, h⟩ := h.exists_isValue
  cases h with
  | color isHex => exact isLegible_of_isPaint (.color isHex)
  | number numberText => exact isSome_numeral? numberText
  | reference isKey => trivial
  | choice dark_isPaint light_isPaint =>
    exact ⟨isLegible_of_isPaint dark_isPaint, isLegible_of_isPaint light_isPaint⟩
  | pixels count => trivial
  | font family size bold => trivial

/-! ## The parts of values -/

theorem toList_quotedColor (hex : String) (r : List Char) :
    (quotedColor hex).toList ++ r = '"' :: (hex.toList ++ '"' :: r) := by
  simp [quotedColor]

theorem toList_variableRef (key : String) (r : List Char) :
    (variableRef key).toList ++ r =
      "var[".toList ++ ((Json.literal key).toList ++ (']' :: r)) := by
  simp [variableRef]

theorem toList_choice (flag dark light : String) (r : List Char) :
    (choice flag dark light).toList ++ r = '(' :: (dark.toList ++ (" if ".toList ++
      (flag.toList ++ (" else ".toList ++ (light.toList ++ ')' :: r))))) := by
  simp [choice]

theorem toList_scaled (count : Int) (r : List Char) :
    (scaled count).toList ++ r =
      "scale_pixel(".toList ++ ((toString count).toList ++ ')' :: r) := by
  simp [scaled]

/-- How the weight of a font is written. -/
def weight (bold : Bool) : String := if bold then "True" else "False"

theorem fontCall_eq (family size : String) (bold : Bool) :
    fontCall family size bold = "get_or_create_font(" ++ Json.literal family ++ ", " ++
      Json.literal size ++ ", " ++ weight bold ++ ")" := rfl

theorem toList_fontCall (family size : String) (bold : Bool) (r : List Char) :
    (fontCall family size bold).toList ++ r = "get_or_create_font(".toList ++
      ((Json.literal family).toList ++ (", ".toList ++ ((Json.literal size).toList ++
        (", ".toList ++ ((weight bold).toList ++ ')' :: r))))) := by
  rw [fontCall_eq]
  simp

/-! ## Kinds -/

/-- The kind of the values that start with a character. -/
def kindOf (c : Char) : Expr.Kind :=
  if c = '"' then .color
  else if c = 'v' then .reference
  else if c = '(' then .conditional
  else if c = 's' then .pixels
  else if c = 'g' then .font
  else .number

theorem kindOf_of_isNumberChar (h : IsNumberChar c) : kindOf c = .number := by
  unfold kindOf
  split_ifs with hc hc hc hc hc
  all_goals first | rfl | exact absurd (hc ▸ h) (by decide)

/-- **The first character of a value tells its kind.** -/
theorem kindOf_head? (h : IsLegible e) (r : List Char) :
    ((value e).toList ++ r).head?.map kindOf = some e.kind := by
  cases e with
  | color hex =>
    rw [value, toList_quotedColor]
    rfl
  | number text =>
    have hnumeral := numeral?_eq_some h
    obtain ⟨c, rest, hc⟩ := List.exists_cons_of_ne_nil (numeral_ne_nil hnumeral)
    have hnumber := isNumberChar_of_numeral? hnumeral c (hc ▸ List.mem_cons_self)
    rw [value, hc]
    exact congrArg some (kindOf_of_isNumberChar hnumber)
  | reference key =>
    rw [value, toList_variableRef]
    rfl
  | conditional flag dark light =>
    rw [value, toList_choice]
    rfl
  | pixels count =>
    rw [value, toList_scaled]
    rfl
  | font family size bold =>
    rw [value, toList_fontCall]
    rfl

theorem kind_eq (h : IsLegible e) (h' : IsLegible e')
    (heq : (value e).toList ++ r = (value e').toList ++ r') : e.kind = e'.kind := by
  have hkind := kindOf_head? h r
  rw [heq, kindOf_head? h' r'] at hkind
  exact (Option.some.inj hkind).symm

/-! ## Where values end -/

/-- No number goes on with the text. -/
def Ends (r : List Char) : Prop := ∀ c ∈ r.head?, ¬ IsNumberChar c

theorem ends_nil : Ends [] := by
  rintro c ⟨⟩

theorem ends_cons (h : ¬ IsNumberChar c) : Ends (c :: r) := by
  rintro c ⟨⟩
  exact h

theorem variableRef_append_inj
    (h : (variableRef key).toList ++ r = (variableRef key').toList ++ r') :
    key = key' ∧ r = r' := by
  rw [toList_variableRef, toList_variableRef, List.append_cancel_left_eq] at h
  obtain ⟨rfl, hrest⟩ := Json.literal_append_inj h
  exact ⟨rfl, (List.cons.inj hrest).2⟩

theorem scaled_append_inj {count count' : Int}
    (h : (scaled count).toList ++ r = (scaled count').toList ++ r') : count = count' ∧ r = r' := by
  have hchar : ∀ n : Int, ∀ c ∈ (toString n).toList, IsNumberChar c := fun n c hc =>
    ((isSigned_toString n).isDecimalChar c hc).isNumberChar
  rw [toList_scaled, toList_scaled, List.append_cancel_left_eq] at h
  obtain ⟨hcount, hrest⟩ := run_append_inj (hchar count) (hchar count') (ends_cons (by decide))
    (ends_cons (by decide)) h
  exact ⟨Int.repr_inj.1 (String.toList_inj.1 hcount), (List.cons.inj hrest).2⟩

theorem weight_append_inj {bold bold' : Bool}
    (h : (weight bold).toList ++ r = (weight bold').toList ++ r') : bold = bold' ∧ r = r' := by
  cases bold <;> cases bold' <;> simp_all [weight]

theorem fontCall_append_inj {family family' size size' : String} {bold bold' : Bool}
    (h : (fontCall family size bold).toList ++ r = (fontCall family' size' bold').toList ++ r') :
    (family = family' ∧ size = size' ∧ bold = bold') ∧ r = r' := by
  rw [toList_fontCall, toList_fontCall, List.append_cancel_left_eq] at h
  obtain ⟨hfamily, hrest⟩ := Json.literal_append_inj h
  obtain ⟨hsize, hrest⟩ := Json.literal_append_inj (List.append_cancel_left hrest)
  obtain ⟨hbold, hrest⟩ := weight_append_inj (List.append_cancel_left hrest)
  exact ⟨⟨hfamily, hsize, hbold⟩, (List.cons.inj hrest).2⟩

/-- A colour ends at its second quote. -/
theorem quotedColor_append_inj {hex hex' : String} (h : ∀ c ∈ hex.toList, c ≠ '"')
    (h' : ∀ c ∈ hex'.toList, c ≠ '"')
    (heq : (quotedColor hex).toList ++ r = (quotedColor hex').toList ++ r') :
    hex = hex' ∧ r = r' := by
  have hquote : ∀ r : List Char, ∀ c ∈ ('"' :: r).head?, ¬ c ≠ '"' := by
    rintro r c ⟨⟩
    exact not_not_intro rfl
  rw [toList_quotedColor, toList_quotedColor] at heq
  obtain ⟨hhex, hrest⟩ := run_append_inj h h' (hquote r) (hquote r') (List.cons.inj heq).2
  exact ⟨String.toList_inj.1 hhex, (List.cons.inj hrest).2⟩

/-- **A value says where it ends**, a number where no number goes on. -/
theorem value_append_inj (h : IsLegible e) (h' : IsLegible e') (hr : Ends r) (hr' : Ends r')
    (heq : (value e).toList ++ r = (value e').toList ++ r') :
    e.mapNumbers spelled = e'.mapNumbers spelled ∧ r = r' := by
  have hkind := kind_eq h h' heq
  -- with the kinds equal, each constructor is compared with itself only
  induction e generalizing e' r r' with
  | color hex =>
    cases e' <;> cases hkind
    obtain ⟨rfl, hrest⟩ :=
      quotedColor_append_inj (fun c hc => (h c hc).2) (fun c hc => (h' c hc).2) heq
    exact ⟨rfl, hrest⟩
  | number text =>
    cases e' <;> cases hkind
    rename_i text'
    obtain ⟨hnumeral, hrest⟩ := run_append_inj (isNumberChar_of_numeral? (numeral?_eq_some h))
      (isNumberChar_of_numeral? (numeral?_eq_some h')) hr hr' heq
    rw [Expr.mapNumbers, Expr.mapNumbers, String.toList_inj.1 hnumeral]
    exact ⟨rfl, hrest⟩
  | reference key =>
    cases e' <;> cases hkind
    obtain ⟨rfl, hrest⟩ := variableRef_append_inj heq
    exact ⟨rfl, hrest⟩
  | conditional flag dark light ihDark ihLight =>
    cases e' <;> cases hkind
    rename_i flag' dark' light'
    rw [value, value, toList_choice, toList_choice] at heq
    have hif : ∀ r, Ends (" if ".toList ++ r) := fun r => ends_cons (by decide)
    have hclose : ∀ r, Ends (')' :: r) := fun r => ends_cons (by decide)
    have hsides := (List.cons.inj heq).2
    obtain ⟨hdark, hrest⟩ := ihDark h.1 h'.1 (hif _) (hif _) hsides (kind_eq h.1 h'.1 hsides)
    obtain ⟨hflag, hrest⟩ := variableRef_append_inj (List.append_cancel_left hrest)
    have hside := List.append_cancel_left hrest
    obtain ⟨hlight, hrest⟩ := ihLight h.2 h'.2 (hclose _) (hclose _) hside (kind_eq h.2 h'.2 hside)
    rw [Expr.mapNumbers, Expr.mapNumbers, hflag, hdark, hlight]
    exact ⟨rfl, (List.cons.inj hrest).2⟩
  | pixels count =>
    cases e' <;> cases hkind
    obtain ⟨rfl, hrest⟩ := scaled_append_inj heq
    exact ⟨rfl, hrest⟩
  | font family size bold =>
    cases e' <;> cases hkind
    obtain ⟨⟨rfl, rfl, rfl⟩, hrest⟩ := fontCall_append_inj heq
    exact ⟨rfl, hrest⟩

/-! ## Lines -/

/-- The line that declares a token, if its value can be written. -/
def line (t : Token) : String := assignment t.key (value t.value)

theorem declaration_eq (h : IsLegible t.value) : t.declaration .python = .ok (line t) := by
  rw [Token.declaration, render_eq h]
  rfl

theorem toList_line (t : Token) :
    (line t).toList = "    var[".toList ++
      ((Json.literal t.key).toList ++ ("] = ".toList ++ (value t.value).toList)) := by
  simp [line, assignment, variableRef]

/-- **A line tells its key and its value**, up to the spelling of numbers. -/
theorem line_inj (h : IsLegible t.value) (h' : IsLegible t'.value)
    (heq : (line t).toList = (line t').toList) :
    t.key = t'.key ∧ t.value.mapNumbers spelled = t'.value.mapNumbers spelled := by
  rw [toList_line, toList_line, List.append_cancel_left_eq] at heq
  obtain ⟨hkey, hrest⟩ := Json.literal_append_inj heq
  rw [List.append_cancel_left_eq, ← List.append_nil (value t.value).toList,
    ← List.append_nil (value t'.value).toList] at hrest
  exact ⟨hkey, (value_append_inj h h' ends_nil ends_nil hrest).1⟩

/-! ## Characters -/

/-- A text of visible ASCII characters only. -/
def IsPlain (s : String) : Prop := ∀ c ∈ s.toList, IsVisibleAscii c

theorem IsPlain.append {s s' : String} (h : IsPlain s) (h' : IsPlain s') : IsPlain (s ++ s') := by
  intro c hc
  rw [String.toList_append] at hc
  exact (List.mem_append.1 hc).elim (h c) (h' c)

theorem isPlain_of_all {s : String} (h : (s.toList.all fun c => IsVisibleAscii c) = true) :
    IsPlain s :=
  List.all_iff_forall_prop.1 h

theorem isPlain_literal (s : String) : IsPlain (Json.literal s) := fun _ =>
  Json.isVisibleAscii_of_mem_literal

theorem isPlain_of_isSigned {s : String} (h : Numeral.IsSigned s.toList) : IsPlain s := by
  have hmarks : ∀ c ∈ ['+', '-', '.', 'e'], IsVisibleAscii c :=
    List.all_iff_forall_prop.1 (by decide)
  intro c hc
  rcases h.isDecimalChar c hc with hdigit | hmark
  · have := toNat_of_isDigit hdigit
    exact ⟨by omega, by omega⟩
  · exact hmarks c hmark

theorem isPlain_spelled (h : (numeral? text).isSome = true) : IsPlain (spelled text) := by
  rcases numeral?_cases (numeral?_eq_some h) with hword | hsigned
  · have hwords : ∀ word ∈ ["nan", "inf", "-inf"], IsPlain word := by
      intro word hword
      exact isPlain_of_all (by revert word; decide)
    exact hwords _ hword
  · exact isPlain_of_isSigned hsigned

theorem isPlain_variableRef (key : String) : IsPlain (variableRef key) :=
  ((isPlain_of_all (by decide)).append (isPlain_literal key)).append (isPlain_of_all (by decide))

/-- **A value is written in visible ASCII characters**, whatever its names hold. -/
theorem isPlain_value (h : IsLegible e) : IsPlain (value e) := by
  induction e with
  | color hex =>
    have hhex : IsPlain hex := fun c hc => (h c hc).1
    exact ((isPlain_of_all (by decide)).append hhex).append (isPlain_of_all (by decide))
  | number text => exact isPlain_spelled h
  | reference key => exact isPlain_variableRef key
  | conditional flag dark light ihDark ihLight =>
    have hopen : IsPlain ("(" ++ value dark) := (isPlain_of_all (by decide)).append (ihDark h.1)
    have hflag : IsPlain (" if " ++ variableRef flag) :=
      (isPlain_of_all (by decide)).append (isPlain_variableRef flag)
    have helse : IsPlain (" else " ++ value light) :=
      (isPlain_of_all (by decide)).append (ihLight h.2)
    have hall := ((hopen.append hflag).append helse).append (isPlain_of_all (s := ")") (by decide))
    simpa only [value, choice, String.append_assoc] using hall
  | pixels count =>
    have hnumber := isPlain_of_isSigned (isSigned_toString count)
    exact ((isPlain_of_all (by decide)).append hnumber).append (isPlain_of_all (by decide))
  | font family size bold =>
    have hweight : IsPlain (weight bold) := by cases bold <;> exact isPlain_of_all (by decide)
    have hcomma : IsPlain ", " := isPlain_of_all (by decide)
    rw [value, fontCall_eq]
    exact (((((isPlain_of_all (by decide)).append (isPlain_literal family)).append hcomma).append
      (isPlain_literal size)).append hcomma |>.append hweight).append (isPlain_of_all (by decide))

theorem isPlain_line (h : IsLegible t.value) : IsPlain (line t) :=
  (((isPlain_of_all (by decide)).append (isPlain_variableRef t.key)).append
    (isPlain_of_all (by decide))).append (isPlain_value h)

/-! ## Documents -/

theorem line_feed_not_mem {s : String} (h : IsPlain s) : '\n' ∉ s.toList := fun hmem =>
  absurd (h '\n' hmem) (by decide)

/-- The body of the function that is written for some lines. -/
def body (lines : List String) : String :=
  if lines.isEmpty then "    pass" else "\n".intercalate lines

theorem wrap_eq (header : String) (lines : List String) :
    wrap header lines =
      header ++ "\n\n\ndef initialize(var, scale_pixel, get_or_create_font):\n" ++ body lines := rfl

/-- **The lines of a body can be told apart.** -/
theorem splitOn_body {lines : List String} (hne : lines ≠ []) (h : ∀ s ∈ lines, IsPlain s) :
    (body lines).toList.splitOn '\n' = lines.map String.toList := by
  have hlines : ∀ cs ∈ lines.map String.toList, '\n' ∉ cs := by
    intro cs hcs
    obtain ⟨s, hs, rfl⟩ := List.mem_map.1 hcs
    exact line_feed_not_mem (h s hs)
  rw [body, if_neg (by simpa using hne), String.toList_intercalate]
  exact List.splitOn_intercalate '\n' hlines (mt List.map_eq_nil_iff.1 hne)

theorem splitOn_body_nil : (body []).toList.splitOn '\n' = ["    pass".toList] := by decide

theorem emit_python_eq (generator : String) (time : Timestamp) (h : ∀ t ∈ ts, IsLegible t.value) :
    emit .python generator time ts = .ok (wrap (header generator time) (ts.map line)) := by
  rw [emit, mapM_eq_ok fun t ht => declaration_eq (h t ht)]
  rfl

/-- The lines of a body that declares tokens are their declarations. -/
theorem splitOn_body_map (hne : ts ≠ []) (h : ∀ t ∈ ts, IsLegible t.value) :
    (body (ts.map line)).toList.splitOn '\n' = ts.map fun t => (line t).toList := by
  have hlines : ∀ s ∈ ts.map line, IsPlain s := by
    intro s hs
    obtain ⟨t, ht, rfl⟩ := List.mem_map.1 hs
    exact isPlain_line (h t ht)
  rw [splitOn_body (mt List.map_eq_nil_iff.1 hne) hlines, List.map_map]
  rfl

/-- No declaration is the empty statement. -/
theorem body_map_ne (hne : ts ≠ []) (h : ∀ t ∈ ts, IsLegible t.value) :
    body (ts.map line) ≠ body [] := by
  intro heq
  have hlines := splitOn_body_map hne h
  obtain ⟨t, rest, rfl⟩ := List.exists_cons_of_ne_nil hne
  rw [heq, splitOn_body_nil, List.map_cons, toList_line] at hlines
  have hfifth : "    pass".toList[4]? = some 'v' :=
    (congrArg (fun cs => cs[4]?) (List.cons.inj hlines).1).trans rfl
  exact absurd hfifth (by decide)

/-- **A body tells its lines.** -/
theorem body_inj (h : ∀ t ∈ ts, IsLegible t.value) (h' : ∀ t ∈ ts', IsLegible t.value)
    (heq : body (ts.map line) = body (ts'.map line)) :
    ts.map (fun t => (line t).toList) = ts'.map fun t => (line t).toList := by
  rcases eq_or_ne ts [] with rfl | hne
  · rcases eq_or_ne ts' [] with rfl | hne'
    · rfl
    · exact absurd heq.symm (body_map_ne hne' h')
  · rcases eq_or_ne ts' [] with rfl | hne'
    · exact absurd heq (body_map_ne hne h)
    · rw [← splitOn_body_map hne h, heq, splitOn_body_map hne' h']

/-- **Lists of lines tell their keys and values**, up to the spelling of numbers. -/
theorem map_line_inj (h : ∀ t ∈ ts, IsLegible t.value) (h' : ∀ t ∈ ts', IsLegible t.value)
    (heq : ts.map (fun t => (line t).toList) = ts'.map fun t => (line t).toList) :
    ts.map (fun t => (t.key, t.value.mapNumbers spelled)) =
      ts'.map fun t => (t.key, t.value.mapNumbers spelled) := by
  induction ts generalizing ts' with
  | nil => rw [List.map_eq_nil_iff.1 heq.symm]
  | cons t ts ih =>
    cases ts' with
    | nil => cases heq
    | cons t' ts' =>
      obtain ⟨hline, hrest⟩ := List.cons.inj heq
      obtain ⟨ht, hts⟩ := List.forall_mem_cons.1 h
      obtain ⟨ht', hts'⟩ := List.forall_mem_cons.1 h'
      obtain ⟨hkey, hvalue⟩ := line_inj ht ht' hline
      rw [List.map_cons, List.map_cons, hkey, hvalue, ih hts hts' hrest]

end Python

variable {ts ts' : List Token}

/-- **A document for Python tells what it declares**: two lists of tokens that are written alike
have the same keys in the same order, and the same values up to the spelling of numbers.  Every list
can be written, and the lines of the body are the declarations of its tokens, in order. -/
theorem emit_python_inj (generator : String) (time : Timestamp) (h : ∀ t ∈ ts, t.value.IsRead)
    (h' : ∀ t ∈ ts', t.value.IsRead) :
    (emit .python generator time ts = emit .python generator time ts' →
      ts.map Token.key = ts'.map Token.key ∧
        ts.map (fun t => t.value.mapNumbers Python.spelled) =
          ts'.map fun t => t.value.mapNumbers Python.spelled) ∧
      ∃ body, emit .python generator time ts = .ok (header generator time ++
          "\n\n\ndef initialize(var, scale_pixel, get_or_create_font):\n" ++ body) ∧
        (ts = [] → body = "    pass") ∧
        (ts ≠ [] → List.Forall₂ (fun t line => t.declaration .python = .ok (String.ofList line)) ts
            (body.toList.splitOn '\n') ∧
          ∀ line ∈ body.toList.splitOn '\n', ∀ c ∈ line, IsVisibleAscii c) := by
  have hlegible : ∀ t ∈ ts, Python.IsLegible t.value := fun t ht =>
    Python.isLegible_of_isRead (h t ht)
  have hlegible' : ∀ t ∈ ts', Python.IsLegible t.value := fun t ht =>
    Python.isLegible_of_isRead (h' t ht)
  refine ⟨fun heq => ?_, Python.body (ts.map Python.line), ?_, ?_, fun hne => ⟨?_, ?_⟩⟩
  · rw [Python.emit_python_eq generator time hlegible,
      Python.emit_python_eq generator time hlegible', Python.wrap_eq, Python.wrap_eq] at heq
    have hbody := (String.append_right_inj _).1 (Except.ok.inj heq)
    have hpairs := Python.map_line_inj hlegible hlegible' (Python.body_inj hlegible hlegible' hbody)
    have hkeys := congrArg (List.map Prod.fst) hpairs
    have hvalues := congrArg (List.map Prod.snd) hpairs
    simp only [List.map_map] at hkeys hvalues
    exact ⟨hkeys, hvalues⟩
  · exact Python.emit_python_eq generator time hlegible
  · rintro rfl
    rfl
  · rw [Python.splitOn_body_map hne hlegible, List.forall₂_map_right_iff, List.forall₂_same]
    intro t ht
    rw [String.ofList_toList]
    exact Python.declaration_eq (hlegible t ht)
  · rw [Python.splitOn_body_map hne hlegible]
    intro line hline
    obtain ⟨t, ht, rfl⟩ := List.mem_map.1 hline
    exact Python.isPlain_line (hlegible t ht)

/-- A token of a layout file that has a number for a value. -/
def ratioToken (text : String) : Token :=
  { key := "ratio", value := .number text, category := .layout
    raw := .object [("value", .string text)], source := some "layout.json", dependencies := [] }

/-- A choice whose key breaks off its line and whose dark side is a name full of marks, a count of
pixels, and a font. -/
def paperTokens : List Token :=
  [{ key := "paper\n    pass"
     value := .conditional "darkmode" (.reference "\"]\\") (.color "#010203")
     category := .color
     raw := .object [("sets", .object [("light", .object [("value", .string "rgb(1,2,3)")]),
       ("dark", .object [("value", .string "\x7b\"]\\\x7d")])])]
     source := some "palette.json", dependencies := ["\"]\\"] },
   { key := "gap", value := .pixels (-16), category := .layout
     raw := .object [("value", .string "-16px")], source := some "layout.json"
     dependencies := [] },
   { key := "sans", value := .font "Clean\"" "14px" true, category := .font
     raw := .object [("value", .object [("fontFamily", .string "Clean\""),
       ("fontSize", .string "14px"), ("fontWeight", .string "bold")])]
     source := some "font.json", dependencies := [] }]

theorem isRead_paperTokens : ∀ text ∈ ["1.50", "1.5"],
    ∀ t ∈ ratioToken text :: paperTokens, t.value.IsRead := by
  have hratio : ∀ text ∈ ["1.50", "1.5"], (ratioToken text).value.IsRead :=
    List.forall_mem_cons.2 ⟨⟨.layout, "darkmode", "ratio", (ratioToken "1.50").raw, by cbv⟩,
      List.forall_mem_singleton.2 ⟨.layout, "darkmode", "ratio", (ratioToken "1.5").raw, by cbv⟩⟩
  have hpaper : ∀ t ∈ paperTokens,
      t.category.read "darkmode" t.key t.raw = .ok (some t.value) := by
    simp only [paperTokens, List.forall_mem_cons, List.not_mem_nil, false_imp_iff, implies_true,
      and_true]
    exact ⟨by cbv, by cbv, by cbv⟩
  exact fun text htext => List.forall_mem_cons.2
    ⟨hratio text htext, fun t ht => ⟨_, _, _, _, hpaper t ht⟩⟩

theorem line_ratioToken :
    Python.line (ratioToken "1.50") = Python.line (ratioToken "1.5") := by
  have hnumerals : Python.numeral? "1.50" = some "1.5" ∧ Python.numeral? "1.5" = some "1.5" := by
    decide +kernel
  change Python.assignment "ratio" (Python.spelled "1.50") =
    Python.assignment "ratio" (Python.spelled "1.5")
  rw [Python.spelled, Python.spelled, hnumerals.1, hnumerals.2]
  rfl

/-- One number in two spellings, among tokens of other kinds: the texts are equal, and so are the
keys, and the values once they are spelled as in the text; each token has its line. -/
theorem emit_python_inj_ratio :
    (∀ t ∈ ratioToken "1.50" :: paperTokens, t.value.IsRead) ∧
      (∀ t ∈ ratioToken "1.5" :: paperTokens, t.value.IsRead) ∧
      emit .python "spectrum-tokens" ⟨2025, 1, 2, 3, 4, 5⟩ (ratioToken "1.50" :: paperTokens) =
        emit .python "spectrum-tokens" ⟨2025, 1, 2, 3, 4, 5⟩ (ratioToken "1.5" :: paperTokens) ∧
      (ratioToken "1.50" :: paperTokens).map (fun t => t.value.mapNumbers Python.spelled) =
        (ratioToken "1.5" :: paperTokens).map (fun t => t.value.mapNumbers Python.spelled) ∧
      ∃ body, emit .python "spectrum-tokens" ⟨2025, 1, 2, 3, 4, 5⟩
          (ratioToken "1.50" :: paperTokens) =
            .ok (header "spectrum-tokens" ⟨2025, 1, 2, 3, 4, 5⟩ ++
              "\n\n\ndef initialize(var, scale_pixel, get_or_create_font):\n" ++ body) ∧
        (body.toList.splitOn '\n').length = 4 := by
  have hread := isRead_paperTokens "1.50" List.mem_cons_self
  have hread' := isRead_paperTokens "1.5" (List.mem_cons_of_mem _ List.mem_cons_self)
  have hemit : emit .python "spectrum-tokens" ⟨2025, 1, 2, 3, 4, 5⟩
      (ratioToken "1.50" :: paperTokens) =
        emit .python "spectrum-tokens" ⟨2025, 1, 2, 3, 4, 5⟩ (ratioToken "1.5" :: paperTokens) := by
    rw [Python.emit_python_eq _ _ fun t ht => Python.isLegible_of_isRead (hread t ht),
      Python.emit_python_eq _ _ fun t ht => Python.isLegible_of_isRead (hread' t ht),
      List.map_cons, List.map_cons, line_ratioToken]
  obtain ⟨hinj, body, hbody, -, hlines⟩ :=
    emit_python_inj "spectrum-tokens" ⟨2025, 1, 2, 3, 4, 5⟩ hread hread'
  exact ⟨hread, hread', hemit, (hinj hemit).2, body, hbody,
    (hlines (List.cons_ne_nil _ _)).1.length_eq.symm⟩

end DesignTokens
