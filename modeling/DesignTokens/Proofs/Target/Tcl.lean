import DesignTokens.Proofs.Diagnostics
import DesignTokens.Proofs.Runs

/-!
# Proofs/Target/Tcl — declarations for Tcl read back

Keys and names are put in as they stand.  Read **from its end**, a document still tells what it
declares, as long as no key holds a line feed and no name of a font an opening brace: the last word
of a value with the character before it tells the kind of the value, and what stands behind the last
line feed before the value is the key.  With line feeds in keys one declaration can look like two.

* `Tcl.append_value_inj` — a value at the end of a text.
* `render_tcl_inj` — a colour or a size alone.
* `Tcl.lines_inj` — the lines of a document.
* `emit_tcl_inj` — the documents of two directories.
* `Tcl.emit_imitates`, `Tcl.fontCall_imitates` — what is put in can look like something else.
-/

namespace DesignTokens

open Text

/-- The names of fonts hold no opening brace. -/
def Expr.HasPlainNames : Expr → Prop
  | .font family size _ => '\x7b' ∉ family.toList ∧ '\x7b' ∉ size.toList
  | _ => True

/-- The key holds no line feed and the names of a font no opening brace. -/
def Token.IsPlain (t : Token) : Prop := '\n' ∉ t.key.toList ∧ t.value.HasPlainNames

namespace Tcl

variable {ns flag : String} {e e' : Expr} {t t' : Token} {ts ts' : List Token}
variable {a b : List Char}

/-! ## The last word of a value -/

/-- The last word of a value. -/
def word (ns : String) : Expr → List Char
  | .conditional _ _ light => (value ns light).toList ++ ['\x7d', ']']
  | .pixels count => (toString count).toList ++ [']']
  | .font _ _ bold => [if bold then '1' else '0', ']']
  | .color hex => (quotedColor hex).toList
  | .number text => text.toList
  | .reference key => (variableRef key).toList

/-- What stands before the last word of a value, with a blank before it. -/
def front (ns : String) : Expr → String
  | .conditional flag dark _ => " [expr \x7b" ++ variableRef flag ++ " ? " ++ value ns dark ++ " :"
  | .pixels _ => " [scale_pixel"
  | .font family size _ =>
    " [" ++ ns ++ "::priv::get_or_create_font \x7b" ++ family ++ "\x7d \x7b" ++ size ++ "\x7d"
  | .color _ | .number _ | .reference _ => ""

theorem cons_value (ns : String) (e : Expr) :
    ' ' :: (value ns e).toList = (front ns e).toList ++ ' ' :: word ns e := by
  cases e with
  | color hex => rfl
  | number text => rfl
  | reference key => rfl
  | conditional flag dark light => simp [value, choice, variableRef, front, word]
  | pixels count => simp [value, scaled, front, word]
  | font family size bold => cases bold <;> simp [value, fontCall, front, word]

/-- A colour holds no blank, and neither does a placeholder. -/
theorem blank_not_mem_paint (ns : String) (h : e.IsPaint) : ' ' ∉ (value ns e).toList := by
  cases h with
  | @color hex isHex =>
    have hhex : ' ' ∉ hex.toList := fun hmem => absurd (isHex.mem hmem) (by decide)
    simpa [value, quotedColor] using hhex
  | @reference key isKey =>
    have hkey : ' ' ∉ key.toList := fun hmem => absurd (isKey.2 ' ' hmem) (by decide)
    simpa [value, variableRef] using hkey

/-- **The last word of a value holds no blank.** -/
theorem blank_not_mem_word (h : e.IsValue flag) : ' ' ∉ word ns e := by
  cases h with
  | color isHex => exact blank_not_mem_paint ns (.color isHex)
  | number numberText =>
    exact fun hmem => absurd (numberText.isNumberChar ' ' hmem) (by decide)
  | reference isKey => exact blank_not_mem_paint ns (.reference isKey)
  | choice _ light_isPaint => simpa [word] using blank_not_mem_paint ns light_isPaint
  | pixels count =>
    have hcount : ' ' ∉ (toString count).toList := fun hmem =>
      absurd ((isSigned_toString count).isDecimalChar ' ' hmem).isNumberChar (by decide)
    simpa [word] using hcount
  | font family size bold => cases bold <;> simp [word]

/-- The kind of the values that have a last word behind a text. -/
def kindOf (before word : List Char) : Expr.Kind :=
  if word.getLast? = some '"' then .color
  else if word.getLast? = some ')' then .reference
  else if word.getLast? = some ']' then
    if before.getLast? = some ':' then .conditional
    else if before.getLast? = some 'l' then .pixels
    else .font
  else .number

/-- **The last word of a value and what stands before it tell its kind.** -/
theorem kindOf_eq (h : e.IsValue flag) (a : List Char) :
    kindOf (a ++ (front ns e).toList) (word ns e) = e.kind := by
  cases h with
  | color isHex => simp [kindOf, word, quotedColor, Expr.kind, List.getLast?_cons]
  | @number text numberText =>
    have hlast : ∀ c, ¬ IsNumberChar c → text.toList.getLast? ≠ some c := fun c hc hlast =>
      hc (numberText.isNumberChar c (List.mem_of_getLast? hlast))
    rw [kindOf, word, if_neg (hlast _ (by decide)), if_neg (hlast _ (by decide)),
      if_neg (hlast _ (by decide))]
    rfl
  | reference isKey => simp [kindOf, word, variableRef, Expr.kind, List.getLast?_cons]
  | choice _ _ => simp [kindOf, word, front, Expr.kind, List.getLast?_cons]
  | pixels count => simp [kindOf, word, front, Expr.kind]
  | font family size bold => simp [kindOf, word, front, Expr.kind, List.getLast?_cons]

/-! ## Values -/

/-- Colours and placeholders that are written alike are the same. -/
theorem value_inj_of_isPaint (ns : String) (h : e.IsPaint) (h' : e'.IsPaint)
    (heq : (value ns e).toList = (value ns e').toList) : e = e' := by
  have htext : value ns e = value ns e' := String.toList_inj.1 heq
  cases h with
  | color isHex =>
    cases h' with
    | color isHex' => simpa [value, quotedColor] using htext
    | reference isKey' => simp [value, quotedColor, variableRef] at heq
  | reference isKey =>
    cases h' with
    | color isHex' => simp [value, quotedColor, variableRef] at heq
    | reference isKey' => simpa [value, variableRef] using htext

/-- **The words of a choice tell its sides**, where its flag is known. -/
theorem choice_inj {dark dark' light light' : Expr} (hd : dark.IsPaint) (hd' : dark'.IsPaint)
    (hl : light.IsPaint) (hl' : light'.IsPaint)
    (hword : word ns (.conditional flag dark light) = word ns (.conditional flag dark' light'))
    (hfront : a ++ (front ns (.conditional flag dark light)).toList =
      b ++ (front ns (.conditional flag dark' light')).toList) :
    a = b ∧ dark = dark' ∧ light = light' := by
  have hopen : ∀ (a : List Char) (dark light : Expr),
      a ++ (front ns (.conditional flag dark light)).toList =
        ((a ++ (" [expr \x7b" ++ variableRef flag ++ " ?").toList) ++
          ' ' :: (value ns dark).toList) ++ " :".toList := by
    intro a dark light
    simp [front]
  have hlight := value_inj_of_isPaint ns hl hl' (List.append_cancel_right hword)
  rw [hopen, hopen] at hfront
  obtain ⟨hstart, hdark⟩ := append_cons_inj (blank_not_mem_paint ns hd) (blank_not_mem_paint ns hd')
    (List.append_cancel_right hfront)
  exact ⟨List.append_cancel_right hstart, value_inj_of_isPaint ns hd hd' hdark, hlight⟩

/-- **The words of a font tell its names**, where these hold no opening brace. -/
theorem font_inj {family family' size size' : String} {bold bold' : Bool}
    (h : (Expr.font family size bold).HasPlainNames)
    (h' : (Expr.font family' size' bold').HasPlainNames)
    (hword : word ns (.font family size bold) = word ns (.font family' size' bold'))
    (hfront : a ++ (front ns (.font family size bold)).toList =
      b ++ (front ns (.font family' size' bold')).toList) :
    a = b ∧ Expr.font family size bold = .font family' size' bold' := by
  have hopen : ∀ (a : List Char) (family size : String) (bold : Bool),
      a ++ (front ns (.font family size bold)).toList =
        ((a ++ (" [" ++ ns ++ "::priv::get_or_create_font ").toList) ++
          '\x7b' :: (family.toList ++ ['\x7d', ' '])) ++ '\x7b' :: (size.toList ++ ['\x7d']) := by
    intro a family size bold
    simp [front]
  have hplain : ∀ {cs cs' : List Char}, '\x7b' ∉ cs → '\x7b' ∉ cs' → '\x7b' ∉ cs ++ cs' := by
    intro cs cs' hcs hcs' hmem
    exact (List.mem_append.1 hmem).elim hcs hcs'
  rw [hopen, hopen] at hfront
  obtain ⟨hfront, hsize⟩ :=
    append_cons_inj (hplain h.2 (by decide)) (hplain h'.2 (by decide)) hfront
  obtain ⟨hstart, hfamily⟩ :=
    append_cons_inj (hplain h.1 (by decide)) (hplain h'.1 (by decide)) hfront
  obtain rfl := String.toList_inj.1 (List.append_cancel_right hsize)
  obtain rfl := String.toList_inj.1 (List.append_cancel_right hfamily)
  refine ⟨List.append_cancel_right hstart, ?_⟩
  cases bold <;> cases bold' <;> simp_all [word]

/-- **A value at the end of a text is told from what stands before it.** -/
theorem append_value_inj (h : e.IsValue flag) (h' : e'.IsValue flag) (hnames : e.HasPlainNames)
    (hnames' : e'.HasPlainNames)
    (heq : a ++ ' ' :: (value ns e).toList = b ++ ' ' :: (value ns e').toList) :
    a = b ∧ e = e' := by
  rw [cons_value, cons_value, ← List.append_assoc, ← List.append_assoc] at heq
  obtain ⟨hfront, hword⟩ := append_cons_inj (blank_not_mem_word h) (blank_not_mem_word h') heq
  have hkind : e.kind = e'.kind := by rw [← kindOf_eq h a, hfront, hword, kindOf_eq h' b]
  -- only values of one kind are left to compare
  cases h with
  | color isHex =>
    cases h' <;> cases hkind
    rename_i isHex'
    exact ⟨List.append_cancel_right hfront,
      value_inj_of_isPaint ns (.color isHex) (.color isHex') hword⟩
  | number numberText =>
    cases h' <;> cases hkind
    exact ⟨List.append_cancel_right hfront, congrArg Expr.number (String.toList_inj.1 hword)⟩
  | reference isKey =>
    cases h' <;> cases hkind
    rename_i isKey'
    exact ⟨List.append_cancel_right hfront,
      value_inj_of_isPaint ns (.reference isKey) (.reference isKey') hword⟩
  | choice hd hl =>
    cases h' <;> cases hkind
    rename_i hd' hl'
    obtain ⟨hstart, hdark, hlight⟩ := choice_inj hd hd' hl hl' hword hfront
    exact ⟨hstart, by rw [hdark, hlight]⟩
  | pixels count =>
    cases h' <;> cases hkind
    have hcount := Int.repr_inj.1 (String.toList_inj.1 (List.append_cancel_right hword))
    exact ⟨List.append_cancel_right hfront, congrArg Expr.pixels hcount⟩
  | font family size bold =>
    cases h' <;> cases hkind
    exact font_inj hnames hnames' hword hfront

/-! ## Lines -/

/-- The lines that declare tokens, each with a line feed before it. -/
def lines (ns : String) (ts : List Token) : List Char :=
  ts.flatMap fun t => '\n' :: (line ns t).toList

theorem cons_line (ns : String) (t : Token) :
    '\n' :: (line ns t).toList =
      '\n' :: ("set var(".toList ++ (t.key.toList ++ [')'])) ++
        ' ' :: (value ns t.value).toList := by
  simp [line, assignment]

theorem lines_concat (ns : String) (ts : List Token) (t : Token) :
    lines ns (ts ++ [t]) =
      (lines ns ts ++ '\n' :: ("set var(".toList ++ (t.key.toList ++ [')']))) ++
      ' ' :: (value ns t.value).toList := by
  rw [lines, List.flatMap_append, List.flatMap_singleton, cons_line, List.append_assoc]
  rfl

theorem lines_concat_ne_nil (ns : String) (ts : List Token) (t : Token) :
    lines ns (ts ++ [t]) ≠ [] := by
  rw [lines_concat]
  exact List.append_ne_nil_of_right_ne_nil _ (List.cons_ne_nil _ _)

/-- **The last line tells what it declares**: its value ends the text, and its key stands behind the
last line feed that is left of it. -/
theorem lines_concat_inj (hvalue : t.value.IsValue flag) (hvalue' : t'.value.IsValue flag)
    (hplain : t.IsPlain) (hplain' : t'.IsPlain)
    (heq : lines ns (ts ++ [t]) = lines ns (ts' ++ [t'])) :
    lines ns ts = lines ns ts' ∧ t.key = t'.key ∧ t.value = t'.value := by
  have hkeyline : ∀ {key : String}, '\n' ∉ key.toList →
      '\n' ∉ "set var(".toList ++ (key.toList ++ [')']) := by
    intro key hkey hmem
    simp [hkey] at hmem
  rw [lines_concat, lines_concat] at heq
  obtain ⟨hbefore, hvalues⟩ := append_value_inj hvalue hvalue' hplain.2 hplain'.2 heq
  obtain ⟨hlines, hkeys⟩ := append_cons_inj (hkeyline hplain.1) (hkeyline hplain'.1) hbefore
  have hkeys := List.append_cancel_right (List.append_cancel_left hkeys)
  exact ⟨hlines, String.toList_inj.1 hkeys, hvalues⟩

/-- **Lines tell what they declare**: read from the end, one after the other. -/
theorem lines_inj (h : ∀ t ∈ ts, t.value.IsValue flag ∧ t.IsPlain)
    (h' : ∀ t ∈ ts', t.value.IsValue flag ∧ t.IsPlain) (heq : lines ns ts = lines ns ts') :
    ts.map (fun t => (t.key, t.value)) = ts'.map fun t => (t.key, t.value) := by
  induction ts using List.reverseRecOn generalizing ts' with
  | nil =>
    rcases List.eq_nil_or_concat' ts' with rfl | ⟨front', t', rfl⟩
    · rfl
    · exact absurd heq.symm (lines_concat_ne_nil ns front' t')
  | append_singleton front t ih =>
    rcases List.eq_nil_or_concat' ts' with rfl | ⟨front', t', rfl⟩
    · exact absurd heq (lines_concat_ne_nil ns front t)
    obtain ⟨hfront, ht⟩ := List.forall_mem_append.1 h
    obtain ⟨hfront', ht'⟩ := List.forall_mem_append.1 h'
    obtain ⟨hvalue, hplain⟩ := List.forall_mem_singleton.1 ht
    obtain ⟨hvalue', hplain'⟩ := List.forall_mem_singleton.1 ht'
    obtain ⟨hlines, hkeys, hvalues⟩ := lines_concat_inj hvalue hvalue' hplain hplain' heq
    rw [List.map_append, List.map_append, ih hfront hfront' hlines, List.map_singleton,
      List.map_singleton, hkeys, hvalues]

/-! ## Documents -/

/-- The lines of a document that declares something. -/
theorem cons_intercalate (ns : String) (hne : ts ≠ []) :
    '\n' :: ("\n".intercalate (ts.map (line ns))).toList = lines ns ts := by
  rw [String.toList_intercalate, List.map_map]
  induction ts with
  | nil => exact absurd rfl hne
  | cons t ts ih =>
    cases ts with
    | nil => simp [lines]
    | cons t' ts =>
      have hrest := ih (List.cons_ne_nil t' ts)
      rw [List.map_cons] at hrest
      rw [List.map_cons, List.map_cons, List.intercalate_cons_cons, List.append_assoc, lines,
        List.flatMap_cons, ← lines, ← hrest]
      rfl

/-- Only a document without declarations has no text for them. -/
theorem eq_nil_of_intercalate (h : "\n".intercalate (ts.map (line ns)) = "") : ts = [] := by
  by_contra hne
  have hlines := cons_intercalate ns hne
  obtain ⟨t, rest, rfl⟩ := List.exists_cons_of_ne_nil hne
  rw [h, lines, List.flatMap_cons] at hlines
  have hline := (List.append_eq_nil_iff.1 (List.cons.inj hlines).2.symm).1
  simp [line, assignment] at hline

/-- A document depends on keys and values only. -/
theorem emit_congr (ns generator : String) (time : Timestamp)
    (h : ts.map (fun t => (t.key, t.value)) = ts'.map fun t => (t.key, t.value)) :
    emit (.tcl ns) generator time ts = emit (.tcl ns) generator time ts' := by
  have hline : ∀ ts : List Token, ts.map (line ns) =
      (ts.map fun t => (t.key, t.value)).map fun p => assignment p.1 (value ns p.2) := by
    intro ts
    rw [List.map_map]
    rfl
  rw [emit_eq, emit_eq, hline, hline, h]

/-- **A document tells its lines.** -/
theorem lines_eq_of_intercalate
    (heq : "\n".intercalate (ts.map (line ns)) = "\n".intercalate (ts'.map (line ns))) :
    lines ns ts = lines ns ts' := by
  rcases eq_or_ne ts [] with rfl | hne
  · rw [eq_nil_of_intercalate heq.symm]
  rcases eq_or_ne ts' [] with rfl | hne'
  · rw [eq_nil_of_intercalate heq]
  · rw [← cons_intercalate ns hne, ← cons_intercalate ns hne', heq]

theorem wrap_inj {header : String} {declarations declarations' : List String}
    (h : wrap ns header declarations = wrap ns header declarations') :
    "\n".intercalate declarations = "\n".intercalate declarations' := by
  rw [wrap, wrap, String.append_left_inj, String.append_right_inj] at h
  exact h

/-! ## What is put in can look like something else -/

/-- **A key with a line feed can look like two declarations**, whatever is declared before and
after them. -/
theorem emit_imitates (ns generator : String) (time : Timestamp) {t₁ t₂ : Token}
    (hkey : t.key = t₁.key ++ ") " ++ value ns t₁.value ++ "\nset var(" ++ t₂.key)
    (hvalue : t.value = t₂.value) (before after : List Token) :
    emit (.tcl ns) generator time (before ++ t :: after) =
      emit (.tcl ns) generator time (before ++ t₁ :: t₂ :: after) := by
  have hline : '\n' :: (line ns t).toList =
      '\n' :: (line ns t₁).toList ++ '\n' :: (line ns t₂).toList := by
    simp [line, assignment, hkey, hvalue]
  have hlines : lines ns (before ++ t :: after) = lines ns (before ++ t₁ :: t₂ :: after) := by
    simp only [lines, List.flatMap_append, List.flatMap_cons, hline, List.append_assoc]
  have htexts := (List.cons.inj ((cons_intercalate ns (List.append_ne_nil_of_right_ne_nil before
    (List.cons_ne_nil t after))).trans (hlines.trans (cons_intercalate ns
      (List.append_ne_nil_of_right_ne_nil before (List.cons_ne_nil t₁ _))).symm))).2
  rw [emit_eq, emit_eq, wrap, wrap, String.toList_inj.1 htexts]

/-- **Names with braces can look like other ones.** -/
theorem fontCall_imitates (ns first second third : String) (bold : Bool) :
    fontCall ns (first ++ "\x7d \x7b" ++ second) third bold =
      fontCall ns first (second ++ "\x7d \x7b" ++ third) bold := by
  refine String.toList_inj.1 ?_
  simp [fontCall]

end Tcl

/-! ## Colours and sizes -/

section Entries

variable {category category' : Category} {flag key key' : String} {entry entry' : Json.Value}
variable {e e' : Expr}

/-- Only typography tells fonts. -/
theorem Category.hasPlainNames_of_read (hcategory : category ≠ .font)
    (h : category.read flag key entry = .ok (some e)) : e.HasPlainNames := by
  unfold read at h
  split at h
  · obtain ⟨color, hcolor, hsome⟩ := map_eq_ok h
    cases hsome
    rcases Color.ofEntry_cases hcolor with hpaint | ⟨dark, light, rfl, -, -⟩
    · cases hpaint <;> trivial
    · trivial
  · obtain ⟨size, hsize, hsome⟩ := map_eq_ok h
    cases hsome
    cases Size.isSize_of_ofEntry hsize <;> trivial
  · exact absurd rfl hcategory

/-- **A colour or a size is told from its text** for Tcl, whatever marks stand in the keys of its
placeholders: two entries that are written alike have the same value.  So a choice tells its dark
and its light side. -/
theorem render_tcl_inj (ns : String) (hcategory : category ≠ .font) (hcategory' : category' ≠ .font)
    (h : category.read flag key entry = .ok (some e))
    (h' : category'.read flag key' entry' = .ok (some e'))
    (heq : e.render (.tcl ns) = e'.render (.tcl ns)) : e = e' := by
  rw [Tcl.render_eq, Tcl.render_eq] at heq
  have htext : [] ++ ' ' :: (Tcl.value ns e).toList = [] ++ ' ' :: (Tcl.value ns e').toList := by
    rw [Except.ok.inj heq]
  exact (Tcl.append_value_inj (Category.isValue_of_read h) (Category.isValue_of_read h')
    (Category.hasPlainNames_of_read hcategory h) (Category.hasPlainNames_of_read hcategory' h')
    htext).2

/-- A colour that is a placeholder full of marks in the dark. -/
def marksEntry (light : String) : Json.Value :=
  .object [("sets", .object [("light", .object [("value", .string light)]),
    ("dark", .object [("value", .string "\x7b?$var(a):\"]\x7d")])])]

/-- Two spellings of the light side are written alike. -/
theorem render_tcl_inj_marks :
    ∃ e e', Category.color.read "darkmode" "ink" (marksEntry "rgb(1,2,3)") = .ok (some e) ∧
      Category.color.read "darkmode" "paper" (marksEntry "rgb( 1, 2, 03 )") = .ok (some e') ∧
      e.render (.tcl "::spectrum") = e'.render (.tcl "::spectrum") ∧ e = e' := by
  have hread : Category.color.read "darkmode" "ink" (marksEntry "rgb(1,2,3)") =
      .ok (some (.conditional "darkmode" (.reference "?$var(a):\"]") (.color "#010203"))) := by cbv
  have hread' : Category.color.read "darkmode" "paper" (marksEntry "rgb( 1, 2, 03 )") =
      .ok (some (.conditional "darkmode" (.reference "?$var(a):\"]") (.color "#010203"))) := by cbv
  exact ⟨_, _, hread, hread', rfl,
    render_tcl_inj "::spectrum" (by decide) (by decide) hread hread' rfl⟩

end Entries

variable {fs fs' : Files} {directory directory' : Path} {s : Settings} {l l' : Loaded}

/-- **A document for Tcl tells what it declares**, where no key that is declared holds a line feed
and no name of a font an opening brace: two directories that are written alike declare the same keys
in the same order, with the same values. -/
theorem emit_tcl_inj (ns generator : String) (time : Timestamp)
    (h : load fs directory s = .ok l) (h' : load fs' directory' s = .ok l')
    (hplain : ∀ t ∈ l.table.sorted, t.IsPlain) (hplain' : ∀ t ∈ l'.table.sorted, t.IsPlain)
    (heq : emit (.tcl ns) generator time l.table.sorted =
      emit (.tcl ns) generator time l'.table.sorted) :
    l.table.sorted.map (fun t => (t.key, t.value)) =
      l'.table.sorted.map fun t => (t.key, t.value) := by
  rw [Tcl.emit_eq, Tcl.emit_eq] at heq
  have hlines := Tcl.lines_eq_of_intercalate (Tcl.wrap_inj (Except.ok.inj heq))
  exact Tcl.lines_inj (fun t ht => ⟨Loaded.isValue_of_mem_sorted h ht, hplain t ht⟩)
    (fun t ht => ⟨Loaded.isValue_of_mem_sorted h' ht, hplain' t ht⟩) hlines

/-- A colour under a key full of marks, and a placeholder for it. -/
def marksText : String :=
  "\x7b\"?$var(a):]\": \x7b\"value\": \"rgb(0,0,0)\"\x7d, "
    ++ "\"pen\": \x7b\"value\": \"\x7b?$var(a):]\x7d\"\x7d\x7d"

/-- A choice between a light colour and the placeholder. -/
def choiceText : String :=
  "\x7b\"ink\": \x7b\"sets\": \x7b\"light\": \x7b\"value\": \"rgb(1,2,3)\"\x7d, "
    ++ "\"dark\": \x7b\"value\": \"\x7b?$var(a):]\x7d\"\x7d\x7d\x7d\x7d"

/-- The choice with its light colour spelled in another way. -/
def spacedText : String :=
  "\x7b\"ink\": \x7b\"sets\": \x7b\"light\": \x7b\"value\": \"rgb( 1, 2, 03 )\"\x7d, "
    ++ "\"dark\": \x7b\"value\": \"\x7b?$var(a):]\x7d\"\x7d\x7d\x7d\x7d"

/-- A font. -/
def fontText : String :=
  "\x7b\"sans\": \x7b\"value\": \x7b\"fontFamily\": \"Clean\", \"fontSize\": \"14px\", "
    ++ "\"fontWeight\": \"bold\"\x7d\x7d\x7d"

/-- The entry of the choice. -/
def choiceEntry (light : String) : Json.Value :=
  .object [("sets", .object [("light", .object [("value", .string light)]),
    ("dark", .object [("value", .string "\x7b?$var(a):]\x7d")])])]

/-- The entry of the font. -/
def fontEntry : Json.Value :=
  .object [("value", .object [("fontFamily", .string "Clean"), ("fontSize", .string "14px"),
    ("fontWeight", .string "bold")])]

/-- A directory of a text for the choice and the two others. -/
def inkFiles (choice : String) : Files :=
  .ofList
    [(⟨.here, ["tokens", "marks.json"]⟩, .file marksText.toUTF8.toList),
     (⟨.here, ["tokens", "choice.json"]⟩, .file choice.toUTF8.toList),
     (⟨.here, ["tokens", "font.json"]⟩, .file fontText.toUTF8.toList)]

/-- Settings for the three texts. -/
def inkSettings : Settings :=
  { Settings.standard with
    colorFiles := ["marks.json", "choice.json"]
    layoutFiles := []
    typographyFiles := ["font.json"] }

def marksFile : PlannedFile :=
  { name := "marks.json", category := .color
    entries := [("?$var(a):]", .object [("value", .string "rgb(0,0,0)")]),
      ("pen", .object [("value", .string "\x7b?$var(a):]\x7d")])] }

def choiceFile (light : String) : PlannedFile :=
  { name := "choice.json", category := .color, entries := [("ink", choiceEntry light)] }

def fontFile : PlannedFile :=
  { name := "font.json", category := .font, entries := [("sans", fontEntry)] }

/-- The tokens of the directory. -/
def penTokens (light : String) : List Token :=
  [{ key := "?$var(a):]", value := .color "#000000", category := .color
     raw := .object [("value", .string "rgb(0,0,0)")], source := some "marks.json"
     dependencies := [] },
   { key := "pen", value := .reference "?$var(a):]", category := .color
     raw := .object [("value", .string "\x7b?$var(a):]\x7d")], source := some "marks.json"
     dependencies := ["?$var(a):]"] },
   { key := "ink", value := .conditional "darkmode" (.reference "?$var(a):]") (.color "#010203")
     category := .color, raw := choiceEntry light, source := some "choice.json"
     dependencies := ["?$var(a):]"] },
   { key := "sans", value := .font "Clean" "14px" true, category := .font, raw := fontEntry
     source := some "font.json", dependencies := [] }]

theorem readPlan_inkFiles {choice light : String}
    (hchoice : Json.read Files.commonNesting (unifyNewlines choice.toList) =
      .ok (.object (choiceFile light).entries)) :
    readPlan (inkFiles choice) ⟨.here, ["tokens"]⟩ inkSettings.plan =
      .ok [marksFile, choiceFile light, fontFile] := by
  have hjoin : Path.join ⟨.here, ["tokens"]⟩ (.ofText "marks.json") =
        ⟨.here, ["tokens", "marks.json"]⟩ ∧
      Path.join ⟨.here, ["tokens"]⟩ (.ofText "choice.json") = ⟨.here, ["tokens", "choice.json"]⟩ ∧
      Path.join ⟨.here, ["tokens"]⟩ (.ofText "font.json") = ⟨.here, ["tokens", "font.json"]⟩ :=
    ⟨by cbv, by cbv, by cbv⟩
  have hmarks : Json.read Files.commonNesting (unifyNewlines marksText.toList) =
      .ok (.object marksFile.entries) := by cbv
  have hfont : Json.read Files.commonNesting (unifyNewlines fontText.toList) =
      .ok (.object fontFile.entries) := by cbv
  have hmarks' : TokenFile.read (inkFiles choice) ⟨.here, ["tokens", "marks.json"]⟩ =
      .ok marksFile.entries := TokenFile.read_of_text (by simp [inkFiles, Files.ofList]) hmarks
  have hchoice' : TokenFile.read (inkFiles choice) ⟨.here, ["tokens", "choice.json"]⟩ =
      .ok (choiceFile light).entries :=
    TokenFile.read_of_text (by simp [inkFiles, Files.ofList]) hchoice
  have hfont' : TokenFile.read (inkFiles choice) ⟨.here, ["tokens", "font.json"]⟩ =
      .ok fontFile.entries := TokenFile.read_of_text (by simp [inkFiles, Files.ofList]) hfont
  have hplan : inkSettings.plan =
      [("marks.json", .color), ("choice.json", .color), ("font.json", .font)] := rfl
  simp only [hplan, readPlan, hjoin, hmarks', hchoice', hfont']
  rfl

/-- The declarations of the directory. -/
def inkPairs : List (String × Expr) :=
  [("?$var(a):]", .color "#000000"), ("pen", .reference "?$var(a):]"),
   ("ink", .conditional "darkmode" (.reference "?$var(a):]") (.color "#010203")),
   ("sans", .font "Clean" "14px" true)]

/-- A choice whose light colour is the same, however it is spelled, gives the same declarations. -/
theorem load_inkFiles (choice light : String)
    (hchoice : Json.read Files.commonNesting (unifyNewlines choice.toList) =
      .ok (.object (choiceFile light).entries))
    (hwalk : (choiceFile light).walk "darkmode" =
      ⟨(((penTokens light).drop 2).take 1).map .stored, none⟩) :
    ∃ l, load (inkFiles choice) ⟨.here, ["tokens"]⟩ inkSettings = .ok l ∧
      l.table.sorted.map (fun t => (t.key, t.value)) = inkPairs := by
  have hmarks : marksFile.walk "darkmode" = ⟨((penTokens light).take 2).map .stored, none⟩ := by
    cbv
  have hfont : fontFile.walk "darkmode" = ⟨((penTokens light).drop 3).map .stored, none⟩ := by
    cbv
  have hall : walkFiles inkSettings.flag.text [marksFile, choiceFile light, fontFile] =
      ⟨(penTokens light).map .stored, none⟩ := by
    change walkFiles "darkmode" [marksFile, choiceFile light, fontFile] = _
    simp only [walkFiles, hmarks, hwalk, hfont]
    rfl
  refine ⟨⟨[marksFile, choiceFile light, fontFile], (penTokens light).map .stored⟩,
    load_eq_ok_iff.2 ⟨readPlan_inkFiles hchoice, ?_⟩, ?_⟩
  · rw [hall]
    exact ⟨rfl, rfl⟩
  · cbv

theorem isPlain_of_inkPairs {ts : List Token} (h : ts.map (fun t => (t.key, t.value)) = inkPairs) :
    ∀ t ∈ ts, t.IsPlain := by
  have hpairs : ∀ p ∈ inkPairs, '\n' ∉ p.1.toList ∧ p.2.HasPlainNames := by
    simp only [inkPairs, List.forall_mem_cons, List.not_mem_nil, false_imp_iff, implies_true,
      and_true]
    exact ⟨⟨by decide, trivial⟩, ⟨by decide, trivial⟩, ⟨by decide, trivial⟩,
      by decide, by decide, by decide⟩
  exact fun t ht => hpairs (t.key, t.value) (h ▸ List.mem_map_of_mem ht)

/-- Two spellings of a colour in a choice, among other declarations, give the same document. -/
theorem emit_tcl_inj_ink :
    ∃ l l', load (inkFiles choiceText) ⟨.here, ["tokens"]⟩ inkSettings = .ok l ∧
      load (inkFiles spacedText) ⟨.here, ["tokens"]⟩ inkSettings = .ok l' ∧
      (∀ t ∈ l.table.sorted, t.IsPlain) ∧ (∀ t ∈ l'.table.sorted, t.IsPlain) ∧
      emit (.tcl "::spectrum") "spectrum-tokens" ⟨2025, 1, 2, 3, 4, 5⟩ l.table.sorted =
        emit (.tcl "::spectrum") "spectrum-tokens" ⟨2025, 1, 2, 3, 4, 5⟩ l'.table.sorted ∧
      l.table.sorted.map (fun t => (t.key, t.value)) =
        l'.table.sorted.map fun t => (t.key, t.value) := by
  obtain ⟨l, hload, hsorted⟩ : ∃ l, load (inkFiles choiceText) ⟨.here, ["tokens"]⟩ inkSettings =
      .ok l ∧ l.table.sorted.map (fun t => (t.key, t.value)) = inkPairs :=
    load_inkFiles _ "rgb(1,2,3)" (by cbv) (by cbv)
  obtain ⟨l', hload', hsorted'⟩ : ∃ l, load (inkFiles spacedText) ⟨.here, ["tokens"]⟩ inkSettings =
      .ok l ∧ l.table.sorted.map (fun t => (t.key, t.value)) = inkPairs :=
    load_inkFiles _ "rgb( 1, 2, 03 )" (by cbv) (by cbv)
  have hplain := isPlain_of_inkPairs hsorted
  have hplain' := isPlain_of_inkPairs hsorted'
  have hemit := Tcl.emit_congr "::spectrum" "spectrum-tokens" ⟨2025, 1, 2, 3, 4, 5⟩
    (hsorted.trans hsorted'.symm)
  exact ⟨l, l', hload, hload', hplain, hplain', hemit,
    emit_tcl_inj _ _ _ hload hload' hplain hplain' hemit⟩

end DesignTokens
