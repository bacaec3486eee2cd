import DesignTokens.Proofs.Agreement
import DesignTokens.Proofs.Compile

/-!
# Proofs/Unread — what is not looked at leaves no trace

Two directories whose files have the same keys and whose entries agree in what is looked at are
compiled alike.  Entries that agree are read alike, so that the same becomes of them; the tokens
differ in the entries that they remember and in nothing else, and **neither the schedule nor the
output looks at those**.

There is one exception.  A metric whose desktop variant holds an object is refused with a message
that tells all of that object, so that what the object holds besides a font does show, in that
message alone.

* `walkFiles_same` — the same is found in files that agree.
* `compile_same` — files that agree are compiled alike.
* `compile_unread` — what that comes to without the exception, and with it.
-/

namespace DesignTokens

open Json

variable {R : Likeness} {files files' : List PlannedFile}
variable {fs fs' : Files} {directory directory' : Path} {s : Settings} {time : Timestamp}

/-! ## Tokens and diagnostics -/

/-- A token that does not remember the entry that it was made from. -/
def Token.withoutRaw (t : Token) : Token := { t with raw := .null }

/-- Two diagnostics are the same, or tell of related values that are refused as sizes. -/
def Diagnostic.Same (R : Likeness) (d d' : Diagnostic) : Prop :=
  d = d' ∨ ∃ v w, R v w ∧ d.message = (Rejection.size v).message ∧
    d' = { d with message := (Rejection.size w).message }

theorem Diagnostic.Same.eq {d d' : Diagnostic} (h : Same Eq d d') : d = d' := by
  rcases h with rfl | ⟨v, w, rfl, hmessage, rfl⟩
  · rfl
  · rw [← hmessage]

/-- The same became of two entries. -/
inductive Occurrence.Same (R : Likeness) : Occurrence → Occurrence → Prop where
  | stored {t t' : Token} (h : t.withoutRaw = t'.withoutRaw) : Same R (.stored t) (.stored t')
  | dropped {d d' : Diagnostic} (h : d.Same R d') : Same R (.dropped d) (.dropped d')
  | ignored (key : String) : Same R (.ignored key) (.ignored key)

theorem Occurrence.Same.token? {o o' : Occurrence} (h : Same R o o') :
    Option.Rel (fun t t' => t.withoutRaw = t'.withoutRaw) o.token? o'.token? := by
  cases h with
  | stored h => exact .some h
  | dropped h => exact .none
  | ignored key => exact .none

theorem Occurrence.Same.diagnostic? {o o' : Occurrence} (h : Same R o o') :
    Option.Rel (Diagnostic.Same R) o.diagnostic? o'.diagnostic? := by
  cases h with
  | stored h => exact .none
  | dropped h => exact .some h
  | ignored key => exact .none

/-! ## Files -/

/-- Two files have one name and one category, and the same keys in the same order, with entries that
agree in what is looked at. -/
structure PlannedFile.Agree (R : Likeness) (file file' : PlannedFile) : Prop where
  name_eq : file.name = file'.name
  category_eq : file.category = file'.category
  entries : List.Forall₂ (fun e e' => e.1 = e'.1 ∧ file.category.Agree R e.2 e'.2)
    file.entries file'.entries

/-- Files with one entry agree where these do. -/
theorem PlannedFile.Agree.singleton {name key : String} {category : Category} {entry entry' : Value}
    (h : category.Agree R entry entry') :
    Agree R ⟨name, category, [(key, entry)]⟩ ⟨name, category, [(key, entry')]⟩ :=
  ⟨rfl, rfl, .cons ⟨rfl, h⟩ .nil⟩

/-- The same was found in two walks. -/
structure Walk.Same (R : Likeness) (w w' : Walk) : Prop where
  occurrences : List.Forall₂ (Occurrence.Same R) w.occurrences w'.occurrences
  stop_eq : w.stop = w'.stop

namespace PlannedFile.Agree

variable {file file' : PlannedFile}

theorem keys_eq (h : file.Agree R file') :
    file.entries.map Prod.fst = file'.entries.map Prod.fst := by
  rw [← List.forall₂_eq_eq_eq, List.forall₂_map_left_iff, List.forall₂_map_right_iff]
  exact h.entries.imp fun _ _ h => h.1

/-- Entries under the same key agree. -/
theorem get? (h : file.Agree R file') (key : String) :
    file.category.Agree R ((Entries.get? key file.entries).getD .null)
      ((Entries.get? key file'.entries).getD .null) := by
  have hentries := h.entries
  -- the category is that of the whole file, and the induction is on the entries alone
  generalize file.entries = es at hentries
  generalize file'.entries = es' at hentries
  induction hentries with
  | nil => exact .refl R _ _
  | @cons e e' es es' he hrest ih =>
    obtain ⟨k, v⟩ := e
    obtain ⟨k', v'⟩ := e'
    obtain ⟨rfl, hv⟩ := he
    rw [Entries.get?, Entries.get?]
    split
    · exact hv
    · exact ih

/-- **The same becomes of entries that agree.** -/
theorem occurrence (hR : R.OfSizes) (h : file.Agree R file') (flag key : String)
    {entry entry' : Value} (he : file.category.Agree R entry entry') :
    SameResult (Occurrence.Same R) (file.occurrence flag key entry)
      (file'.occurrence flag key entry') := by
  have hread : SameReading R (file.category.read flag key entry)
      (file.category.read flag key entry') := he.read hR
  rw [PlannedFile.occurrence, PlannedFile.occurrence, ← h.category_eq, ← h.name_eq]
  generalize file.category.read flag key entry = x at hread ⊢
  generalize file.category.read flag key entry' = y at hread ⊢
  cases hread with
  | same x =>
    cases x with
    | error fault =>
      cases fault with
      | rejected r => exact .ok (.dropped (Or.inl rfl))
      | digits e => exact .error e
    | ok value? =>
      cases value? with
      | none => exact .ok (.ignored key)
      | some value => exact .ok (.stored rfl)
  | size hvw => exact .ok (.dropped (Or.inr ⟨_, _, hvw, rfl, rfl⟩))

theorem walkKeys (hR : R.OfSizes) (h : file.Agree R file') (flag : String) (keys : List String) :
    Walk.Same R (file.walkKeys flag keys) (file'.walkKeys flag keys) := by
  induction keys with
  | nil => exact ⟨.nil, rfl⟩
  | cons key rest ih =>
    have hoccurrence := h.occurrence hR flag key (h.get? key)
    rw [PlannedFile.walkKeys, PlannedFile.walkKeys]
    generalize file.occurrence flag key _ = x at hoccurrence ⊢
    generalize file'.occurrence flag key _ = y at hoccurrence ⊢
    cases hoccurrence with
    | ok ho => exact ⟨.cons ho ih.occurrences, ih.stop_eq⟩
    | error e => exact ⟨.nil, rfl⟩

theorem walk (hR : R.OfSizes) (h : file.Agree R file') (flag : String) :
    Walk.Same R (file.walk flag) (file'.walk flag) := by
  rw [PlannedFile.walk, PlannedFile.walk, h.keys_eq]
  split
  · exact ⟨.nil, rfl⟩
  · exact h.walkKeys hR flag _

end PlannedFile.Agree

/-- **The same is found in files that agree.** -/
theorem walkFiles_same (hR : R.OfSizes) (h : List.Forall₂ (PlannedFile.Agree R) files files')
    (flag : String) :
    Walk.Same R (walkFiles flag files) (walkFiles flag files') := by
  induction h with
  | nil => exact ⟨.nil, rfl⟩
  | cons hfile hrest ih =>
    have hwalk := hfile.walk hR flag
    rw [walkFiles, walkFiles]
    simp only
    rw [← hwalk.stop_eq]
    split
    · exact hwalk
    · exact ⟨List.rel_append hwalk.occurrences ih.occurrences, ih.stop_eq⟩

/-! ## Tables -/

/-- Two tables hold the same tokens, but for the entries that these remember. -/
def TokenTable.Same (t t' : TokenTable) : Prop :=
  t.byKey.mapValues Token.withoutRaw = t'.byKey.mapValues Token.withoutRaw

namespace TokenTable.Same

variable {t t' : TokenTable}

theorem add {token token' : Token} (h : t.Same t')
    (htoken : token.withoutRaw = token'.withoutRaw) : (t.add token).Same (t'.add token') := by
  have hkey : token.withoutRaw.key = token'.withoutRaw.key := congrArg Token.key htoken
  change (t.byKey.insert token.key token).mapValues Token.withoutRaw =
    (t'.byKey.insert token'.key token').mapValues Token.withoutRaw
  rw [OrderedMap.mapValues_insert, OrderedMap.mapValues_insert, h, htoken]
  exact congrArg (fun k => OrderedMap.insert _ k token'.withoutRaw) hkey

theorem ofList {tokens tokens' : List Token}
    (h : List.Forall₂ (fun t t' => t.withoutRaw = t'.withoutRaw) tokens tokens') :
    (TokenTable.ofList tokens).Same (.ofList tokens') :=
  List.rel_foldl (P := TokenTable.Same) (R := fun t t' => t.withoutRaw = t'.withoutRaw)
    (fun _ _ ht _ _ htoken => ht.add htoken) rfl h

/-- What a key depends on does not show what its token remembers. -/
theorem graph_eq (h : t.Same t') : t.graph = t'.graph := by
  have hgraph : ∀ t : TokenTable,
      (t.byKey.mapValues Token.withoutRaw).mapValues Token.dependencies = t.graph := fun t =>
    OrderedMap.mapValues_mapValues Token.withoutRaw Token.dependencies t.byKey
  rw [← hgraph t, ← hgraph t', h]

theorem get? (h : t.Same t') (key : String) :
    (t.get? key).map Token.withoutRaw = (t'.get? key).map Token.withoutRaw := by
  rw [TokenTable.get?, TokenTable.get?, ← OrderedMap.get?_mapValues, ← OrderedMap.get?_mapValues, h]

theorem map_sorted (h : t.Same t') :
    t.sorted.map Token.withoutRaw = t'.sorted.map Token.withoutRaw := by
  rw [sorted, sorted, List.map_filterMap, List.map_filterMap, h.graph_eq]
  exact List.filterMap_congr fun key _ => h.get? key

theorem skipDiagnostic_eq (h : t.Same t') (key dep : String) :
    skipDiagnostic t key dep = skipDiagnostic t' key dep := by
  have hsource : ∀ t : TokenTable, (t.get? key).bind Token.source =
      ((t.get? key).map Token.withoutRaw).bind Token.source := fun t => by
    cases t.get? key <;> rfl
  rw [skipDiagnostic, skipDiagnostic, hsource t, hsource t', h.get? key]

end TokenTable.Same

/-! ## Compilations -/

/-- Declarations do not show what tokens remember. -/
theorem emit_withoutRaw (t : Target) (generator : String) (time : Timestamp) (tokens : List Token) :
    emit t generator time (tokens.map Token.withoutRaw) = emit t generator time tokens := by
  rw [emit, emit, List.mapM_map]
  rfl

/-- The same was loaded. -/
def Loaded.Same (R : Likeness) (l l' : Loaded) : Prop :=
  List.Forall₂ (Occurrence.Same R) l.occurrences l'.occurrences

namespace Loaded.Same

variable {l l' : Loaded}

theorem table (h : l.Same R l') : l.table.Same l'.table :=
  .ofList (List.rel_filterMap (fun _ _ h => h.token?) h)

theorem diagnostics (h : l.Same R l') :
    List.Forall₂ (Diagnostic.Same R) l.diagnostics l'.diagnostics :=
  List.rel_filterMap (fun _ _ h => h.diagnostic?) h

theorem keysRead_eq (h : l.Same R l') : l.keysRead = l'.keysRead := h.length_eq

end Loaded.Same

/-- The same was compiled, but for the entries that tokens remember and for what diagnostics tell of
values that are refused as sizes. -/
structure Compiled.Same (R : Likeness) (c c' : Compiled) : Prop where
  output_eq : c.output = c'.output
  tokens_eq : c.tokens.map Token.withoutRaw = c'.tokens.map Token.withoutRaw
  diagnostics : List.Forall₂ (Diagnostic.Same R) c.diagnostics c'.diagnostics
  keysRead_eq : c.keysRead = c'.keysRead

/-- Two compilations come to the same, or fail with the same words. -/
inductive SameOutcome (R : Likeness) :
    Except CompileFault Compiled → Except CompileFault Compiled → Prop where
  | ok {c c' : Compiled} (h : c.Same R c') : SameOutcome R (.ok c) (.ok c')
  | error {e e' : CompileFault} (h : e.message = e'.message) : SameOutcome R (.error e) (.error e')

theorem load_same (hR : R.OfSizes) (hread : readPlan fs directory s.plan = .ok files)
    (hread' : readPlan fs' directory' s.plan = .ok files')
    (h : List.Forall₂ (PlannedFile.Agree R) files files') :
    (∃ l l', load fs directory s = .ok l ∧ load fs' directory' s = .ok l' ∧ l.Same R l') ∨
      ∃ e e', load fs directory s = .error e ∧ load fs' directory' s = .error e' ∧
        e.message = e'.message := by
  have hwalk := walkFiles_same hR h s.flag.text
  rw [load, load, hread, hread']
  simp only
  rw [← hwalk.stop_eq]
  split
  · exact Or.inr ⟨_, _, rfl, rfl, rfl⟩
  · exact Or.inl ⟨_, _, rfl, rfl, hwalk.occurrences⟩

/-- **Files that agree are compiled alike.** -/
theorem compile_same (hR : R.OfSizes) (hread : readPlan fs directory s.plan = .ok files)
    (hread' : readPlan fs' directory' s.plan = .ok files')
    (h : List.Forall₂ (PlannedFile.Agree R) files files') (time : Timestamp) :
    SameOutcome R (compile fs directory s time) (compile fs' directory' s time) := by
  rcases load_same hR hread hread' h with ⟨l, l', hl, hl', hsame⟩ | ⟨e, e', hl, hl', hmessage⟩
  · have hemit : emit s.target s.generator.text time l.table.sorted =
        emit s.target s.generator.text time l'.table.sorted := by
      rw [← emit_withoutRaw, hsame.table.map_sorted, emit_withoutRaw]
    change emit s.target s.generator.text time (l.table.graph.schedule.tokens l.table) =
      emit s.target s.generator.text time (l'.table.graph.schedule.tokens l'.table) at hemit
    rw [compile, compile, hl, hl']
    simp only [← hemit]
    split
    · exact .error rfl
    · refine .ok ⟨rfl, hsame.table.map_sorted, List.rel_append hsame.diagnostics ?_,
        hsame.keysRead_eq⟩
      simp only [hsame.table.graph_eq, hsame.table.skipDiagnostic_eq]
      exact List.forall₂_same.2 fun d _ => Or.inl rfl
  · rw [compile, compile, hl, hl']
    exact .error hmessage

/-- Files that are gone through to the end are compiled, for Tcl at any rate. -/
theorem exists_compile (hread : readPlan fs directory s.plan = .ok files)
    (hstop : (walkFiles s.flag.text files).stop = none) (hformat : s.format = .tcl)
    (time : Timestamp) : ∃ c, compile fs directory s time = .ok c ∧
      c.loaded.occurrences = (walkFiles s.flag.text files).occurrences := by
  obtain ⟨l, hload, hl⟩ : ∃ l, load fs directory s = .ok l ∧
      l.occurrences = (walkFiles s.flag.text files).occurrences :=
    ⟨⟨files, _⟩, load_eq_ok_iff.2 ⟨hread, hstop, rfl⟩, rfl⟩
  obtain ⟨output, hemit⟩ := emit_tcl s.ns.text s.generator.text time l.table.sorted
  have htarget : s.target = .tcl s.ns.text := by
    rw [Settings.target, hformat]
    rfl
  exact ⟨_, compile_eq_ok_iff.2 ⟨l, output, hload, htarget ▸ hemit, rfl⟩, hl⟩

/-- **What is not looked at leaves no trace.**  Let the planned files of two directories have the
same keys in the same order.  Where their entries differ in nothing that is looked at, one directory
is compiled if and only if the other one is, both come to the same but for the entries that tokens
remember, and both fail with the same words.  Where the objects differ besides that hold a font as
the value of a desktop variant, the one difference that this can make is in the message about such
an object, which is refused as a size. -/
theorem compile_unread (hread : readPlan fs directory s.plan = .ok files)
    (hread' : readPlan fs' directory' s.plan = .ok files') (time : Timestamp) :
    (List.Forall₂ (PlannedFile.Agree Eq) files files' →
      ((∃ c, compile fs directory s time = .ok c) ↔ ∃ c, compile fs' directory' s time = .ok c) ∧
      (∀ c c', compile fs directory s time = .ok c → compile fs' directory' s time = .ok c' →
        c.output = c'.output ∧ c.diagnostics = c'.diagnostics ∧ c.keysRead = c'.keysRead ∧
          c.tokens.map Token.withoutRaw = c'.tokens.map Token.withoutRaw) ∧
      ∀ e e', compile fs directory s time = .error e → compile fs' directory' s time = .error e' →
        e.message = e'.message) ∧
    (List.Forall₂ (PlannedFile.Agree Font.SameFont) files files' →
      SameOutcome Font.SameFont (compile fs directory s time)
        (compile fs' directory' s time)) := by
  refine ⟨fun h => ?_, fun h => compile_same Font.SameFont.ofSizes hread hread' h time⟩
  have hsame := compile_same Likeness.ofSizes_eq hread hread' h time
  generalize compile fs directory s time = x at hsame ⊢
  generalize compile fs' directory' s time = y at hsame ⊢
  cases hsame with
  | @ok c c' hc =>
    have hdiagnostics : c.diagnostics = c'.diagnostics :=
      List.forall₂_eq_eq_eq ▸ hc.diagnostics.imp fun _ _ hd => hd.eq
    refine ⟨⟨fun _ => ⟨c', rfl⟩, fun _ => ⟨c, rfl⟩⟩, ?_, ?_⟩
    · rintro _ _ ⟨⟩ ⟨⟩
      exact ⟨hc.output_eq, hdiagnostics, hc.keysRead_eq, hc.tokens_eq⟩
    · rintro _ _ ⟨⟩
  | error hmessage =>
    refine ⟨⟨?_, ?_⟩, ?_, ?_⟩
    · rintro ⟨_, ⟨⟩⟩
    · rintro ⟨_, ⟨⟩⟩
    · rintro _ _ ⟨⟩
    · rintro _ _ ⟨⟩ ⟨⟩
      exact hmessage

/-- A file of one colour. -/
def colorsOf (entry : Value) : PlannedFile := ⟨"colors.json", .color, [("ink", entry)]⟩

/-- Typography that tells of one key. -/
def fontsOf (key : String) (entry : Value) : PlannedFile := ⟨"fonts.json", .font, [(key, entry)]⟩

/-- A directory that holds such files, each as a text. -/
def directoryOf (colors fonts : String) : Files :=
  .ofList [(⟨.here, ["tokens", "colors.json"]⟩, .file colors.toUTF8.toList),
    (⟨.here, ["tokens", "fonts.json"]⟩, .file fonts.toUTF8.toList)]

/-- Settings for both files. -/
def bothSettings : Settings :=
  { Settings.standard with
    colorFiles := ["colors.json"], layoutFiles := [], typographyFiles := ["fonts.json"] }

/-- A colour whose light variant is a word and whose dark one is missing. -/
def bareInk : Value :=
  .object [("sets", .object [("light", .object [("value", .string "red")])])]

/-- The same with a note on the light variant, and with a variant that no colour has. -/
def notedInk : Value :=
  .object [("sets", .object [("light", .object [("value", .string "red"), ("note", .int 1)]),
    ("wireframe", .int 7)])]

/-- A font of which nothing but the family is told. -/
def bareFont : Value := .object [("fontFamily", .string "Serif")]

/-- The same with a note. -/
def notedFont : Value := .object [("fontFamily", .string "Serif"), ("note", .int 1)]

/-- Both without anything that is not looked at. -/
def bareFiles : Files :=
  directoryOf "\x7b\"ink\": \x7b\"sets\": \x7b\"light\": \x7b\"value\": \"red\"\x7d\x7d\x7d\x7d"
    "\x7b\"body\": \x7b\"value\": \x7b\"fontFamily\": \"Serif\"\x7d\x7d\x7d"

/-- Both with it. -/
def notedFiles : Files :=
  directoryOf
    ("\x7b\"ink\": \x7b\"sets\": \x7b\"light\": \x7b\"value\": \"red\", \"note\": 1\x7d, "
      ++ "\"wireframe\": 7\x7d\x7d\x7d")
    ("\x7b\"body\": \x7b\"note\": 1, \"value\": \x7b\"fontFamily\": \"Serif\", "
      ++ "\"note\": 1\x7d\x7d\x7d")

theorem readPlan_bareFiles :
    readPlan bareFiles ⟨.here, ["tokens"]⟩ bothSettings.plan =
      .ok [colorsOf bareInk, fontsOf "body" (.object [("value", bareFont)])] := by
  cbv

theorem readPlan_notedFiles :
    readPlan notedFiles ⟨.here, ["tokens"]⟩ bothSettings.plan =
      .ok [colorsOf notedInk,
        fontsOf "body" (.object [("note", .int 1), ("value", notedFont)])] := by
  cbv

theorem agree_ink : Category.color.Agree Eq bareInk notedInk := by
  have hlight : Value.AgreeOn [("value", Eq)] (.object [("value", .string "red")])
      (.object [("value", .string "red"), ("note", .int 1)]) :=
    Or.inr ⟨_, _, rfl, rfl, List.forall_mem_singleton.2 (.some rfl)⟩
  refine Or.inr ⟨_, _, rfl, rfl, List.forall_mem_cons.2 ⟨.none,
    List.forall_mem_singleton.2 (.some (Or.inr ⟨_, _, rfl, rfl, ?_⟩))⟩⟩
  exact List.forall_mem_cons.2 ⟨.some hlight, List.forall_mem_singleton.2 .none⟩

/-- A note on a font does not make it another one. -/
theorem sameFont_noted : Font.SameFont bareFont notedFont :=
  Or.inr ⟨rfl, Or.inr ⟨_, _, rfl, rfl, List.forall_mem_cons.2 ⟨.some rfl,
    List.forall_mem_cons.2 ⟨.none, List.forall_mem_singleton.2 .none⟩⟩⟩⟩

theorem agree_body : Category.font.Agree Eq (.object [("value", bareFont)])
    (.object [("note", .int 1), ("value", notedFont)]) :=
  Or.inr ⟨_, _, rfl, rfl, List.forall_mem_cons.2 ⟨.some sameFont_noted,
    List.forall_mem_singleton.2 .none⟩⟩

theorem compile_bareFiles (time : Timestamp) :
    ∃ c, compile bareFiles ⟨.here, ["tokens"]⟩ bothSettings time = .ok c := by
  have hred : (colorsOf bareInk).category.read "darkmode" "ink" bareInk =
      .error (.rejected (.color (.string "red"))) := by cbv
  have hink : (colorsOf bareInk).occurrence "darkmode" "ink" bareInk = .ok (.dropped
      ⟨"ink", (Rejection.color (.string "red")).message, some "colors.json"⟩) := by
    rw [PlannedFile.occurrence, hred]
    rfl
  have hbody : (fontsOf "body" (.object [("value", bareFont)])).occurrence "darkmode" "body"
      (.object [("value", bareFont)]) = .ok (.dropped
        ⟨"body", (Rejection.incompleteFont "body" "fontSize").message, some "fonts.json"⟩) := rfl
  refine (exists_compile readPlan_bareFiles ?_ rfl time).imp fun c hc => hc.1
  change (walkFiles "darkmode" _).stop = none
  simp only [walkFiles, PlannedFile.walk_singleton rfl hink, PlannedFile.walk_singleton rfl hbody]

/-- Both directories are compiled, and neither the notes nor the variant that no colour has show. -/
theorem compile_unread_notes :
    List.Forall₂ (PlannedFile.Agree Eq)
      [colorsOf bareInk, fontsOf "body" (.object [("value", bareFont)])]
      [colorsOf notedInk, fontsOf "body" (.object [("note", .int 1), ("value", notedFont)])] ∧
    ∀ time, ∃ c c', compile bareFiles ⟨.here, ["tokens"]⟩ bothSettings time = .ok c ∧
      compile notedFiles ⟨.here, ["tokens"]⟩ bothSettings time = .ok c' ∧
      c.output = c'.output ∧ c.diagnostics = c'.diagnostics ∧ c.keysRead = c'.keysRead ∧
        c.tokens.map Token.withoutRaw = c'.tokens.map Token.withoutRaw := by
  have hagree : List.Forall₂ (PlannedFile.Agree Eq)
      [colorsOf bareInk, fontsOf "body" (.object [("value", bareFont)])]
      [colorsOf notedInk, fontsOf "body" (.object [("note", .int 1), ("value", notedFont)])] :=
    .cons (.singleton agree_ink) (.cons (.singleton agree_body) .nil)
  refine ⟨hagree, fun time => ?_⟩
  obtain ⟨hiff, hsame, -⟩ :=
    (compile_unread readPlan_bareFiles readPlan_notedFiles time).1 hagree
  obtain ⟨c, hc⟩ := compile_bareFiles time
  obtain ⟨c', hc'⟩ := hiff.1 ⟨c, hc⟩
  exact ⟨c, c', hc, hc', hsame c c' hc hc'⟩

/-- A metric whose desktop variant has a given value. -/
def metricOf (v : Value) : Value :=
  .object [("sets", .object [("desktop", .object [("value", v)])])]

/-- Settings for typography alone. -/
def fontSettings : Settings :=
  { Settings.standard with
    colorFiles := [], layoutFiles := [], typographyFiles := ["fonts.json"] }

/-- A directory with a metric that holds a font. -/
def bareMetric : Files :=
  directoryOf "\x7b\x7d" ("\x7b\"size\": \x7b\"sets\": \x7b\"desktop\": \x7b\"value\": "
    ++ "\x7b\"fontFamily\": \"Serif\"\x7d\x7d\x7d\x7d\x7d")

/-- The same with a note on the font. -/
def notedMetric : Files :=
  directoryOf "\x7b\x7d" ("\x7b\"size\": \x7b\"sets\": \x7b\"desktop\": \x7b\"value\": "
    ++ "\x7b\"fontFamily\": \"Serif\", \"note\": 1\x7d\x7d\x7d\x7d\x7d")

theorem readPlan_bareMetric : readPlan bareMetric ⟨.here, ["tokens"]⟩ fontSettings.plan =
    .ok [fontsOf "size" (metricOf bareFont)] := by
  cbv

theorem readPlan_notedMetric : readPlan notedMetric ⟨.here, ["tokens"]⟩ fontSettings.plan =
    .ok [fontsOf "size" (metricOf notedFont)] := by
  cbv

theorem agree_metric :
    Category.font.Agree Font.SameFont (metricOf bareFont) (metricOf notedFont) := by
  have hvariant : Value.AgreeOn [("value", Font.SameFont)] (.object [("value", bareFont)])
      (.object [("value", notedFont)]) :=
    Or.inr ⟨_, _, rfl, rfl, List.forall_mem_singleton.2 (.some sameFont_noted)⟩
  refine Or.inr ⟨_, _, rfl, rfl, List.forall_mem_cons.2 ⟨.none,
    List.forall_mem_singleton.2 (.some (Or.inr ⟨_, _, rfl, rfl, ?_⟩))⟩⟩
  exact List.forall_mem_singleton.2 (.some hvariant)

/-- An object in the place of a size is told of and nothing else is. -/
theorem diagnostics_metric {members : List (String × Value)}
    (hread : readPlan fs directory fontSettings.plan =
      .ok [fontsOf "size" (metricOf (.object members))]) (time : Timestamp) :
    ∃ c, compile fs directory fontSettings time = .ok c ∧ c.diagnostics =
      [⟨"size", (Rejection.size (.object members)).message, some "fonts.json"⟩] := by
  have hdropped : (fontsOf "size" (metricOf (.object members))).occurrence fontSettings.flag.text
      "size" (metricOf (.object members)) = .ok (.dropped
        ⟨"size", (Rejection.size (.object members)).message, some "fonts.json"⟩) := rfl
  have hwalk := PlannedFile.walk_singleton rfl hdropped
  obtain ⟨c, hc, hoccurrences⟩ := exists_compile hread (by simp only [walkFiles, hwalk]) rfl time
  simp only [walkFiles, hwalk, List.append_nil] at hoccurrences
  have htable : c.loaded.table = .empty := by
    rw [Loaded.table, hoccurrences]
    rfl
  have hskipped : TokenTable.empty.graph.schedule.skipped.entries = [] := by cbv
  refine ⟨c, hc, ?_⟩
  rw [Compiled.diagnostics, schedule_of_compile hc, htable, hskipped, Loaded.diagnostics,
    hoccurrences]
  rfl

/-- Both directories are compiled, and tell of the object that is refused as a size with all that it
holds, so that a note shows that nothing looks at. -/
theorem diagnostics_tell_refused_object :
    ∃ files files' c c',
      readPlan bareMetric ⟨.here, ["tokens"]⟩ fontSettings.plan = .ok files ∧
      readPlan notedMetric ⟨.here, ["tokens"]⟩ fontSettings.plan = .ok files' ∧
      List.Forall₂ (PlannedFile.Agree Font.SameFont) files files' ∧
      compile bareMetric ⟨.here, ["tokens"]⟩ fontSettings ⟨2025, 1, 2, 3, 4, 5⟩ = .ok c ∧
      compile notedMetric ⟨.here, ["tokens"]⟩ fontSettings ⟨2025, 1, 2, 3, 4, 5⟩ = .ok c' ∧
      c.diagnostics = [⟨"size", "Invalid size format: \x7b'fontFamily': 'Serif'\x7d",
        some "fonts.json"⟩] ∧
      c'.diagnostics = [⟨"size", "Invalid size format: \x7b'fontFamily': 'Serif', 'note': 1\x7d",
        some "fonts.json"⟩] ∧
      c.diagnostics ≠ c'.diagnostics := by
  obtain ⟨c, hc, hdiagnostics⟩ := diagnostics_metric readPlan_bareMetric ⟨2025, 1, 2, 3, 4, 5⟩
  obtain ⟨c', hc', hdiagnostics'⟩ := diagnostics_metric readPlan_notedMetric ⟨2025, 1, 2, 3, 4, 5⟩
  have hmessage : (Rejection.size bareFont).message =
      "Invalid size format: \x7b'fontFamily': 'Serif'\x7d" := by decide +kernel
  have hmessage' : (Rejection.size notedFont).message =
      "Invalid size format: \x7b'fontFamily': 'Serif', 'note': 1\x7d" := by decide +kernel
  rw [← bareFont, hmessage] at hdiagnostics
  rw [← notedFont, hmessage'] at hdiagnostics'
  have hne : c.diagnostics ≠ c'.diagnostics := by
    rw [hdiagnostics, hdiagnostics']
    decide
  exact ⟨_, _, c, c', readPlan_bareMetric, readPlan_notedMetric,
    .cons (.singleton agree_metric) .nil, hc, hc', hdiagnostics, hdiagnostics', hne⟩

end DesignTokens
