import DesignTokens.Proofs.Account
import DesignTokens.Proofs.Compile
import DesignTokens.Proofs.Values

/-!
# Proofs/Diagnostics — what is missing from the output

Every key that is stored is declared or skipped, and every member of a planned file that makes no
token is told of, those that typography passes over excepted.

* `compile_accounted` — the account of a compilation.
* `declared_iff_of_dropped` — a key that a diagnostic is about is declared all the same where
  another file stores it.
-/

namespace DesignTokens

variable {fs : Files} {directory : Path} {s : Settings} {time : Timestamp} {c : Compiled}
variable {flag k : String}

/-! ## Stored keys -/

namespace Member

variable {members : List Member} {m : Member}

/-- The last member that is stored under a key is one that is. -/
theorem lastStored_eq_some (h : lastStored flag members k = some m) :
    m ∈ members ∧ m.key = k ∧ m.Stored flag := by
  have hmem : m ∈ members := List.mem_reverse.1 (List.mem_of_find?_eq_some h)
  have hany := List.find?_some h
  obtain ⟨t, ht, hkey⟩ := (Option.any_eq_true _ _).1 hany
  exact ⟨hmem, (key_of_token? ht).symm.trans (beq_iff_eq.1 hkey), exists_token?_iff.1 ⟨t, ht⟩⟩

/-- **Where a key is stored, there is a last member that is stored under it.** -/
theorem exists_lastStored_iff :
    (∃ m, lastStored flag members k = some m) ↔ ∃ m ∈ members, m.key = k ∧ m.Stored flag := by
  constructor
  · rintro ⟨m, hm⟩
    exact ⟨m, lastStored_eq_some hm⟩
  · rintro ⟨m, hm, hkey, hstored⟩
    obtain ⟨t, ht⟩ := exists_token?_iff.2 hstored
    rw [← Option.isSome_iff_exists, lastStored, List.find?_isSome]
    refine ⟨m, List.mem_reverse.2 hm, ?_⟩
    rw [ht]
    exact beq_iff_eq.2 ((key_of_token? ht).trans hkey)

end Member

namespace Loaded.Accounted

variable {l : Loaded}

/-- **The keys of the table are the stored ones.** -/
theorem mem_keys_table_iff (h : l.Accounted fs directory s) :
    k ∈ l.table.keys ↔ ∃ m ∈ l.members, m.key = k ∧ m.Stored s.flag.text := by
  have hkeys : k ∈ l.table.keys ↔ ∃ t, l.table.get? k = some t := OrderedMap.mem_keys_iff
  rw [hkeys, ← Member.exists_lastStored_iff, h.get?_table k]
  constructor
  · rintro ⟨t, ht⟩
    obtain ⟨m, hm, -⟩ := Option.bind_eq_some_iff.1 ht
    exact ⟨m, hm⟩
  · rintro ⟨m, hm⟩
    obtain ⟨t, ht⟩ := Member.exists_token?_iff.2 (Member.lastStored_eq_some hm).2.2
    exact ⟨t, Option.bind_eq_some_iff.2 ⟨m, hm, ht⟩⟩

/-- The token of a key is of the file that was the last to store the key. -/
theorem source_table (h : l.Accounted fs directory s) (k : String) :
    (l.table.get? k).bind Token.source =
      (Member.lastStored s.flag.text l.members k).map fun m => m.file.name := by
  rw [h.get?_table k]
  cases hm : Member.lastStored s.flag.text l.members k with
  | none => rfl
  | some m =>
    obtain ⟨t, ht⟩ := Member.exists_token?_iff.2 (Member.lastStored_eq_some hm).2.2
    rw [Option.bind_some, ht, Option.bind_some, Member.source_of_token? ht, Option.map_some]

/-- The value of a token is what is read in one of the members that are stored under its key. -/
theorem exists_read_of_get? {t : Token} (h : l.Accounted fs directory s)
    (ht : l.table.get? k = some t) :
    ∃ m ∈ l.members, m.key = k ∧ m.read s.flag.text = .ok (some t.value) := by
  rw [h.get?_table k] at ht
  obtain ⟨m, hm, ht⟩ := Option.bind_eq_some_iff.1 ht
  obtain ⟨hmem, hkey, -⟩ := Member.lastStored_eq_some hm
  exact ⟨m, hmem, hkey, Member.read_of_token? ht⟩

/-- The keys of the diagnostics of a directory are those of its rejected members. -/
theorem mem_diagnostics_iff (h : l.Accounted fs directory s) :
    k ∈ l.diagnostics.map Diagnostic.key ↔
      ∃ m ∈ l.members, m.key = k ∧ m.Rejected s.flag.text := by
  rw [h.diagnostics_eq, List.mem_map]
  constructor
  · rintro ⟨d, hd, rfl⟩
    obtain ⟨m, hm, hd⟩ := List.mem_filterMap.1 hd
    exact ⟨m, hm, (Member.key_of_diagnostic? hd).symm, Member.exists_diagnostic?_iff.1 ⟨d, hd⟩⟩
  · rintro ⟨m, hm, rfl, hrejected⟩
    obtain ⟨d, hd⟩ := Member.exists_diagnostic?_iff.2 hrejected
    exact ⟨d, List.mem_filterMap.2 ⟨m, hm, hd⟩, Member.key_of_diagnostic? hd⟩

end Loaded.Accounted

namespace Loaded

variable {l : Loaded} {t : Token}

/-- The value of a scheduled token is read in a member of the directory. -/
theorem exists_read_of_mem_sorted (h : load fs directory s = .ok l) (ht : t ∈ l.table.sorted) :
    ∃ m ∈ l.members, m.key = t.key ∧ m.read s.flag.text = .ok (some t.value) :=
  (accounted_load h).exists_read_of_get? (TokenTable.get?_of_mem_sorted ht)

theorem isRead_of_mem_sorted (h : load fs directory s = .ok l) (ht : t ∈ l.table.sorted) :
    t.value.IsRead := by
  obtain ⟨m, -, -, hread⟩ := exists_read_of_mem_sorted h ht
  exact ⟨_, _, _, _, hread⟩

/-- The value of a scheduled token is one that an entry may have. -/
theorem isValue_of_mem_sorted (h : load fs directory s = .ok l) (ht : t ∈ l.table.sorted) :
    t.value.IsValue s.flag.text := by
  obtain ⟨m, -, -, hread⟩ := exists_read_of_mem_sorted h ht
  exact Category.isValue_of_read hread

end Loaded

/-! ## Declared and skipped keys -/

/-- The declared keys are those of the schedule. -/
theorem map_key_tokens (h : compile fs directory s time = .ok c) :
    c.tokens.map Token.key = c.loaded.table.graph.schedule.order := by
  rw [tokens_of_compile h, TokenTable.map_key_sorted]

/-- **The declared keys are the stored ones that are not broken.** -/
theorem mem_tokens_iff (h : compile fs directory s time = .ok c) :
    k ∈ c.tokens.map Token.key ↔
      (∃ m ∈ c.loaded.members, m.key = k ∧ m.Stored s.flag.text) ∧
        ¬ c.loaded.table.graph.Broken k := by
  rw [map_key_tokens h, Graph.mem_order_schedule_iff, TokenTable.keys_graph,
    (Loaded.accounted_load (load_of_compile h)).mem_keys_table_iff]

/-- **The skipped keys are the stored ones that are broken.** -/
theorem mem_skipped_iff (h : compile fs directory s time = .ok c) :
    k ∈ c.schedule.skipped.keys ↔
      (∃ m ∈ c.loaded.members, m.key = k ∧ m.Stored s.flag.text) ∧
        c.loaded.table.graph.Broken k := by
  rw [schedule_of_compile h, Graph.mem_skipped_schedule_iff, TokenTable.keys_graph,
    (Loaded.accounted_load (load_of_compile h)).mem_keys_table_iff]

/-- A diagnostic is about a key of a rejected member or about a skipped key. -/
theorem mem_dropped_iff (h : compile fs directory s time = .ok c) :
    k ∈ c.dropped ↔ (∃ m ∈ c.loaded.members, m.key = k ∧ m.Rejected s.flag.text) ∨
      k ∈ c.schedule.skipped.keys := by
  have hskips : (c.schedule.skipped.entries.map fun e =>
      skipDiagnostic c.loaded.table e.1 e.2).map Diagnostic.key = c.schedule.skipped.keys := by
    rw [List.map_map]
    rfl
  rw [Compiled.dropped, Compiled.diagnostics, List.map_append, List.mem_append, hskips,
    (Loaded.accounted_load (load_of_compile h)).mem_diagnostics_iff]

/-! ## A directory with every outcome -/

/-- A palette of a colour and of a placeholder for one that is not there. -/
def smallPalette : PlannedFile :=
  { name := "palette.json", category := .color
    entries := [("a", .object [("value", .string "rgb(1,2,3)")]),
      ("b", .object [("value", .string "\x7bx\x7d")])] }

/-- A file that gives the colour again, by a word. -/
def smallAliases : PlannedFile :=
  { name := "aliases.json", category := .color
    entries := [("a", .object [("value", .string "red")])] }

/-- Typography that tells neither a font nor a metric. -/
def smallFonts : PlannedFile :=
  { name := "fonts.json", category := .font
    entries := [("sans", .object [("value", .string "x")])] }

/-- A directory that holds these three files. -/
def smallFiles : Files :=
  .ofList
    [(⟨.here, ["tokens", "palette.json"]⟩, .file ("\x7b\"a\": \x7b\"value\": \"rgb(1,2,3)\"\x7d, "
        ++ "\"b\": \x7b\"value\": \"\x7bx\x7d\"\x7d\x7d").toUTF8.toList),
     (⟨.here, ["tokens", "aliases.json"]⟩,
        .file "\x7b\"a\": \x7b\"value\": \"red\"\x7d\x7d".toUTF8.toList),
     (⟨.here, ["tokens", "fonts.json"]⟩,
        .file "\x7b\"sans\": \x7b\"value\": \"x\"\x7d\x7d".toUTF8.toList)]

/-- Settings for the three files. -/
def smallSettings : Settings :=
  { Settings.standard with
    colorFiles := ["palette.json", "aliases.json"], layoutFiles := [],
    typographyFiles := ["fonts.json"] }

theorem readPlan_smallFiles :
    readPlan smallFiles ⟨.here, ["tokens"]⟩ smallSettings.plan =
      .ok [smallPalette, smallAliases, smallFonts] := by
  cbv

/-- The tokens of the palette. -/
def smallTokens : List Token :=
  [{ key := "a", value := .color "#010203", category := .color,
     raw := .object [("value", .string "rgb(1,2,3)")], source := some "palette.json",
     dependencies := [] },
   { key := "b", value := .reference "x", category := .color,
     raw := .object [("value", .string "\x7bx\x7d")], source := some "palette.json",
     dependencies := ["x"] }]

/-- The diagnostic of the word. -/
def redDiagnostic : Diagnostic :=
  ⟨"a", (Rejection.color (.string "red")).message, some "aliases.json"⟩

theorem walk_smallPalette :
    smallPalette.walk "darkmode" = ⟨smallTokens.map .stored, none⟩ := by cbv

theorem walk_smallAliases : smallAliases.walk "darkmode" = ⟨[.dropped redDiagnostic], none⟩ := by
  have hread : smallAliases.category.read "darkmode" "a" (.object [("value", .string "red")]) =
      .error (.rejected (.color (.string "red"))) := by cbv
  refine PlannedFile.walk_singleton rfl ?_
  rw [PlannedFile.occurrence, hread]
  rfl

theorem walk_smallFonts : smallFonts.walk "darkmode" = ⟨[.ignored "sans"], none⟩ := by
  have hmetric : Font.isMetric "sans" = false := by decide
  have hread : smallFonts.category.read "darkmode" "sans" (.object [("value", .string "x")]) =
      .ok none := by
    change Font.ofEntry? "sans" (.object [("value", .string "x")]) = .ok none
    simp only [Font.ofEntry?, hmetric]
    rfl
  refine PlannedFile.walk_singleton rfl ?_
  rw [PlannedFile.occurrence, hread]

/-- What the directory is loaded as. -/
def smallLoaded : Loaded :=
  ⟨[smallPalette, smallAliases, smallFonts],
    smallTokens.map .stored ++ [.dropped redDiagnostic, .ignored "sans"]⟩

theorem load_smallFiles : load smallFiles ⟨.here, ["tokens"]⟩ smallSettings = .ok smallLoaded := by
  refine load_eq_ok_iff.2 ⟨readPlan_smallFiles, ?_⟩
  have hwalk : walkFiles smallSettings.flag.text smallLoaded.files =
      ⟨smallLoaded.occurrences, none⟩ := by
    change walkFiles "darkmode" [smallPalette, smallAliases, smallFonts] = _
    simp only [walkFiles, walk_smallPalette, walk_smallAliases, walk_smallFonts]
    rfl
  rw [hwalk]
  exact ⟨rfl, rfl⟩

theorem schedule_smallLoaded :
    smallLoaded.table.graph.schedule.order = ["a"] ∧
      smallLoaded.table.graph.schedule.skipped.entries = [("b", "x")] := by
  have htable : smallLoaded.table = .ofList smallTokens := rfl
  have h : ((TokenTable.ofList smallTokens).graph.schedule.order,
      (TokenTable.ofList smallTokens).graph.schedule.skipped.entries) =
      (["a"], [("b", "x")]) := by cbv
  rw [htable]
  exact Prod.mk.inj h

theorem compile_smallFiles :
    ∃ output, compile smallFiles ⟨.here, ["tokens"]⟩ smallSettings ⟨2025, 1, 2, 3, 4, 5⟩ =
      .ok ⟨smallLoaded, smallLoaded.table.graph.schedule, output⟩ := by
  obtain ⟨output, hemit⟩ := emit_tcl smallSettings.ns.text smallSettings.generator.text
    ⟨2025, 1, 2, 3, 4, 5⟩ smallLoaded.table.sorted
  exact ⟨output, compile_eq_ok_iff.2 ⟨smallLoaded, output, load_smallFiles, hemit, rfl⟩⟩

/-! ## The account of a compilation -/

/-- **Nothing that was read is lost.**  The directory is accounted for, and only typography ignores
a member.  The declared and the skipped keys together are the stored ones, and no key is both.  The
diagnostics are those of the rejected members, and after them one for each skipped key, which names
the file of the last member that is stored under the key.  So a key that is neither declared nor
told of is one that typography ignores wherever it stands. -/
theorem compile_accounted (h : compile fs directory s time = .ok c) :
    c.loaded.Accounted fs directory s ∧
      c.keysRead = (c.loaded.files.flatMap PlannedFile.entries).length ∧
      (∀ m ∈ c.loaded.members, m.Ignored s.flag.text → m.file.category = .font) ∧
      (c.tokens.map Token.key).Nodup ∧
      (∀ k, (∃ m ∈ c.loaded.members, m.key = k ∧ m.Stored s.flag.text) ↔
        k ∈ c.tokens.map Token.key ∨ k ∈ c.schedule.skipped.keys) ∧
      (∀ k, k ∈ c.tokens.map Token.key → k ∉ c.schedule.skipped.keys) ∧
      c.diagnostics = c.loaded.members.filterMap (Member.diagnostic? s.flag.text) ++
        c.schedule.skipped.entries.map (fun e => ⟨e.1, skipMessage e.1 e.2,
          (Member.lastStored s.flag.text c.loaded.members e.1).map fun m => m.file.name⟩) ∧
      ∀ m ∈ c.loaded.members, m.key ∉ c.tokens.map Token.key → m.key ∉ c.dropped →
        ∀ m' ∈ c.loaded.members, m'.key = m.key →
          m'.Ignored s.flag.text ∧ m'.file.category = .font := by
  have haccounted := Loaded.accounted_load (load_of_compile h)
  have hstored : ∀ k, (∃ m ∈ c.loaded.members, m.key = k ∧ m.Stored s.flag.text) ↔
      k ∈ c.tokens.map Token.key ∨ k ∈ c.schedule.skipped.keys := by
    intro k
    rw [mem_tokens_iff h, mem_skipped_iff h, ← and_or_left, or_comm, and_iff_left (em _)]
  refine ⟨haccounted, haccounted.keysRead_eq, fun m _ hm => hm.category_eq, ?_, hstored,
    fun k hk hs => ?_, ?_, fun m _ hnot hundropped m' hm' hkey => ?_⟩
  · rw [map_key_tokens h]
    exact TokenTable.nodup_order _
  · exact ((mem_tokens_iff h).1 hk).2 ((mem_skipped_iff h).1 hs).2
  · rw [Compiled.diagnostics, haccounted.diagnostics_eq]
    congr 1
    refine List.map_congr_left fun e _ => ?_
    rw [skipDiagnostic, haccounted.source_table]
  · rcases haccounted.hasOneOutcome m' hm' with ⟨hrejected, -, -⟩ | ⟨-, hignored, -⟩ | ⟨-, -, hs⟩
    · exact absurd ((mem_dropped_iff h).2 (Or.inl ⟨m', hm', hkey, hrejected⟩)) hundropped
    · exact ⟨hignored, hignored.category_eq⟩
    · rcases (hstored m.key).1 ⟨m', hm', hkey, hs⟩ with hdeclared | hskipped
      · exact absurd hdeclared hnot
      · exact absurd ((mem_dropped_iff h).2 (Or.inr hskipped)) hundropped

/-- Four members: `a` and `b` are stored, `a` is rejected in the second file and `sans` is ignored;
`b` is skipped, for the sake of a name that is no key. -/
theorem compile_accounted_small :
    ∃ c, compile smallFiles ⟨.here, ["tokens"]⟩ smallSettings ⟨2025, 1, 2, 3, 4, 5⟩ = .ok c ∧
      c.loaded.Accounted smallFiles ⟨.here, ["tokens"]⟩ smallSettings ∧ c.keysRead = 4 ∧
      c.tokens.map Token.key = ["a"] ∧ c.schedule.skipped.keys = ["b"] ∧
      c.diagnostics = [redDiagnostic, ⟨"b", skipMessage "b" "x", some "palette.json"⟩] ∧
      ∀ k, (∃ m ∈ c.loaded.members, m.key = k ∧ m.Stored "darkmode") ↔ k ∈ ["a"] ∨ k ∈ ["b"] := by
  obtain ⟨output, hcompile⟩ := compile_smallFiles
  obtain ⟨haccounted, hkeysRead, -, -, hstored, -, hdiagnostics, -⟩ := compile_accounted hcompile
  obtain ⟨horder, hskipped⟩ := schedule_smallLoaded
  have hdeclared := map_key_tokens hcompile
  rw [horder] at hdeclared
  have hkeys : smallLoaded.table.graph.schedule.skipped.keys = ["b"] := by
    rw [OrderedMap.keys, hskipped]
    rfl
  have hsource : (smallLoaded.table.get? "b").bind Token.source = some "palette.json" := rfl
  refine ⟨_, hcompile, haccounted, hkeysRead, hdeclared, hkeys, ?_, fun k => ?_⟩
  · rw [hdiagnostics, ← haccounted.diagnostics_eq, hskipped, List.map_singleton,
      ← haccounted.source_table, hsource]
    rfl
  · rw [← hkeys, ← hdeclared]
    exact hstored k

/-! ## Keys in several files -/

namespace PlannedFile

/-- A member of the file that has a given key is rejected. -/
def Rejects (flag : String) (file : PlannedFile) (key : String) : Prop :=
  ∃ m ∈ file.members, m.key = key ∧ m.Rejected flag

/-- A member of the file that has a given key is stored. -/
def Stores (flag : String) (file : PlannedFile) (key : String) : Prop :=
  ∃ m ∈ file.members, m.key = key ∧ m.Stored flag

/-- **A file in which no key comes twice does not both reject and store a key.** -/
theorem Rejects.not_stores {file : PlannedFile} (hnodup : (file.members.map Member.key).Nodup)
    (hrejects : file.Rejects flag k) : ¬ file.Stores flag k := by
  rintro ⟨m', hm', hkey', hstored⟩
  obtain ⟨m, hm, hkey, hrejected⟩ := hrejects
  obtain rfl : m = m' := List.inj_on_of_nodup_map hnodup hm hm' (hkey.trans hkey'.symm)
  exact hstored.not_rejected hrejected

end PlannedFile

namespace Loaded

variable {l : Loaded}

theorem Accounted.nodup_key_members (h : l.Accounted fs directory s) {file : PlannedFile}
    (hfile : file ∈ l.files) : (file.members.map Member.key).Nodup := by
  obtain ⟨p, -, -, -, hread⟩ := exists_of_forall₂ h.planned.flip hfile
  have hperm := (h.perm_members file hfile).map Prod.fst
  rw [List.map_map] at hperm
  exact hperm.nodup_iff.2 (TokenFile.nodup_read hread)

/-- A member of a directory is one of the file at some place of the plan. -/
theorem exists_file_of_mem_members {m : Member} (h : m ∈ l.members) :
    ∃ (i : Nat) (file : PlannedFile), l.files[i]? = some file ∧ m ∈ file.members := by
  obtain ⟨file, hfile, hm⟩ := List.mem_flatMap.1 h
  obtain ⟨i, hi⟩ := List.mem_iff_getElem?.1 hfile
  exact ⟨i, file, hi, hm⟩

end Loaded

/-- **A key that a diagnostic is about is declared all the same** exactly where one planned file
rejects it, another one stores it, and what is stored leads to no missing name. -/
theorem declared_iff_of_dropped (h : compile fs directory s time = .ok c) (hk : k ∈ c.dropped) :
    k ∈ c.tokens.map Token.key ↔
      (∃ (i j : Nat) (f g : PlannedFile), i ≠ j ∧ c.loaded.files[i]? = some f ∧
        c.loaded.files[j]? = some g ∧ f.Rejects s.flag.text k ∧ g.Stores s.flag.text k) ∧
        ¬ c.loaded.table.graph.Broken k := by
  have haccounted := Loaded.accounted_load (load_of_compile h)
  rw [mem_tokens_iff h]
  constructor
  · rintro ⟨⟨m', hm', hkey', hstored⟩, hbroken⟩
    rcases (mem_dropped_iff h).1 hk with ⟨m, hm, hkey, hrejected⟩ | hskipped
    · obtain ⟨i, f, hi, hmf⟩ := Loaded.exists_file_of_mem_members hm
      obtain ⟨j, g, hj, hmg⟩ := Loaded.exists_file_of_mem_members hm'
      have hrejects : f.Rejects s.flag.text k := ⟨m, hmf, hkey, hrejected⟩
      have hstores : g.Stores s.flag.text k := ⟨m', hmg, hkey', hstored⟩
      refine ⟨⟨i, j, f, g, fun hij => ?_, hi, hj, hrejects, hstores⟩, hbroken⟩
      obtain rfl : f = g := Option.some.inj (hi.symm.trans (hij ▸ hj))
      exact hrejects.not_stores (haccounted.nodup_key_members (List.mem_of_getElem? hi)) hstores
    · exact absurd ((mem_skipped_iff h).1 hskipped).2 hbroken
  · rintro ⟨⟨i, j, f, g, -, -, hj, -, m', hm', hkey', hstored⟩, hbroken⟩
    have hmember : m' ∈ c.loaded.members :=
      List.mem_flatMap.2 ⟨g, List.mem_of_getElem? hj, hm'⟩
    exact ⟨⟨m', hmember, hkey', hstored⟩, hbroken⟩

/-- The colour of the palette is declared, though there is a diagnostic about its key: the second
file has the key, too, with a word for a value. -/
theorem declared_iff_of_dropped_small :
    ∃ c, compile smallFiles ⟨.here, ["tokens"]⟩ smallSettings ⟨2025, 1, 2, 3, 4, 5⟩ = .ok c ∧
      "a" ∈ c.dropped ∧ "a" ∈ c.tokens.map Token.key ∧
      ∃ (i j : Nat) (f g : PlannedFile), i ≠ j ∧ c.loaded.files[i]? = some f ∧
        c.loaded.files[j]? = some g ∧ f.Rejects "darkmode" "a" ∧ g.Stores "darkmode" "a" := by
  obtain ⟨output, hcompile⟩ := compile_smallFiles
  have hdropped : "a" ∈ Compiled.dropped
      ⟨smallLoaded, smallLoaded.table.graph.schedule, output⟩ :=
    List.mem_map_of_mem (List.mem_append_left _ List.mem_cons_self)
  have hdeclared := map_key_tokens hcompile
  rw [schedule_smallLoaded.1] at hdeclared
  have ha : "a" ∈ (Compiled.tokens
      ⟨smallLoaded, smallLoaded.table.graph.schedule, output⟩).map Token.key :=
    hdeclared ▸ List.mem_cons_self
  exact ⟨_, hcompile, hdropped, ha, ((declared_iff_of_dropped hcompile hdropped).1 ha).1⟩

end DesignTokens
