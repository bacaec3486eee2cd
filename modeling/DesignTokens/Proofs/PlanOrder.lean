import DesignTokens.Proofs.Success

/-!
# Proofs/PlanOrder — the order in which files are planned

Where the planned files have no key in common, the order in which they are named does not matter for
what is declared and what is told of.  The last member that is stored under a key is then one of a
**greatest category** among those stored under it, and that is said without an order; so the table
gives the same token for each key.  Which keys are broken depends on no more than this, though the
walk that finds them may take another way and blame another dependency.

* `Member.lastStored_perm` — the last stored member of members in another order.
* `Loaded.Reordered.get?_table_eq` — the tokens of a directory whose files are planned in another
  order.
* `compile_reordered` — the same for its compilation.
-/

namespace DesignTokens

variable {flag k : String}

/-! ## Schedules -/

/-- **Graphs that give the same for each name list the same keys and skip the same keys.** -/
theorem Graph.perm_schedule {g g' : Graph} (h : ∀ k, g.get? k = g'.get? k) :
    g.schedule.order.Perm g'.schedule.order ∧
      g.schedule.skipped.keys.Perm g'.schedule.skipped.keys := by
  constructor
  · refine (List.perm_ext_iff_of_nodup g.nodup_order_schedule
      g'.nodup_order_schedule).2 fun k => ?_
    rw [mem_order_schedule_iff, mem_order_schedule_iff, mem_keys_congr h, broken_congr h]
  · refine (List.perm_ext_iff_of_nodup g.schedule.skipped.nodup_keys
      g'.schedule.skipped.nodup_keys).2 fun k => ?_
    change k ∈ g.schedule.skipped.keys ↔ k ∈ g'.schedule.skipped.keys
    rw [mem_skipped_schedule_iff, mem_skipped_schedule_iff, mem_keys_congr h, broken_congr h]

namespace TokenTable

variable {t t' : TokenTable}

theorem get?_graph_congr (h : ∀ k, t.get? k = t'.get? k) (k : String) :
    t.graph.get? k = t'.graph.get? k := by
  have hk : t.byKey.get? k = t'.byKey.get? k := h k
  rw [graph, graph, OrderedMap.get?_mapValues, OrderedMap.get?_mapValues, hk]

/-- Tables that give the same token for each key have the same tokens scheduled. -/
theorem perm_sorted (h : ∀ k, t.get? k = t'.get? k) : t.sorted.Perm t'.sorted := by
  have hget : t.get? = t'.get? := funext h
  rw [sorted, sorted, hget]
  exact (Graph.perm_schedule (get?_graph_congr h)).1.filterMap _

end TokenTable

/-! ## The last stored member -/

/-- The place of a category in a plan. -/
def Category.place : Category → Nat
  | .color => 0
  | .layout => 1
  | .font => 2

theorem Category.eq_of_place_eq {a b : Category} (h : a.place = b.place) : a = b := by
  cases a <;> cases b <;> first | rfl | cases h

/-- The files of a plan come category by category. -/
theorem Settings.pairwise_plan (s : Settings) :
    s.plan.Pairwise fun p q => p.2.place ≤ q.2.place := by
  simp [plan, List.pairwise_append, List.pairwise_map, List.pairwise_of_forall, Category.place]

namespace Member

variable {m : Member} {members members' : List Member}

/-- The place of the category of the file that has the member. -/
def place (m : Member) : Nat := m.file.category.place

/-- Members that come category by category, where those of one category have keys of their own. -/
structure Layered (members : List Member) : Prop where
  sorted : members.Pairwise fun m m' => m.place ≤ m'.place
  eq_of_key_eq : ∀ m ∈ members, ∀ m' ∈ members, m.key = m'.key → m.place = m'.place → m = m'

/-- No member that is stored under a key has a greater category than the last one. -/
theorem place_le_of_lastStored {m' : Member}
    (hsorted : members.Pairwise fun m m' => m.place ≤ m'.place)
    (h : lastStored flag members k = some m) (hm' : m' ∈ members) (hkey : m'.key = k)
    (hstored : m'.Stored flag) : m'.place ≤ m.place := by
  obtain ⟨-, after, before, hmembers, hafter⟩ := List.find?_eq_some_iff_append.1 h
  obtain ⟨t, ht⟩ := exists_token?_iff.2 hstored
  -- What stands behind the last one is not stored under the key, and the rest is no later in the
  -- plan.
  have hnot : m' ∉ after := by
    intro hmem
    have hfalse := hafter m' hmem
    rw [ht, Option.any_some, (key_of_token? ht).trans hkey, beq_self_eq_true] at hfalse
    cases hfalse
  rw [← List.pairwise_reverse, hmembers, List.pairwise_append, List.pairwise_cons] at hsorted
  rw [← List.mem_reverse, hmembers, List.mem_append, List.mem_cons] at hm'
  rcases hm'.resolve_left hnot with rfl | hbefore
  · exact Nat.le_refl _
  · exact hsorted.2.1.1 m' hbefore

/-- **The last member that is stored under a key, without an order**: it is stored under the key,
and no member that is stored there has a greater category. -/
theorem Layered.lastStored_eq_some_iff (h : Layered members) :
    lastStored flag members k = some m ↔ m ∈ members ∧ m.key = k ∧ m.Stored flag ∧
      ∀ m' ∈ members, m'.key = k → m'.Stored flag → m'.place ≤ m.place := by
  constructor
  · intro hm
    obtain ⟨hmem, hkey, hstored⟩ := lastStored_eq_some hm
    exact ⟨hmem, hkey, hstored, fun m' hm' hkey' hstored' =>
      place_le_of_lastStored h.sorted hm hm' hkey' hstored'⟩
  · rintro ⟨hmem, hkey, hstored, hgreatest⟩
    obtain ⟨last, hlast⟩ := exists_lastStored_iff.2 ⟨m, hmem, hkey, hstored⟩
    obtain ⟨hmem', hkey', hstored'⟩ := lastStored_eq_some hlast
    have hplace : m.place = last.place :=
      Nat.le_antisymm (place_le_of_lastStored h.sorted hlast hmem hkey hstored)
        (hgreatest last hmem' hkey' hstored')
    rw [hlast, h.eq_of_key_eq m hmem last hmem' (hkey.trans hkey'.symm) hplace]

/-- **Members in another order have the same last stored member under each key.** -/
theorem lastStored_perm (hperm : members'.Perm members) (h : Layered members)
    (hsorted : members'.Pairwise fun m m' => m.place ≤ m'.place) (k : String) :
    lastStored flag members' k = lastStored flag members k := by
  have h' : Layered members' :=
    { sorted := hsorted
      eq_of_key_eq := fun m hm m' hm' =>
        h.eq_of_key_eq m (hperm.mem_iff.1 hm) m' (hperm.mem_iff.1 hm') }
  refine Option.ext fun m => ?_
  rw [h'.lastStored_eq_some_iff, h.lastStored_eq_some_iff]
  simp only [hperm.mem_iff]

end Member

/-! ## Directories -/

namespace Loaded

variable {fs : Files} {directory : Path} {s s' : Settings} {l l' : Loaded}

/-- Different files have no key in common.  A file that is planned twice is one file. -/
def KeysDisjoint (l : Loaded) : Prop :=
  ∀ f ∈ l.files, ∀ g ∈ l.files, f.name ≠ g.name →
    (f.entries.map Prod.fst).Disjoint (g.entries.map Prod.fst)

namespace Accounted

theorem pairwise_files (h : l.Accounted fs directory s) :
    l.files.Pairwise fun f g => f.category.place ≤ g.category.place := by
  have hcategories : s.plan.map Prod.snd = l.files.map PlannedFile.category := by
    rw [← List.forall₂_eq_eq_eq, List.forall₂_map_left_iff, List.forall₂_map_right_iff]
    exact h.planned.imp fun p file hfile => hfile.2.1.symm
  have hplan : (s.plan.map Prod.snd).Pairwise fun a b => a.place ≤ b.place :=
    List.pairwise_map.2 s.pairwise_plan
  rwa [hcategories, List.pairwise_map] at hplan

/-- The members of a directory come category by category. -/
theorem pairwise_members (h : l.Accounted fs directory s) :
    l.members.Pairwise fun m m' => m.place ≤ m'.place := by
  refine List.pairwise_flatMap.2 ⟨fun file _ => ?_, h.pairwise_files.imp fun hle m hm m' hm' => ?_⟩
  · refine List.pairwise_of_forall_mem_list fun m hm m' hm' => ?_
    rw [Member.place, Member.place, PlannedFile.file_of_mem_members hm,
      PlannedFile.file_of_mem_members hm']
  · rwa [Member.place, Member.place, PlannedFile.file_of_mem_members hm,
      PlannedFile.file_of_mem_members hm']

/-- Files of one name and one category are the same. -/
theorem eq_of_name_eq (h : l.Accounted fs directory s) {f g : PlannedFile} (hf : f ∈ l.files)
    (hg : g ∈ l.files) (hname : f.name = g.name) (hcategory : f.category = g.category) : f = g := by
  obtain ⟨p, -, hp, -, hreadf⟩ := exists_of_forall₂ h.planned.flip hf
  obtain ⟨q, -, hq, -, hreadg⟩ := exists_of_forall₂ h.planned.flip hg
  rw [← hp, hname] at hreadf
  rw [← hq, hreadf] at hreadg
  obtain ⟨_, _, _⟩ := f
  obtain ⟨_, _, _⟩ := g
  cases hname
  cases hcategory
  cases hreadg
  rfl

/-- The key of a member is one of its file. -/
theorem key_mem_of_mem (h : l.Accounted fs directory s) {file : PlannedFile} {m : Member}
    (hfile : file ∈ l.files) (hm : m ∈ file.members) : m.key ∈ file.entries.map Prod.fst :=
  List.mem_map.2 ⟨(m.key, m.entry),
    (h.perm_members file hfile).mem_iff.1 (List.mem_map_of_mem hm), rfl⟩

/-- **Where the files have no key in common, the members are layered.** -/
theorem layered (h : l.Accounted fs directory s) (hdisjoint : l.KeysDisjoint) :
    Member.Layered l.members := by
  refine ⟨h.pairwise_members, fun m hm m' hm' hkey hplace => ?_⟩
  obtain ⟨f, hf, hmf⟩ := List.mem_flatMap.1 hm
  obtain ⟨g, hg, hmg⟩ := List.mem_flatMap.1 hm'
  -- A key of two files is one of a file that is planned twice, as two categories.
  have hname : f.name = g.name := by
    by_contra hne
    exact hdisjoint f hf g hg hne (h.key_mem_of_mem hf hmf) (hkey ▸ h.key_mem_of_mem hg hmg)
  rw [Member.place, Member.place, PlannedFile.file_of_mem_members hmf,
    PlannedFile.file_of_mem_members hmg] at hplace
  obtain rfl := h.eq_of_name_eq hf hg hname (Category.eq_of_place_eq hplace)
  rw [PlannedFile.eq_member_of_mem hmf, PlannedFile.eq_member_of_mem hmg, hkey]

end Accounted

/-- Two runs over a directory, whose files are planned in another order for the second one. -/
structure Reordered (fs : Files) (directory : Path) (s s' : Settings) (l l' : Loaded) : Prop where
  first : load fs directory s = .ok l
  second : load fs directory s' = .ok l'
  flag_eq : s'.flag = s.flag
  files : l'.files.Perm l.files

/-- **A directory that loads does so with its files planned in another order.** -/
theorem exists_reordered (h : load fs directory s = .ok l) (hplan : s'.plan.Perm s.plan)
    (hflag : s'.flag = s.flag) : ∃ l', Reordered fs directory s s' l l' := by
  obtain ⟨hread, hstop, -⟩ := load_eq_ok_iff.1 h
  obtain ⟨files, hread', hfiles⟩ := List.perm_comp_forall₂ hplan (forall₂_readPlan hread)
  have hstop' : (walkFiles s'.flag.text files).stop = none := by
    rw [hflag]
    exact stop_walkFiles_of_stop_walk fun file hfile =>
      stop_walk_of_stop_walkFiles hstop file (hfiles.mem_iff.1 hfile)
  exact ⟨⟨files, (walkFiles s'.flag.text files).occurrences⟩, h,
    load_eq_ok_iff.2 ⟨readPlan_of_forall₂ hread', hstop', rfl⟩, hflag, hfiles⟩

namespace Reordered

theorem perm_members (h : Reordered fs directory s s' l l') : l'.members.Perm l.members :=
  h.files.flatMap_right _

theorem keysRead_eq (h : Reordered fs directory s s' l l') : l'.keysRead = l.keysRead := by
  rw [(accounted_load h.second).keysRead_eq, (accounted_load h.first).keysRead_eq]
  exact (h.files.flatMap_right _).length_eq

theorem perm_diagnostics (h : Reordered fs directory s s' l l') :
    l'.diagnostics.Perm l.diagnostics := by
  rw [(accounted_load h.second).diagnostics_eq, (accounted_load h.first).diagnostics_eq, h.flag_eq]
  exact h.perm_members.filterMap _

/-- **Where the files have no key in common, the table gives the same token for each key.** -/
theorem get?_table_eq (h : Reordered fs directory s s' l l') (hdisjoint : l.KeysDisjoint)
    (k : String) : l'.table.get? k = l.table.get? k := by
  have haccounted := accounted_load h.first
  have haccounted' := accounted_load h.second
  rw [haccounted.get?_table, haccounted'.get?_table, h.flag_eq,
    Member.lastStored_perm h.perm_members (haccounted.layered hdisjoint)
      haccounted'.pairwise_members]

end Reordered

end Loaded

/-! ## Compilations -/

/-- The plan of the same files, each list of them in another order. -/
theorem Settings.perm_plan {s : Settings} {colors layouts fonts : List String}
    (hcolors : colors.Perm s.colorFiles) (hlayouts : layouts.Perm s.layoutFiles)
    (hfonts : fonts.Perm s.typographyFiles) :
    { s with colorFiles := colors, layoutFiles := layouts, typographyFiles := fonts }.plan.Perm
      s.plan :=
  ((hcolors.map _).append (hlayouts.map _)).append (hfonts.map _)

/-- What the diagnostics of a compilation are about: first the keys of the entries that were
dropped, then the skipped ones. -/
theorem Compiled.map_diagnostics (c : Compiled) :
    c.diagnostics.map (fun d => (d.key, d.source)) =
      c.loaded.diagnostics.map (fun d => (d.key, d.source)) ++
        c.schedule.skipped.keys.map fun k => (k, (c.loaded.table.get? k).bind Token.source) := by
  rw [diagnostics, List.map_append, List.map_map, OrderedMap.keys, List.map_map]
  rfl

variable {fs : Files} {directory : Path} {s : Settings} {time : Timestamp} {c : Compiled}

/-- **The order of the planned files does not matter where these have no key in common.**  Whatever
the order in which the files of a category are named, the compilation succeeds; the same tokens are
declared, as many keys are read, the same entries are dropped, for the same reasons, and the same
keys are skipped.  So the diagnostics are about the same keys and name the same files. -/
theorem compile_reordered {colors layouts fonts : List String}
    (h : compile fs directory s time = .ok c) (hcolors : colors.Perm s.colorFiles)
    (hlayouts : layouts.Perm s.layoutFiles) (hfonts : fonts.Perm s.typographyFiles)
    (hdisjoint : c.loaded.KeysDisjoint) (time' : Timestamp) :
    ∃ c', compile fs directory
        { s with colorFiles := colors, layoutFiles := layouts, typographyFiles := fonts } time' =
          .ok c' ∧
      c'.tokens.Perm c.tokens ∧ c'.keysRead = c.keysRead ∧
      c'.loaded.diagnostics.Perm c.loaded.diagnostics ∧
      c'.schedule.skipped.keys.Perm c.schedule.skipped.keys ∧
      (c'.diagnostics.map fun d => (d.key, d.source)).Perm
        (c.diagnostics.map fun d => (d.key, d.source)) := by
  obtain ⟨l', hreordered⟩ := Loaded.exists_reordered (load_of_compile h)
    (Settings.perm_plan hcolors hlayouts hfonts) rfl
  obtain ⟨output, hemit⟩ := exists_emit
    (fun t ht => Loaded.isRead_of_mem_sorted hreordered.second ht) s.format s.ns.text
    s.generator.text time'
  have hcompile := compile_eq_ok_iff.2 ⟨l', output, hreordered.second, hemit, rfl⟩
  have htable := hreordered.get?_table_eq hdisjoint
  have htokens : l'.table.sorted.Perm c.tokens :=
    tokens_of_compile h ▸ TokenTable.perm_sorted htable
  have hskipped : l'.table.graph.schedule.skipped.keys.Perm c.schedule.skipped.keys :=
    schedule_of_compile h ▸ (Graph.perm_schedule (TokenTable.get?_graph_congr htable)).2
  refine ⟨_, hcompile, htokens, hreordered.keysRead_eq, hreordered.perm_diagnostics, hskipped, ?_⟩
  rw [Compiled.map_diagnostics, Compiled.map_diagnostics]
  refine (hreordered.perm_diagnostics.map _).append ?_
  simp only [htable]
  exact hskipped.map _

/-! ### Two palettes in either order -/

/-- A palette whose one colour is a placeholder for one of the other palette. -/
def leftPalette : PlannedFile :=
  { name := "left.json", category := .color
    entries := [("a", .object [("value", .string "\x7bb\x7d")])] }

/-- A palette whose first colour is a placeholder in turn, and the second one for none. -/
def rightPalette : PlannedFile :=
  { name := "right.json", category := .color
    entries := [("b", .object [("value", .string "\x7ba\x7d")]),
      ("c", .object [("value", .string "\x7bx\x7d")])] }

/-- A directory that holds both palettes. -/
def twoPalettes : Files :=
  .ofList
    [(⟨.here, ["tokens", "left.json"]⟩,
        .file "\x7b\"a\": \x7b\"value\": \"\x7bb\x7d\"\x7d\x7d".toUTF8.toList),
     (⟨.here, ["tokens", "right.json"]⟩, .file ("\x7b\"b\": \x7b\"value\": \"\x7ba\x7d\"\x7d, "
        ++ "\"c\": \x7b\"value\": \"\x7bx\x7d\"\x7d\x7d").toUTF8.toList)]

/-- Settings for the two palettes in a given order. -/
def twoSettings (colors : List String) : Settings :=
  { Settings.standard with colorFiles := colors, layoutFiles := [], typographyFiles := [] }

/-- The palettes are loaded in the order in which they are named. -/
theorem load_twoPalettes :
    ∃ l, load twoPalettes ⟨.here, ["tokens"]⟩ (twoSettings ["left.json", "right.json"]) = .ok l ∧
      l.files = [leftPalette, rightPalette] ∧ l.table.sorted.map Token.key = ["b", "a"] := by
  have h : (load twoPalettes ⟨.here, ["tokens"]⟩ (twoSettings ["left.json", "right.json"])).map
      (fun l => (l.files, l.table.sorted.map Token.key)) =
      .ok ([leftPalette, rightPalette], ["b", "a"]) := by
    cbv
  obtain ⟨l, hload, hl⟩ := map_eq_ok h
  exact ⟨l, hload, Prod.mk.inj hl⟩

theorem sorted_twoPalettes {l : Loaded}
    (h : load twoPalettes ⟨.here, ["tokens"]⟩ (twoSettings ["right.json", "left.json"]) = .ok l) :
    l.table.sorted.map Token.key = ["a", "b"] := by
  have hsorted :
      (load twoPalettes ⟨.here, ["tokens"]⟩ (twoSettings ["right.json", "left.json"])).map
        (fun l => l.table.sorted.map Token.key) = .ok ["a", "b"] := by
    cbv
  rw [h] at hsorted
  exact Except.ok.inj hsorted

/-- The two colours that are placeholders for each other are declared in another order. -/
theorem compile_reordered_palettes :
    ∃ c c', compile twoPalettes ⟨.here, ["tokens"]⟩ (twoSettings ["left.json", "right.json"])
        ⟨2025, 1, 2, 3, 4, 5⟩ = .ok c ∧
      compile twoPalettes ⟨.here, ["tokens"]⟩ (twoSettings ["right.json", "left.json"])
        ⟨2025, 1, 2, 3, 4, 5⟩ = .ok c' ∧
      ["right.json", "left.json"].Perm ["left.json", "right.json"] ∧ c.loaded.KeysDisjoint ∧
      c.tokens.map Token.key = ["b", "a"] ∧ c'.tokens.map Token.key = ["a", "b"] ∧
      c'.tokens.Perm c.tokens ∧ c'.keysRead = c.keysRead ∧
      (c'.diagnostics.map fun d => (d.key, d.source)).Perm
        (c.diagnostics.map fun d => (d.key, d.source)) := by
  obtain ⟨l, hload, hfiles, hsorted⟩ := load_twoPalettes
  have hdisjoint : l.KeysDisjoint := by
    unfold Loaded.KeysDisjoint
    rw [hfiles]
    intro f hf g hg hne
    fin_cases hf <;> fin_cases hg <;>
      first | exact absurd rfl hne | exact List.disjoint_left.2 (by decide)
  obtain ⟨output, hemit⟩ := emit_tcl (twoSettings ["left.json", "right.json"]).ns.text
    (twoSettings ["left.json", "right.json"]).generator.text ⟨2025, 1, 2, 3, 4, 5⟩ l.table.sorted
  have hcompile := compile_eq_ok_iff.2 ⟨l, output, hload, hemit, rfl⟩
  have hperm : ["right.json", "left.json"].Perm ["left.json", "right.json"] := .swap _ _ _
  obtain ⟨c', hcompile', htokens, hkeysRead, -, -, hdiagnostics⟩ :=
    compile_reordered hcompile hperm (.refl []) (.refl []) hdisjoint ⟨2025, 1, 2, 3, 4, 5⟩
  refine ⟨_, c', hcompile, hcompile', hperm, hdisjoint, hsorted, ?_, htokens, hkeysRead,
    hdiagnostics⟩
  rw [tokens_of_compile hcompile']
  exact sorted_twoPalettes (load_of_compile hcompile')

end DesignTokens
