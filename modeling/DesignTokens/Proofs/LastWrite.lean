import DesignTokens.Proofs.Account
import Mathlib

/-!
# Proofs/LastWrite — what going through the members leaves in the table

The table of a directory is filled member by member: a stored one is added, and any other leaves the
table as it is.  So a key stands where it was stored **first**, with the token that was stored under
it **last**.

* `TokenTable.keys_ofList` — the keys in the order in which they were first added.
* `TokenTable.get?_ofMembers` — the member that decides what is there for a key.
* `table_of_load` — both for a directory, and that what is not stored leaves no trace.
-/

namespace DesignTokens

variable {flag k : String} {m : Member} {members before after : List Member}

namespace TokenTable

variable {t : TokenTable} {token : Token}

/-! ## Keys -/

theorem keys_add_of_mem (h : token.key ∈ t.keys) : (t.add token).keys = t.keys :=
  OrderedMap.keys_insert_of_mem token h

theorem keys_add_of_not_mem (h : token.key ∉ t.keys) : (t.add token).keys = t.keys ++ [token.key] :=
  OrderedMap.keys_insert_of_not_mem token h

/-- **The keys stand in the order in which they were first added.**  The induction is from the end
of the list: the token that is added last is the only one that may bring a new key. -/
theorem keys_ofList (tokens : List Token) :
    (ofList tokens).keys = (tokens.map Token.key).eraseDups := by
  induction tokens using List.reverseRecOn with
  | nil => rfl
  | append_singleton tokens token ih =>
    have hlast : ofList (tokens ++ [token]) = (ofList tokens).add token := by
      rw [ofList, List.foldl_append]
      rfl
    have hmem : token.key ∈ (ofList tokens).keys ↔ token.key ∈ tokens.map Token.key := by
      rw [ih, List.mem_eraseDups]
    rw [hlast, List.map_append, List.map_singleton, List.eraseDups_append, ← ih]
    by_cases hk : token.key ∈ tokens.map Token.key
    · rw [keys_add_of_mem (hmem.2 hk)]
      simp [List.removeAll, hk, -List.mem_map]
    · rw [keys_add_of_not_mem (mt hmem.1 hk)]
      simp [List.removeAll, List.eraseDups_cons, hk, -List.mem_map]

/-- The tokens stand in the order of the keys. -/
theorem map_key_tokens (t : TokenTable) : t.tokens.map Token.key = t.keys := by
  rw [tokens, OrderedMap.values, keys, OrderedMap.keys, List.map_map]
  exact List.map_congr_left fun e he => t.key_eq e he

/-! ## Member by member -/

/-- The table after a member was gone through. -/
def absorb (flag : String) (t : TokenTable) (m : Member) : TokenTable :=
  match m.token? flag with
  | some token => t.add token
  | none => t

/-- The table after some members were gone through. -/
def ofMembers (flag : String) (members : List Member) : TokenTable :=
  members.foldl (absorb flag) empty

theorem ofMembers_eq (flag : String) (members : List Member) :
    ofMembers flag members = ofList (members.filterMap (Member.token? flag)) := by
  rw [ofMembers, ofList, List.foldl_filterMap]
  congr 1
  funext t m
  rw [absorb]
  cases m.token? flag <;> rfl

theorem absorb_of_stored (h : m.token? flag = some token) : t.absorb flag m = t.add token := by
  rw [absorb, h]

/-- **A member that is not stored leaves the table as it is.** -/
theorem absorb_of_not_stored (h : ¬ m.Stored flag) : t.absorb flag m = t := by
  rw [← Member.exists_token?_iff, not_exists, ← Option.eq_none_iff_forall_ne_some] at h
  rw [absorb, h]

/-- A member leaves the token of a key as it is, unless it is stored under the key. -/
theorem get?_absorb (h : m.key = k → ¬ m.Stored flag) : (t.absorb flag m).get? k = t.get? k := by
  by_cases hstored : m.Stored flag
  · obtain ⟨token, htoken⟩ := Member.exists_token?_iff.2 hstored
    have hne : k ≠ token.key := fun he =>
      h ((Member.key_of_token? htoken).symm.trans he.symm) hstored
    rw [absorb_of_stored htoken, get?_add, if_neg hne]
  · rw [absorb_of_not_stored hstored]

/-- Members leave the token of a key as it is, if none of them is stored under the key. -/
theorem get?_foldl_absorb (h : ∀ m ∈ members, m.key = k → ¬ m.Stored flag) (t : TokenTable) :
    (members.foldl (absorb flag) t).get? k = t.get? k := by
  induction members generalizing t with
  | nil => rfl
  | cons m members ih =>
    rw [List.foldl_cons, ih fun m' hm' => h m' (List.mem_cons_of_mem m hm')]
    exact get?_absorb (h m List.mem_cons_self)

theorem ofMembers_append (flag : String) (before after : List Member) :
    ofMembers flag (before ++ after) = after.foldl (absorb flag) (ofMembers flag before) :=
  List.foldl_append

/-- **The last member that is stored under a key decides what is there.** -/
theorem get?_ofMembers (h : m.token? flag = some token)
    (hlast : ∀ m' ∈ after, m'.key = m.key → ¬ m'.Stored flag) :
    (ofMembers flag (before ++ m :: after)).get? m.key = some token := by
  rw [ofMembers_append, List.foldl_cons, get?_foldl_absorb hlast, absorb_of_stored h, get?_add,
    if_pos (Member.key_of_token? h).symm]

/-- **A member that is not stored leaves no trace** among those before and after it. -/
theorem ofMembers_of_not_stored (h : ¬ m.Stored flag) :
    ofMembers flag (before ++ m :: after) = ofMembers flag (before ++ after) := by
  rw [ofMembers_append, ofMembers_append, List.foldl_cons, absorb_of_not_stored h]

end TokenTable

/-! ## Directories -/

variable {fs : Files} {directory : Path} {s : Settings} {l : Loaded}

/-- **The table of a directory is what going through its members leaves.** -/
theorem Loaded.table_eq (h : load fs directory s = .ok l) :
    l.table = .ofMembers s.flag.text l.members := by
  rw [Loaded.table, Loaded.tokens_load h, TokenTable.ofMembers_eq]

/-- **The first write decides the place, the last one the token.**  The members are those of the
planned files in the order of the plan, and of each file in the order of its sorted keys; going
through them makes the table.  Keys, tokens and graph are in the order in which the keys are first
stored; a key has the token of the last member that is stored under it; and a member that is not
stored changes nothing, neither when its turn comes nor in the end. -/
theorem table_of_load (h : load fs directory s = .ok l) :
    List.Forall₂ (fun p file => file.name = p.1 ∧ file.category = p.2 ∧
        TokenFile.read fs (directory.join (.ofText p.1)) = .ok file.entries) s.plan l.files ∧
      (∀ file ∈ l.files, ∃ keys, Key.sort (file.entries.map Prod.fst) = .ok keys ∧
        file.members = keys.map file.member) ∧
      l.table = .ofMembers s.flag.text l.members ∧
      l.table.keys =
        ((l.members.filterMap (Member.token? s.flag.text)).map Token.key).eraseDups ∧
      l.table.tokens.map Token.key = l.table.keys ∧ l.table.graph.keys = l.table.keys ∧
      (∀ before m after value, l.members = before ++ m :: after →
        m.read s.flag.text = .ok (some value) →
        (∀ m' ∈ after, m'.key = m.key → ¬ m'.Stored s.flag.text) →
        l.table.get? m.key = some
          { key := m.key, value, category := m.file.category, raw := m.entry,
            source := some m.file.name, dependencies := value.dependencies s.flag.text }) ∧
      ∀ before m after, l.members = before ++ m :: after → ¬ m.Stored s.flag.text →
        TokenTable.ofMembers s.flag.text (before ++ [m]) = .ofMembers s.flag.text before ∧
          l.table = .ofMembers s.flag.text (before ++ after) := by
  have htable := Loaded.table_eq h
  obtain ⟨hfiles, hnone, -⟩ := load_eq_ok_iff.1 h
  refine ⟨Loaded.forall₂_readPlan hfiles, fun file hfile => ?_, htable, ?_, l.table.map_key_tokens,
    l.table.keys_graph, fun before m after value hmembers hread hlast => ?_,
    fun before m after hmembers hnot => ⟨?_, ?_⟩⟩
  · obtain ⟨keys, hkeys, hmembers, -⟩ :=
      PlannedFile.exists_sort (stop_walk_of_stop_walkFiles hnone file hfile)
    exact ⟨keys, hkeys, hmembers⟩
  · rw [htable, TokenTable.ofMembers_eq, TokenTable.keys_ofList]
  · rw [htable, hmembers]
    refine TokenTable.get?_ofMembers ?_ hlast
    rw [Member.token?, hread]
  · rw [TokenTable.ofMembers_of_not_stored hnot, List.append_nil]
  · rw [htable, hmembers, TokenTable.ofMembers_of_not_stored hnot]

/-! ### A directory that writes a key twice -/

/-- A palette of two colours. -/
def firstPalette : PlannedFile :=
  { name := "first.json", category := .color
    entries := [("a", .object [("value", .string "rgb(1,2,3)")]),
      ("b", .object [("value", .string "rgb(4,5,6)")])] }

/-- A palette that makes one of them a placeholder for the other one, and has a word for that. -/
def secondPalette : PlannedFile :=
  { name := "second.json", category := .color
    entries := [("b", .object [("value", .string "\x7ba\x7d")]),
      ("a", .object [("value", .string "red")])] }

/-- A directory that holds both palettes. -/
def palettes : Files :=
  .ofList
    [(⟨.here, ["tokens", "first.json"]⟩, .file ("\x7b\"a\": \x7b\"value\": \"rgb(1,2,3)\"\x7d, "
        ++ "\"b\": \x7b\"value\": \"rgb(4,5,6)\"\x7d\x7d").toUTF8.toList),
     (⟨.here, ["tokens", "second.json"]⟩, .file ("\x7b\"b\": \x7b\"value\": \"\x7ba\x7d\"\x7d, "
        ++ "\"a\": \x7b\"value\": \"red\"\x7d\x7d").toUTF8.toList)]

/-- Settings for both palettes, one after the other. -/
def palettesSettings : Settings :=
  { Settings.standard with
    colorFiles := ["first.json", "second.json"], layoutFiles := [], typographyFiles := [] }

theorem readPlan_palettes :
    readPlan palettes ⟨.here, ["tokens"]⟩ palettesSettings.plan =
      .ok [firstPalette, secondPalette] := by
  cbv

theorem read_red : secondPalette.category.read "darkmode" "a" (.object [("value", .string "red")]) =
    .error (.rejected (.color (.string "red"))) := by
  cbv

theorem stop_walk_secondPalette : (secondPalette.walk "darkmode").stop = none := by
  have hsort : Key.sort (secondPalette.entries.map Prod.fst) = .ok ["a", "b"] := by cbv
  have hred : (Entries.get? "a" secondPalette.entries).getD .null =
    .object [("value", .string "red")] := rfl
  have hb : secondPalette.category.read "darkmode" "b"
      ((Entries.get? "b" secondPalette.entries).getD .null) = .ok (some (.reference "a")) := by cbv
  simp only [PlannedFile.walk, hsort, PlannedFile.walkKeys, hred, PlannedFile.occurrence, read_red,
    hb]

theorem load_palettes :
    ∃ l, load palettes ⟨.here, ["tokens"]⟩ palettesSettings = .ok l ∧
      l.files = [firstPalette, secondPalette] := by
  have hfirst : (firstPalette.walk "darkmode").stop = none := by cbv
  have hstop :
      (walkFiles palettesSettings.flag.text [firstPalette, secondPalette]).stop = none := by
    change (walkFiles "darkmode" [firstPalette, secondPalette]).stop = none
    simp only [walkFiles, hfirst, stop_walk_secondPalette]
  refine ⟨⟨[firstPalette, secondPalette],
    (walkFiles palettesSettings.flag.text [firstPalette, secondPalette]).occurrences⟩, ?_, rfl⟩
  exact load_eq_ok_iff.2 ⟨readPlan_palettes, hstop, rfl⟩

/-- `b` keeps the place that it has from the first file, and has the token of the second one; `a`
keeps its token though the second file has it again, with a word for a value. -/
theorem table_of_load_palettes :
    ∃ l, load palettes ⟨.here, ["tokens"]⟩ palettesSettings = .ok l ∧ l.table.keys = ["a", "b"] ∧
      l.table.get? "a" = some
        { key := "a", value := .color "#010203", category := .color,
          raw := .object [("value", .string "rgb(1,2,3)")], source := some "first.json",
          dependencies := [] } ∧
      l.table.get? "b" = some
        { key := "b", value := .reference "a", category := .color,
          raw := .object [("value", .string "\x7ba\x7d")], source := some "second.json",
          dependencies := ["a"] } := by
  obtain ⟨l, hload, hfiles⟩ := load_palettes
  obtain ⟨-, -, -, hkeys, -, -, hlast, -⟩ := table_of_load hload
  have hmembers : l.members =
      [⟨firstPalette, "a", .object [("value", .string "rgb(1,2,3)")]⟩,
        ⟨firstPalette, "b", .object [("value", .string "rgb(4,5,6)")]⟩,
        ⟨secondPalette, "a", .object [("value", .string "red")]⟩,
        ⟨secondPalette, "b", .object [("value", .string "\x7ba\x7d")]⟩] := by
    rw [Loaded.members, hfiles]
    cbv
  have hred : Member.Rejected "darkmode"
      ⟨secondPalette, "a", .object [("value", .string "red")]⟩ := ⟨_, read_red⟩
  have htokens :
      (l.members.filterMap (Member.token? "darkmode")).map Token.key = ["a", "b", "b"] := by
    have hnone : Member.token? "darkmode"
        ⟨secondPalette, "a", .object [("value", .string "red")]⟩ = none := by
      rw [Member.token?, Member.read, read_red]
    rw [hmembers, List.map_filterMap]
    simp only [List.filterMap_cons, hnone]
    cbv
  refine ⟨l, hload, ?_, ?_, ?_⟩
  · rw [hkeys]
    change ((l.members.filterMap (Member.token? "darkmode")).map Token.key).eraseDups = ["a", "b"]
    rw [htokens]
    cbv
  · refine hlast [] _ _ _ hmembers (by cbv) fun m' hm' hkey => ?_
    rcases List.mem_cons.1 hm' with rfl | hm'
    · exact absurd hkey (by decide)
    rcases List.mem_cons.1 hm' with rfl | hm'
    · exact fun hstored => hstored.not_rejected hred
    · rw [List.mem_singleton.1 hm'] at hkey
      exact absurd hkey (by decide)
  · exact hlast [_, _, _] _ [] _ hmembers (by cbv) fun m' hm' => absurd hm' List.not_mem_nil

end DesignTokens
