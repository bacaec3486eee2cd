import DesignTokens.Proofs.Json.Members
import DesignTokens.Proofs.Key
import DesignTokens.Proofs.Load
import Mathlib.Data.List.Forall2

/-!
# Proofs/Account — what becomes of every member of the planned files

A member is a key of a planned file together with its entry.  Where a directory loads, its members
are gone through file by file, each once, and each is **rejected, ignored or stored**: the rejected
ones are the diagnostics, and the last one that is stored under a key is the token of that key.

* `Loaded.accounted_load` — the account of a directory that was loaded.
-/

namespace DesignTokens

open Text

/-! ## Members -/

/-- A key of a planned file with its entry. -/
structure Member where
  file : PlannedFile
  key : String
  entry : Json.Value

namespace Member

variable {flag k : String} {m : Member}

/-- What is read in the entry. -/
def read (flag : String) (m : Member) : Except EntryFault (Option Expr) :=
  m.file.category.read flag m.key m.entry

/-- The entry has no value that can be read. -/
def Rejected (flag : String) (m : Member) : Prop := ∃ r, m.read flag = .error (.rejected r)

/-- The entry is none that its file tells a value by. -/
def Ignored (flag : String) (m : Member) : Prop := m.read flag = .ok none

/-- The entry has a value. -/
def Stored (flag : String) (m : Member) : Prop := ∃ value, m.read flag = .ok (some value)

/-- Of the three outcomes exactly one is that of the member. -/
def HasOneOutcome (flag : String) (m : Member) : Prop :=
  (m.Rejected flag ∧ ¬ m.Ignored flag ∧ ¬ m.Stored flag) ∨
    (¬ m.Rejected flag ∧ m.Ignored flag ∧ ¬ m.Stored flag) ∨
    (¬ m.Rejected flag ∧ ¬ m.Ignored flag ∧ m.Stored flag)

/-- The diagnostic of a rejected member. -/
def diagnostic? (flag : String) (m : Member) : Option Diagnostic :=
  match m.read flag with
  | .error (.rejected r) => some ⟨m.key, r.message, some m.file.name⟩
  | _ => none

/-- The token of a stored member. -/
def token? (flag : String) (m : Member) : Option Token :=
  match m.read flag with
  | .ok (some value) =>
    some
      { key := m.key, value, category := m.file.category, raw := m.entry,
        source := some m.file.name, dependencies := value.dependencies flag }
  | _ => none

/-- The last of some members that is stored under a key. -/
def lastStored (flag : String) (members : List Member) (key : String) : Option Member :=
  members.reverse.find? fun m => (m.token? flag).any fun t => t.key == key

theorem exists_diagnostic?_iff : (∃ d, m.diagnostic? flag = some d) ↔ m.Rejected flag := by
  unfold diagnostic? Rejected
  constructor
  · rintro ⟨d, hd⟩
    split at hd
    · rename_i r hr
      exact ⟨r, hr⟩
    · cases hd
  · rintro ⟨r, hr⟩
    rw [hr]
    exact ⟨_, rfl⟩

theorem key_of_diagnostic? {d : Diagnostic} (h : m.diagnostic? flag = some d) : d.key = m.key := by
  unfold diagnostic? at h
  split at h <;> cases h
  rfl

theorem exists_token?_iff : (∃ t, m.token? flag = some t) ↔ m.Stored flag := by
  unfold token? Stored
  constructor
  · rintro ⟨t, ht⟩
    split at ht
    · rename_i value hvalue
      exact ⟨value, hvalue⟩
    · cases ht
  · rintro ⟨value, hvalue⟩
    rw [hvalue]
    exact ⟨_, rfl⟩

theorem key_of_token? {t : Token} (h : m.token? flag = some t) : t.key = m.key := by
  unfold token? at h
  split at h <;> cases h
  rfl

theorem read_of_token? {t : Token} (h : m.token? flag = some t) :
    m.read flag = .ok (some t.value) := by
  unfold token? at h
  split at h
  · rename_i value hvalue
    cases h
    exact hvalue
  · cases h

theorem source_of_token? {t : Token} (h : m.token? flag = some t) :
    t.source = some m.file.name := by
  unfold token? at h
  split at h <;> cases h
  rfl

/-- **Only typography passes over a member.** -/
theorem Ignored.category_eq (h : m.Ignored flag) : m.file.category = .font := by
  unfold Ignored read Category.read at h
  split at h
  · obtain ⟨e, -, he⟩ := map_eq_ok h
    cases he
  · obtain ⟨e, -, he⟩ := map_eq_ok h
    cases he
  · assumption

/-- What the loader makes of a member. -/
def Becomes (flag : String) (m : Member) (o : Occurrence) : Prop :=
  m.file.occurrence flag m.key m.entry = .ok o

theorem Rejected.not_ignored (h : m.Rejected flag) : ¬ m.Ignored flag := by
  obtain ⟨r, hr⟩ := h
  rw [Ignored, hr]
  simp

theorem Stored.not_ignored (h : m.Stored flag) : ¬ m.Ignored flag := by
  obtain ⟨value, hvalue⟩ := h
  rw [Ignored, hvalue]
  simp

theorem Stored.not_rejected (h : m.Stored flag) : ¬ m.Rejected flag := by
  obtain ⟨value, hvalue⟩ := h
  rw [Rejected, hvalue]
  simp

/-- **A member has exactly one of three outcomes.** -/
theorem Becomes.hasOneOutcome {o : Occurrence} (h : m.Becomes flag o) : m.HasOneOutcome flag := by
  unfold Becomes PlannedFile.occurrence at h
  split at h
  · rename_i value hvalue
    have hstored : m.Stored flag := ⟨value, hvalue⟩
    exact Or.inr (Or.inr ⟨hstored.not_rejected, hstored.not_ignored, hstored⟩)
  · rename_i hignored
    exact Or.inr (Or.inl ⟨fun hr => hr.not_ignored hignored, hignored,
      fun hs => hs.not_ignored hignored⟩)
  · rename_i r hr
    have hrejected : m.Rejected flag := ⟨r, hr⟩
    exact Or.inl ⟨hrejected, hrejected.not_ignored, fun hs => hs.not_rejected hrejected⟩
  · cases h

theorem Becomes.diagnostic?_eq {o : Occurrence} (h : m.Becomes flag o) :
    o.diagnostic? = m.diagnostic? flag := by
  unfold Becomes PlannedFile.occurrence at h
  unfold diagnostic? read
  split at h <;> cases h <;> simp_all [Occurrence.diagnostic?]

theorem Becomes.token?_eq {o : Occurrence} (h : m.Becomes flag o) :
    o.token? = m.token? flag := by
  unfold Becomes PlannedFile.occurrence at h
  unfold token? read
  split at h <;> cases h <;> simp_all [Occurrence.token?]

end Member

/-! ## Files -/

namespace PlannedFile

variable {flag : String} {file : PlannedFile} {keys : List String}

/-- The member of a key. -/
def member (file : PlannedFile) (key : String) : Member :=
  ⟨file, key, (Entries.get? key file.entries).getD .null⟩

/-- The members of a file in the order in which they are gone through. -/
def members (file : PlannedFile) : List Member :=
  match Key.sort (file.entries.map Prod.fst) with
  | .ok keys => keys.map file.member
  | .error _ => []

theorem eq_member_of_mem {m : Member} (h : m ∈ file.members) : m = file.member m.key := by
  unfold members at h
  split at h
  · obtain ⟨key, -, rfl⟩ := List.mem_map.1 h
    rfl
  · exact absurd h List.not_mem_nil

theorem file_of_mem_members {m : Member} (h : m ∈ file.members) : m.file = file := by
  rw [eq_member_of_mem h]
  rfl

theorem forall₂_walkKeys (h : (file.walkKeys flag keys).stop = none) :
    List.Forall₂ (Member.Becomes flag) (keys.map file.member)
      (file.walkKeys flag keys).occurrences := by
  induction keys with
  | nil => exact .nil
  | cons key rest ih =>
    rw [walkKeys] at h ⊢
    split at h
    · cases h
    · rename_i o ho
      rw [List.map_cons]
      exact .cons ho (ih h)

/-- Where nothing stops the run in a file, its keys were sorted and gone through in that order. -/
theorem exists_sort (h : (file.walk flag).stop = none) :
    ∃ keys, Key.sort (file.entries.map Prod.fst) = .ok keys ∧
      file.members = keys.map file.member ∧ file.walk flag = file.walkKeys flag keys := by
  unfold walk at h ⊢
  unfold members
  split at h
  · cases h
  · rename_i keys hkeys
    simp only [hkeys]
    exact ⟨keys, rfl, rfl, rfl⟩

/-- **Going through a file makes one thing of each of its members.** -/
theorem forall₂_walk (h : (file.walk flag).stop = none) :
    List.Forall₂ (Member.Becomes flag) file.members (file.walk flag).occurrences := by
  obtain ⟨keys, -, hmembers, hwalk⟩ := exists_sort h
  rw [hwalk] at h ⊢
  rw [hmembers]
  exact forall₂_walkKeys h

/-- The members that are gone through are the entries of the file. -/
theorem perm_members (hnodup : (file.entries.map Prod.fst).Nodup)
    (h : (file.walk flag).stop = none) :
    (file.members.map fun m => (m.key, m.entry)).Perm file.entries := by
  obtain ⟨keys, hkeys, hmembers, -⟩ := exists_sort h
  have hentries : (file.entries.map Prod.fst).map
      (fun key => (key, (Entries.get? key file.entries).getD .null)) = file.entries := by
    rw [List.map_map]
    refine (List.map_congr_left fun e he => ?_).trans (List.map_id _)
    have hget : Entries.get? e.1 file.entries = some e.2 := (Entries.get?_eq_some_iff hnodup).2 he
    simp [hget]
  have hperm := (Key.perm_sort hkeys).map
    fun key => (key, (Entries.get? key file.entries).getD .null)
  rw [hentries] at hperm
  rw [hmembers, List.map_map]
  exact hperm

end PlannedFile

section Files

variable {flag : String} {files : List PlannedFile}

/-- Where nothing stops the run in some files, nothing stops it in one of them. -/
theorem stop_walk_of_stop_walkFiles (h : (walkFiles flag files).stop = none) :
    ∀ file ∈ files, (file.walk flag).stop = none := by
  induction files with
  | nil => exact fun file hfile => absurd hfile List.not_mem_nil
  | cons file rest ih =>
    rw [walkFiles] at h
    split at h
    · rename_i e he
      rw [he] at h
      cases h
    · rename_i hnone
      intro file' hfile'
      rcases List.mem_cons.1 hfile' with rfl | hrest
      · exact hnone
      · exact ih h file' hrest

/-- Where nothing stops the run in any of some files, nothing stops it in these. -/
theorem stop_walkFiles_of_stop_walk (h : ∀ file ∈ files, (file.walk flag).stop = none) :
    (walkFiles flag files).stop = none := by
  induction files with
  | nil => rfl
  | cons file rest ih =>
    rw [walkFiles, h file List.mem_cons_self]
    exact ih fun file' hfile' => h file' (List.mem_cons_of_mem file hfile')

/-- **Going through files makes one thing of each member**, file by file. -/
theorem forall₂_walkFiles (h : (walkFiles flag files).stop = none) :
    List.Forall₂ (Member.Becomes flag) (files.flatMap PlannedFile.members)
      (walkFiles flag files).occurrences := by
  induction files with
  | nil => exact .nil
  | cons file rest ih =>
    rw [walkFiles] at h ⊢
    split at h
    · rename_i e he
      rw [he] at h
      cases h
    · rename_i hnone
      rw [List.flatMap_cons]
      exact List.rel_append (PlannedFile.forall₂_walk hnone) (ih h)

end Files

/-! ## Tables -/

namespace TokenTable

variable {t : TokenTable} {tokens : List Token} {k : String}

theorem get?_add (t : TokenTable) (token : Token) (k : String) :
    (t.add token).get? k = if k = token.key then some token else t.get? k :=
  OrderedMap.get?_insert t.byKey token.key k token

theorem get?_foldl_add (tokens : List Token) (t : TokenTable) (k : String) :
    (tokens.foldl add t).get? k =
      (tokens.reverse.find? fun token => token.key == k).or (t.get? k) := by
  induction tokens generalizing t with
  | nil => rfl
  | cons token tokens ih =>
    rw [List.foldl_cons, ih, get?_add, List.reverse_cons, List.find?_append, Option.or_assoc]
    congr 1
    by_cases hk : k = token.key
    · simp [hk]
    · simp [hk, Ne.symm hk]

/-- **The last token that was added under a key is the one that is there.** -/
theorem get?_ofList (tokens : List Token) (k : String) :
    (ofList tokens).get? k = tokens.reverse.find? fun token => token.key == k := by
  have hempty : empty.get? k = none := rfl
  rw [ofList, get?_foldl_add, hempty, Option.or_none]

end TokenTable

/-! ## Directories -/

namespace Loaded

/-- The members of the files of a directory in the order in which they are gone through. -/
def members (l : Loaded) : List Member := l.files.flatMap PlannedFile.members

/-- The account of a directory. -/
structure Accounted (fs : Files) (directory : Path) (s : Settings) (l : Loaded) : Prop where
  /-- The files are those of the plan, each of them read; a file that is planned twice is there
  twice. -/
  planned : List.Forall₂ (fun p file => file.name = p.1 ∧ file.category = p.2 ∧
    TokenFile.read fs (directory.join (.ofText p.1)) = .ok file.entries) s.plan l.files
  /-- Each entry of a file is gone through once. -/
  perm_members : ∀ file ∈ l.files, (file.members.map fun m => (m.key, m.entry)).Perm file.entries
  keysRead_eq : l.keysRead = (l.files.flatMap PlannedFile.entries).length
  hasOneOutcome : ∀ m ∈ l.members, m.HasOneOutcome s.flag.text
  /-- The diagnostics are those of the rejected members, in order. -/
  diagnostics_eq : l.diagnostics = l.members.filterMap (Member.diagnostic? s.flag.text)
  /-- Under a key the table has the token of the last member that is stored there. -/
  get?_table : ∀ k, l.table.get? k =
    (Member.lastStored s.flag.text l.members k).bind (Member.token? s.flag.text)

variable {fs : Files} {directory : Path} {s : Settings} {l : Loaded}

theorem forall₂_readPlan {plan : List (String × Category)} {files : List PlannedFile}
    (h : readPlan fs directory plan = .ok files) :
    List.Forall₂ (fun p file => file.name = p.1 ∧ file.category = p.2 ∧
      TokenFile.read fs (directory.join (.ofText p.1)) = .ok file.entries) plan files := by
  induction plan generalizing files with
  | nil =>
    cases h
    exact .nil
  | cons p plan ih =>
    rw [readPlan] at h
    obtain ⟨entries, hentries, h⟩ := bind_eq_ok h
    obtain ⟨rest, hrest, h⟩ := bind_eq_ok h
    cases h
    exact .cons ⟨rfl, rfl, hentries⟩ (ih hrest)

/-- **A plan is read where each of its files is**, and as these. -/
theorem readPlan_of_forall₂ {plan : List (String × Category)} {files : List PlannedFile}
    (h : List.Forall₂ (fun p file => file.name = p.1 ∧ file.category = p.2 ∧
      TokenFile.read fs (directory.join (.ofText p.1)) = .ok file.entries) plan files) :
    readPlan fs directory plan = .ok files := by
  induction h with
  | nil => rfl
  | @cons p file plan files hfile _ ih =>
    obtain ⟨hname, hcategory, hread⟩ := hfile
    rw [readPlan, hread, ih, ← hname, ← hcategory]
    rfl

/-- What stands on the left of a relation between lists has a partner on the right. -/
theorem exists_of_forall₂ {α β : Type} {R : α → β → Prop} {as : List α} {bs : List β} {a : α}
    (h : List.Forall₂ R as bs) (ha : a ∈ as) : ∃ b ∈ bs, R a b := by
  induction h with
  | nil => exact absurd ha List.not_mem_nil
  | @cons a' b as bs hab _ ih =>
    rcases List.mem_cons.1 ha with rfl | ha
    · exact ⟨b, List.mem_cons_self, hab⟩
    · obtain ⟨b', hb', hab'⟩ := ih ha
      exact ⟨b', List.mem_cons_of_mem _ hb', hab'⟩

theorem filterMap_eq_of_forall₂ {β : Type} {f : Occurrence → Option β} {g : Member → Option β}
    {flag : String} {members : List Member} {occurrences : List Occurrence}
    (h : List.Forall₂ (Member.Becomes flag) members occurrences)
    (hfg : ∀ m o, m.Becomes flag o → f o = g m) :
    occurrences.filterMap f = members.filterMap g := by
  induction h with
  | nil => rfl
  | cons ho _ ih => rw [List.filterMap_cons, List.filterMap_cons, hfg _ _ ho, ih]

theorem perm_flatMap_members {files : List PlannedFile}
    (h : ∀ file ∈ files, (file.members.map fun m => (m.key, m.entry)).Perm file.entries) :
    ((files.flatMap PlannedFile.members).map fun m => (m.key, m.entry)).Perm
      (files.flatMap PlannedFile.entries) := by
  induction files with
  | nil => exact .nil
  | cons file rest ih =>
    rw [List.flatMap_cons, List.flatMap_cons, List.map_append]
    exact (h file List.mem_cons_self).append
      (ih fun file' hfile' => h file' (List.mem_cons_of_mem file hfile'))

/-- **Loading a directory makes one thing of each of its members.** -/
theorem forall₂_load (h : load fs directory s = .ok l) :
    List.Forall₂ (Member.Becomes s.flag.text) l.members l.occurrences := by
  obtain ⟨-, hnone, hoccurrences⟩ := load_eq_ok_iff.1 h
  rw [hoccurrences]
  exact forall₂_walkFiles hnone

/-- The tokens that are added to the table are those of the stored members, in order. -/
theorem tokens_load (h : load fs directory s = .ok l) :
    l.occurrences.filterMap Occurrence.token? =
      l.members.filterMap (Member.token? s.flag.text) :=
  filterMap_eq_of_forall₂ (forall₂_load h) fun _ _ ho => ho.token?_eq

/-- **A directory that loads is accounted for.** -/
theorem accounted_load (h : load fs directory s = .ok l) : l.Accounted fs directory s := by
  obtain ⟨hfiles, hnone, -⟩ := load_eq_ok_iff.1 h
  have hplanned := forall₂_readPlan hfiles
  have hbecomes := forall₂_load h
  have hnodup : ∀ file ∈ l.files, (file.entries.map Prod.fst).Nodup := by
    intro file hfile
    obtain ⟨p, -, -, -, hread⟩ := exists_of_forall₂ hplanned.flip hfile
    exact TokenFile.nodup_read hread
  have hperm : ∀ file ∈ l.files,
      (file.members.map fun m => (m.key, m.entry)).Perm file.entries := fun file hfile =>
    file.perm_members (hnodup file hfile) (stop_walk_of_stop_walkFiles hnone file hfile)
  refine
    { planned := hplanned
      perm_members := hperm
      keysRead_eq := ?_
      hasOneOutcome := fun m hm => ?_
      diagnostics_eq := filterMap_eq_of_forall₂ hbecomes fun m o ho => ho.diagnostic?_eq
      get?_table := fun k => ?_ }
  · rw [keysRead, ← hbecomes.length_eq]
    have hlength := (perm_flatMap_members hperm).length_eq
    rwa [List.length_map] at hlength
  · obtain ⟨o, -, ho⟩ := exists_of_forall₂ hbecomes hm
    exact ho.hasOneOutcome
  · rw [table, TokenTable.get?_ofList, tokens_load h, ← List.filterMap_reverse,
      List.find?_filterMap]
    rfl

end Loaded

end DesignTokens
