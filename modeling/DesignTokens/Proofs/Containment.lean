import DesignTokens.Proofs.Diagnostics
import DesignTokens.Proofs.Json.Scan
import DesignTokens.Proofs.Reading

/-!
# Proofs/Containment — where a bad file or a bad entry ends

A file that cannot be used ends a run by a fault that blames it, and an entry without a value costs
its token only.  **Five things break out of this**: the system does not say what stands at a path;
too many arrays and objects lie in one another; a whole number of JSON has too many digits; so has
the number at the end of one of several keys; or so has a channel of a colour or a count of pixels.

* `PlannedFile.stop_walk_iff` — the files that a run cannot go through to the end.
* `readPlan_eq_error_iff` — the fault that ends the reading of a plan.
* `Loaded.exists_load_iff` — the directories that are loaded.
* `load_contained` — where a directory is loaded, and what it comes to otherwise.
-/

namespace DesignTokens

open Text

variable {fs : Files} {directory path : Path} {s : Settings} {category : Category}
variable {flag : String} {file : PlannedFile} {files : List PlannedFile}
variable {plan : List (String × Category)} {f : TokenFileFault}

/-! ## Token files -/

/-- Whether a fault says of a file that it is not there, cannot be read or does not hold a JSON
object. -/
def TokenFileFault.blamesFile : TokenFileFault → Bool
  | .notFound _ | .unreadable _ _ | .undecodable _ _ | .malformed _ _ _ | .notAnObject _ => true
  | .refused _ _ | .digits _ | .tooDeep _ => false

namespace TokenFile

variable {bytes : List UInt8} {entries : Entries}

/-- A file that can be read holds a text. -/
def HasText (fs : Files) (path : Path) (text : List Char) : Prop :=
  ∃ bytes cs, fs.read path = .ok bytes ∧ decodeUtf8 bytes = .ok cs ∧ unifyNewlines cs = text

/-- The keys of a file cannot be put in order, or one of its entries ends the reading. -/
def BreaksOff (category : Category) (entries : Entries) : Prop :=
  (2 ≤ entries.length ∧ ∃ key ∈ entries.map Prod.fst, Key.IsLong key) ∨
    ∃ key entry, Entries.get? key entries = some entry ∧ category.EndsReading key entry

/-- A file for which none of these things holds. -/
structure Ordinary (fs : Files) (category : Category) (path : Path) : Prop where
  /-- The system says what stands at the path. -/
  looked : ∀ e, fs.isA .file path ≠ .error e
  shallow : ∀ text, HasText fs path text → ¬ Json.IsDeep fs.nesting text
  short : ∀ text, HasText fs path text → ¬ Json.HasLongInteger text
  goesOn : ∀ entries, read fs path = .ok entries → ¬ BreaksOff category entries

/-- **What refuses bytes without a word about their file** is a text that is too deep or has a
number that is too long. -/
theorem of_ofBytes {room : ℕ} {f : TokenFileFault} (h : ofBytes room path bytes = .error f)
    (hf : f.blamesFile = false) : ∃ cs, decodeUtf8 bytes = .ok cs ∧
      (Json.IsDeep room (unifyNewlines cs) ∨ Json.HasLongInteger (unifyNewlines cs)) := by
  unfold ofBytes at h
  split at h
  · cases h
    cases hf
  · rename_i cs hdecode
    refine ⟨cs, hdecode, ?_⟩
    split at h
    · cases h
      cases hf
    · rename_i hread
      exact Or.inr (Json.hasLongInteger_of_read hread)
    · rename_i hread
      exact Or.inl (Json.isDeep_of_read hread)
    · cases h
    · cases h
      cases hf

namespace Ordinary

/-- **Where an ordinary file cannot be read, the file is to blame.** -/
theorem blamesFile (h : Ordinary fs category path) {f : TokenFileFault}
    (hread : read fs path = .error f) : f.blamesFile = true := by
  unfold read at hread
  split at hread
  · rename_i e hlook
    exact absurd hlook (h.looked e)
  · cases hread
    rfl
  · split at hread
    · cases hread
      rfl
    · rename_i bytes hbytes
      refine Bool.of_not_eq_false fun hf => ?_
      obtain ⟨cs, hdecode, hdeep | hlong⟩ := of_ofBytes hread hf
      · exact h.shallow _ ⟨bytes, cs, hbytes, hdecode, rfl⟩ hdeep
      · exact h.short _ ⟨bytes, cs, hbytes, hdecode, rfl⟩ hlong

/-- A short text whose entries are gone through is ordinary. -/
theorem of_length_le {t : String} (hfile : fs path = .file t.toUTF8.toList)
    (hnesting : (unifyNewlines t.toList).length ≤ fs.nesting)
    (hlimit : (unifyNewlines t.toList).length ≤ digitLimit)
    (hread : TokenFile.read fs path = .ok entries) (hentries : ¬ BreaksOff category entries) :
    Ordinary fs category path := by
  obtain ⟨hkind, hbytes⟩ := Files.eq_file_iff.1 hfile
  have htext : ∀ text, HasText fs path text → unifyNewlines t.toList = text := by
    rintro text ⟨bytes, cs, hbytes', hdecode', rfl⟩
    cases hbytes.symm.trans hbytes'
    obtain rfl : t.toList = cs := Except.ok.inj ((decodeUtf8_toUTF8 t).symm.trans hdecode')
    rfl
  refine { looked := ?_, shallow := ?_, short := ?_, goesOn := ?_ }
  · intro e he
    cases hkind.symm.trans he
  · intro text h
    exact htext text h ▸ Json.not_isDeep hnesting
  · intro text h
    exact htext text h ▸ Json.not_hasLongInteger hlimit
  · intro entries' hread'
    obtain rfl : entries = entries' := Except.ok.inj (hread.symm.trans hread')
    exact hentries

end Ordinary

end TokenFile

/-! ## Going through files -/

namespace PlannedFile

/-- An entry ends a run where it ends the reading. -/
theorem occurrence_eq_error_iff (flag : String) {key : String} {entry : Json.Value} :
    (∃ e, file.occurrence flag key entry = .error e) ↔ file.category.EndsReading key entry := by
  rw [← Category.read_eq_digits_iff flag]
  unfold occurrence
  constructor
  · rintro ⟨e, h⟩
    split at h
    · cases h
    · cases h
    · cases h
    · rename_i e' hread
      exact ⟨e', hread⟩
  · rintro ⟨e, hread⟩
    rw [hread]
    exact ⟨e, rfl⟩

theorem stop_walkKeys_iff {keys : List String} :
    (∃ e, (file.walkKeys flag keys).stop = some e) ↔
      ∃ key ∈ keys, file.category.EndsReading key ((Entries.get? key file.entries).getD .null) := by
  induction keys with
  | nil => simp [walkKeys]
  | cons key rest ih =>
    rw [walkKeys, List.exists_mem_cons_iff, ← ih, ← occurrence_eq_error_iff flag]
    split
    · rename_i e he
      exact ⟨fun _ => Or.inl ⟨e, he⟩, fun _ => ⟨e, rfl⟩⟩
    · rename_i o ho
      refine ⟨Or.inr, fun h => h.resolve_left ?_⟩
      rintro ⟨e, he⟩
      cases ho.symm.trans he

/-- **A run cannot go through a file** exactly where its keys or one of its entries break it off. -/
theorem stop_walk_iff (flag : String) :
    (∃ e, (file.walk flag).stop = some e) ↔ TokenFile.BreaksOff file.category file.entries := by
  unfold walk TokenFile.BreaksOff
  rw [← List.length_map Prod.fst, ← Key.sort_eq_error_iff]
  split
  · rename_i e hsort
    exact ⟨fun _ => Or.inl ⟨e, hsort⟩, fun _ => ⟨e, rfl⟩⟩
  · rename_i keys hsort
    have hmem : ∀ key, key ∈ keys ↔ ∃ entry, Entries.get? key file.entries = some entry := by
      intro key
      rw [(Key.perm_sort hsort).mem_iff, ← Option.isSome_iff_exists, Option.isSome_iff_ne_none,
        Ne, Entries.get?_eq_none_iff, not_not]
    rw [stop_walkKeys_iff]
    constructor
    · rintro ⟨key, hkey, hends⟩
      obtain ⟨entry, hentry⟩ := (hmem key).1 hkey
      rw [hentry] at hends
      exact Or.inr ⟨key, entry, hentry, hends⟩
    · rintro (⟨e, he⟩ | ⟨key, entry, hentry, hends⟩)
      · cases hsort.symm.trans he
      · exact ⟨key, (hmem key).2 ⟨entry, hentry⟩, by rwa [hentry]⟩

end PlannedFile

theorem stop_walkFiles_iff : (∃ e, (walkFiles flag files).stop = some e) ↔
    ∃ file ∈ files, TokenFile.BreaksOff file.category file.entries := by
  induction files with
  | nil => simp [walkFiles]
  | cons file rest ih =>
    rw [walkFiles, List.exists_mem_cons_iff, ← ih, ← PlannedFile.stop_walk_iff flag]
    cases hstop : (file.walk flag).stop with
    | some e =>
      simp only [hstop]
      exact ⟨fun _ => Or.inl ⟨e, rfl⟩, fun _ => ⟨e, rfl⟩⟩
    | none =>
      simp only
      refine ⟨Or.inr, fun h => h.resolve_left ?_⟩
      rintro ⟨e, he⟩
      cases he

/-! ## The first file that cannot be read -/

/-- A fault is that of the first file of a plan that cannot be read. -/
def FirstFault (fs : Files) (directory : Path) (plan : List (String × Category))
    (f : TokenFileFault) : Prop :=
  ∃ before p after, plan = before ++ p :: after ∧
    (∀ q ∈ before, ∃ entries, TokenFile.read fs (directory.join (.ofText q.1)) = .ok entries) ∧
    TokenFile.read fs (directory.join (.ofText p.1)) = .error f

theorem FirstFault.cons {p : String × Category} {entries : TokenFile.Entries}
    (hp : TokenFile.read fs (directory.join (.ofText p.1)) = .ok entries)
    (h : FirstFault fs directory plan f) : FirstFault fs directory (p :: plan) f := by
  obtain ⟨before, q, after, rfl, hbefore, hq⟩ := h
  refine ⟨p :: before, q, after, rfl, fun q' hq' => ?_, hq⟩
  rcases List.mem_cons.1 hq' with rfl | hq'
  · exact ⟨entries, hp⟩
  · exact hbefore q' hq'

/-- **What ends the reading of a plan is the fault of the first file that cannot be read.** -/
theorem readPlan_eq_error_iff :
    readPlan fs directory plan = .error f ↔ FirstFault fs directory plan f := by
  constructor
  · intro h
    induction plan with
    | nil => cases h
    | cons p plan ih =>
      rw [readPlan] at h
      rcases bind_eq_error h with hp | ⟨entries, hp, h⟩
      · exact ⟨[], p, plan, rfl, fun q hq => absurd hq List.not_mem_nil, hp⟩
      rcases bind_eq_error h with hplan | ⟨files, -, h⟩
      · exact (ih hplan).cons hp
      · cases h
  · rintro ⟨before, p, after, rfl, hbefore, hp⟩
    induction before with
    | nil =>
      rw [List.nil_append, readPlan, hp]
      rfl
    | cons q before ih =>
      obtain ⟨entries, hq⟩ := hbefore q List.mem_cons_self
      have hrest := ih fun q' hq' => hbefore q' (List.mem_cons_of_mem q hq')
      rw [List.cons_append, readPlan, hq, hrest]
      rfl

/-- Where a plan cannot be read, one of its files cannot. -/
theorem FirstFault.exists_mem (h : FirstFault fs directory plan f) :
    ∃ p ∈ plan, TokenFile.read fs (directory.join (.ofText p.1)) = .error f := by
  obtain ⟨before, p, after, rfl, -, hread⟩ := h
  exact ⟨p, List.mem_append_right before List.mem_cons_self, hread⟩

theorem FirstFault.load_eq (h : FirstFault fs directory s.plan f) :
    load fs directory s = .error (.file f) := by
  rw [load, readPlan_eq_error_iff.2 h]

/-! ## Directories -/

/-- Where the plan of a directory is read, it is loaded exactly where its files are gone through. -/
theorem Loaded.exists_load_iff_of_readPlan (hfiles : readPlan fs directory s.plan = .ok files) :
    (∃ l, load fs directory s = .ok l) ↔
      ∀ file ∈ files, ¬ TokenFile.BreaksOff file.category file.entries := by
  have hstop : (walkFiles s.flag.text files).stop = none ↔
      ∀ file ∈ files, ¬ TokenFile.BreaksOff file.category file.entries := by
    rw [Option.eq_none_iff_forall_ne_some, ← not_exists, stop_walkFiles_iff]
    simp only [not_exists, not_and]
  rw [← hstop]
  constructor
  · rintro ⟨l, hl⟩
    obtain ⟨hplan, hnone, -⟩ := load_eq_ok_iff.1 hl
    obtain rfl : files = l.files := Except.ok.inj (hfiles.symm.trans hplan)
    exact hnone
  · intro hnone
    exact ⟨⟨files, (walkFiles s.flag.text files).occurrences⟩,
      load_eq_ok_iff.2 ⟨hfiles, hnone, rfl⟩⟩

/-- **Which directories are loaded**: each planned file holds a JSON object that does not break off
the run. -/
theorem Loaded.exists_load_iff : (∃ l, load fs directory s = .ok l) ↔
    ∀ p ∈ s.plan, ∃ entries, TokenFile.read fs (directory.join (.ofText p.1)) = .ok entries ∧
      ¬ TokenFile.BreaksOff p.2 entries := by
  cases hplan : readPlan fs directory s.plan with
  | error f =>
    obtain ⟨p, hp, hread⟩ := (readPlan_eq_error_iff.1 hplan).exists_mem
    constructor
    · rintro ⟨l, hl⟩
      cases hplan.symm.trans (load_eq_ok_iff.1 hl).1
    · intro hall
      obtain ⟨entries, hentries, -⟩ := hall p hp
      cases hread.symm.trans hentries
  | ok files =>
    have hplanned := forall₂_readPlan hplan
    rw [exists_load_iff_of_readPlan hplan]
    constructor
    · intro hfiles p hp
      obtain ⟨file, hfile, -, hcategory, hread⟩ := exists_of_forall₂ hplanned hp
      exact ⟨file.entries, hread, hcategory ▸ hfiles file hfile⟩
    · intro hall file hfile
      obtain ⟨p, hp, -, hcategory, hread⟩ := exists_of_forall₂ hplanned.flip hfile
      obtain ⟨entries, hentries, hgoes⟩ := hall p hp
      obtain rfl : file.entries = entries := Except.ok.inj (hread.symm.trans hentries)
      rwa [hcategory]

/-- **What is wrong with a file or with an entry stays there.**  A directory is loaded exactly where
each planned file holds a JSON object whose keys and entries do not break off the run, whatever else
the entries are, and what is loaded comes with an account of what became of each entry.  Where the
planned files are ordinary, the directory is loaded or one of the files is to blame. -/
theorem load_contained :
    ((∃ l, load fs directory s = .ok l) ↔
      ∀ p ∈ s.plan, ∃ entries, TokenFile.read fs (directory.join (.ofText p.1)) = .ok entries ∧
        ¬ TokenFile.BreaksOff p.2 entries) ∧
    (∀ l, load fs directory s = .ok l → l.Accounted fs directory s) ∧
    ((∀ p ∈ s.plan, TokenFile.Ordinary fs p.2 (directory.join (.ofText p.1))) →
      (∃ l, load fs directory s = .ok l) ∨
        ∃ p ∈ s.plan, ∃ f, load fs directory s = .error (.file f) ∧ f.blamesFile = true ∧
          TokenFile.read fs (directory.join (.ofText p.1)) = .error f) := by
  refine ⟨Loaded.exists_load_iff, fun l hl => Loaded.accounted_load hl, fun hordinary => ?_⟩
  cases hplan : readPlan fs directory s.plan with
  | error f =>
    have hfirst := readPlan_eq_error_iff.1 hplan
    obtain ⟨p, hp, hread⟩ := hfirst.exists_mem
    exact Or.inr ⟨p, hp, f, hfirst.load_eq, (hordinary p hp).blamesFile hread, hread⟩
  | ok files =>
    have hplanned := Loaded.forall₂_readPlan hplan
    refine Or.inl (Loaded.exists_load_iff.2 fun p hp => ?_)
    obtain ⟨file, -, -, -, hread⟩ := Loaded.exists_of_forall₂ hplanned hp
    exact ⟨file.entries, hread, (hordinary p hp).goesOn file.entries hread⟩

/-- The run goes through each of the small files. -/
theorem not_breaksOff_small : ∀ file ∈ [smallPalette, smallAliases, smallFonts],
    ¬ TokenFile.BreaksOff file.category file.entries := by
  intro file hfile
  rw [← PlannedFile.stop_walk_iff "darkmode"]
  simp only [List.mem_cons, List.not_mem_nil, or_false] at hfile
  rintro ⟨e, he⟩
  rcases hfile with rfl | rfl | rfl
  · rw [walk_smallPalette] at he
    cases he
  · rw [walk_smallAliases] at he
    cases he
  · rw [walk_smallFonts] at he
    cases he

theorem ordinary_smallFiles : ∀ p ∈ smallSettings.plan,
    TokenFile.Ordinary smallFiles p.2 (Path.join ⟨.here, ["tokens"]⟩ (.ofText p.1)) := by
  have hplanned := Loaded.forall₂_readPlan readPlan_smallFiles
  obtain ⟨⟨-, -, hpalette⟩, hplanned⟩ := List.forall₂_cons.1 hplanned
  obtain ⟨⟨-, -, haliases⟩, hplanned⟩ := List.forall₂_cons.1 hplanned
  obtain ⟨⟨-, -, hfonts⟩, -⟩ := List.forall₂_cons.1 hplanned
  have hpalette' : smallFiles (Path.join ⟨.here, ["tokens"]⟩ (.ofText "palette.json")) =
      .file ("\x7b\"a\": \x7b\"value\": \"rgb(1,2,3)\"\x7d, "
        ++ "\"b\": \x7b\"value\": \"\x7bx\x7d\"\x7d\x7d").toUTF8.toList := by cbv
  have haliases' : smallFiles (Path.join ⟨.here, ["tokens"]⟩ (.ofText "aliases.json")) =
      .file "\x7b\"a\": \x7b\"value\": \"red\"\x7d\x7d".toUTF8.toList := by cbv
  have hfonts' : smallFiles (Path.join ⟨.here, ["tokens"]⟩ (.ofText "fonts.json")) =
      .file "\x7b\"sans\": \x7b\"value\": \"x\"\x7d\x7d".toUTF8.toList := by cbv
  have hplan : smallSettings.plan =
      [("palette.json", .color), ("aliases.json", .color), ("fonts.json", .font)] := rfl
  rw [hplan]
  simp only [List.forall_mem_cons, List.not_mem_nil, false_imp_iff, implies_true, and_true]
  refine ⟨?_, ?_, ?_⟩
  · exact .of_length_le hpalette' (by decide) (by decide) hpalette
      (not_breaksOff_small _ (by simp))
  · exact .of_length_le haliases' (by decide) (by decide) haliases
      (not_breaksOff_small _ (by simp))
  · exact .of_length_le hfonts' (by decide) (by decide) hfonts
      (not_breaksOff_small _ (by simp))

/-- In the small directory a colour that is a word costs its token and nothing else. -/
theorem load_contained_small :
    (∀ p ∈ smallSettings.plan,
      TokenFile.Ordinary smallFiles p.2 (Path.join ⟨.here, ["tokens"]⟩ (.ofText p.1))) ∧
    ∃ l, load smallFiles ⟨.here, ["tokens"]⟩ smallSettings = .ok l ∧
      l.Accounted smallFiles ⟨.here, ["tokens"]⟩ smallSettings ∧
      l.diagnostics = [redDiagnostic] := by
  refine ⟨ordinary_smallFiles, ?_⟩
  obtain ⟨-, haccounted, hends⟩ := load_contained (s := smallSettings)
  rcases hends ordinary_smallFiles with ⟨l, hl⟩ | ⟨p, -, f, hf, -⟩
  · obtain rfl : smallLoaded = l := Except.ok.inj (load_smallFiles.symm.trans hl)
    exact ⟨smallLoaded, hl, haccounted _ hl, rfl⟩
  · cases load_smallFiles.symm.trans hf

end DesignTokens
