import DesignTokens.CommandLine.Run
import DesignTokens.Proofs.Except
import DesignTokens.Proofs.Utf8

/-!
# Proofs/Settings — how the loading of settings ends

Whatever stands in a settings file, whatever overrides it and **whatever the libraries return or
raise**, loading ends with settings or with a fault.  Settings come of fields that make settings,
those of the file with the overrides behind them.  Most faults are told to the user; those that
break the run off instead are told apart exactly: the path holds a zero, the reader of YAML raises
something that is neither an error of the system nor one of YAML, as it does at bytes that are no
text, or a name is no text.

* `Settings.Libraries.Documented` — what is relied on of the libraries.
* `Settings.Holds` — the fields that a file has.
* `Settings.BreaksOff` — the faults that are not told.
* `Settings.load_ends` — how loading ends, with and without a file.
-/

namespace DesignTokens

open Text

namespace Settings

variable {ν α : Type} {lib : Libraries ν α} {fs : Files} {p : Path} {e : SettingsFault}
  {pairs : Pairs ν α} {overrides : Overrides ν α}

/-- Whether a fault is told to the user. -/
def isTold (e : SettingsFault) : Bool := (CommandLine.Failure.settings e).isTold

/-- What is relied on of the libraries, beyond that they return or raise. -/
structure Libraries.Documented (lib : Libraries ν α) : Prop where
  /-- Fields that make no settings are refused by an error of validation. -/
  raises_validation : ∀ fields e, lib.validate fields = .error e → ∃ words, e = .validation words
  /-- A stream is read to its end before it has a value, so that what breaks off or is no UTF-8 has
  none. -/
  reads_all : ∀ stream content, lib.safeLoad stream = .ok content →
    stream.fault = none ∧ ∃ cs, decodeUtf8 stream.bytes = .ok cs

/-- What is raised is neither an error of the system nor one of YAML. -/
def IsForeign (e : Raised) : Prop := ∀ words, e ≠ .system words ∧ e ≠ .yaml words

/-- Some name of a mapping is no text. -/
def HasUnnamed (pairs : Pairs ν α) : Prop := none ∈ pairs.map Prod.fst

/-- The fields that there are before any override: none without a file or in one that holds nothing,
and those of a mapping where all names are texts. -/
inductive Holds (lib : Libraries ν α) (fs : Files) : Option Path → List (ν × α) → Prop
  | noFile : Holds lib fs none []
  | nothing {p : Path} {stream : Stream} (no_zero : '\x00' ∉ p.text.toList)
      (opened : (fs p).content = .ok stream) (nothing : lib.safeLoad stream = .ok .nothing) :
      Holds lib fs (some p) []
  | mapping {p : Path} {stream : Stream} {fields : List (ν × α)}
      (no_zero : '\x00' ∉ p.text.toList) (opened : (fs p).content = .ok stream)
      (mapping : lib.safeLoad stream = .ok (.mapping (fields.map fun f => (some f.1, f.2)))) :
      Holds lib fs (some p) fields

/-- The faults of a settings file that are not told: a zero in its path, something foreign that the
reader of YAML raises, and a name that is no text. -/
inductive BreaksOff (lib : Libraries ν α) (fs : Files) (p : Path) : SettingsFault → Prop
  | noSuchPath (zero : '\x00' ∈ p.text.toList) : BreaksOff lib fs p .noSuchPath
  | raised {stream : Stream} {e : Raised} (no_zero : '\x00' ∉ p.text.toList)
      (opened : (fs p).content = .ok stream) (raised : lib.safeLoad stream = .error e)
      (foreign : IsForeign e) : BreaksOff lib fs p (.raised e)
  | unnamed {stream : Stream} {pairs : Pairs ν α} (no_zero : '\x00' ∉ p.text.toList)
      (opened : (fs p).content = .ok stream) (mapping : lib.safeLoad stream = .ok (.mapping pairs))
      (has_unnamed : HasUnnamed pairs) : BreaksOff lib fs p .unnamed

theorem BreaksOff.isTold_eq_false (h : BreaksOff lib fs p e) : isTold e = false := by
  cases h <;> rfl

/-! ## Names -/

theorem fileFields?_eq_none_iff : fileFields? pairs = none ↔ HasUnnamed pairs := by
  induction pairs with
  | nil => simp [fileFields?, HasUnnamed]
  | cons pair pairs ih =>
    obtain ⟨name, v⟩ := pair
    rw [HasUnnamed, List.map_cons, List.mem_cons, ← HasUnnamed]
    cases name with
    | some name => simp [fileFields?, ih]
    | none => simp [fileFields?]

theorem fileFields?_eq_some_iff {fields : List (ν × α)} :
    fileFields? pairs = some fields ↔ pairs = fields.map fun f => (some f.1, f.2) := by
  induction pairs generalizing fields with
  | nil =>
    rw [fileFields?, Option.some_inj, eq_comm, eq_comm (a := []), List.map_eq_nil_iff]
  | cons pair pairs ih =>
    obtain ⟨name, v⟩ := pair
    cases name with
    | none =>
      cases fields <;> simp [fileFields?]
    | some name =>
      rw [fileFields?, Option.map_eq_some_iff]
      constructor
      · rintro ⟨rest, hrest, rfl⟩
        rw [ih.1 hrest]
        rfl
      · intro h
        cases fields with
        | nil => cases h
        | cons f rest =>
          obtain ⟨hf, hrest⟩ := List.cons.inj h
          cases hf
          exact ⟨rest, ih.2 hrest, rfl⟩

/-- **What fields make settings**: those of the file, with the overrides behind them. -/
theorem ofPairs_eq_ok_iff [DecidableEq ν] {s : Settings} : ofPairs lib pairs overrides = .ok s ↔
    ∃ fields : List (ν × α), pairs = fields.map (fun f => (some f.1, f.2)) ∧
      lib.validate (.ofList (fields ++ given overrides)) = .ok s := by
  simp only [← fileFields?_eq_some_iff]
  unfold ofPairs
  cases fileFields? pairs with
  | none => simp
  | some fields =>
    simp only [Option.some_inj, exists_eq_left']
    split
    · rename_i s' hs
      simp [hs]
    · rename_i words hraised
      simp [hraised]
    · rename_i e hother hraised
      simp [hraised]

/-- A mapping with a name that is no text is refused, whatever overrides it. -/
theorem ofPairs_unnamed [DecidableEq ν] (h : HasUnnamed pairs) :
    ofPairs lib pairs overrides = .error .unnamed := by
  rw [ofPairs, fileFields?_eq_none_iff.2 h]

theorem ofPairs_yields [DecidableEq ν] (hlib : lib.Documented) (pairs : Pairs ν α)
    (overrides : Overrides ν α) :
    Yields (fun e => isTold e = true ∨ e = .unnamed ∧ HasUnnamed pairs) (fun _ => True)
      (ofPairs lib pairs overrides) := by
  unfold ofPairs
  split
  · rename_i hnone
    exact .inr ⟨rfl, fileFields?_eq_none_iff.1 hnone⟩
  · split
    · trivial
    · exact .inl rfl
    · rename_i e hother hraised
      obtain ⟨words, rfl⟩ := hlib.raises_validation _ _ hraised
      exact absurd rfl (hother words)

/-! ## Files -/

/-- What becomes of a file that opens is up to the reader of YAML. -/
theorem readFile_of_opened {stream : Stream} (hp : '\x00' ∉ p.text.toList)
    (hopened : (fs p).content = .ok stream) :
    readFile lib fs p = pairsOf p (lib.safeLoad stream) := by
  rw [readFile, if_neg (fun h => hp (List.contains_iff_mem.1 h)), hopened]

theorem readFile_yields (lib : Libraries ν α) (fs : Files) (p : Path) :
    Yields (fun e => isTold e = true ∨ BreaksOff lib fs p e)
      (fun pairs => HasUnnamed pairs → BreaksOff lib fs p .unnamed) (readFile lib fs p) := by
  by_cases hp : '\x00' ∈ p.text.toList
  · rw [readFile, if_pos (List.contains_iff_mem.2 hp)]
    exact .inr (.noSuchPath hp)
  cases hopened : (fs p).content with
  | error e =>
    rw [readFile, if_neg (fun h => hp (List.contains_iff_mem.1 h)), hopened]
    exact .inl rfl
  | ok stream =>
    rw [readFile_of_opened hp hopened]
    unfold pairsOf
    split
    · exact .inl rfl
    · exact .inl rfl
    · rename_i e hsystem hyaml hraised
      exact .inr (.raised hp hopened hraised fun words => ⟨hsystem words, hyaml words⟩)
    · exact fun hname => absurd hname List.not_mem_nil
    · rename_i pairs hmapping
      exact .unnamed hp hopened hmapping
    · exact .inl rfl

/-- **The pairs of a file** are those of its mapping; one that holds nothing has none. -/
theorem readFile_eq_ok_iff : readFile lib fs p = .ok pairs ↔ '\x00' ∉ p.text.toList ∧
    ∃ stream, (fs p).content = .ok stream ∧
      (lib.safeLoad stream = .ok .nothing ∧ pairs = [] ∨
        lib.safeLoad stream = .ok (.mapping pairs)) := by
  constructor
  · intro h
    by_cases hp : '\x00' ∈ p.text.toList
    · rw [readFile, if_pos (List.contains_iff_mem.2 hp)] at h
      cases h
    refine ⟨hp, ?_⟩
    cases hopened : (fs p).content with
    | error e =>
      rw [readFile, if_neg (fun h => hp (List.contains_iff_mem.1 h)), hopened] at h
      cases h
    | ok stream =>
      rw [readFile_of_opened hp hopened] at h
      refine ⟨stream, rfl, ?_⟩
      unfold pairsOf at h
      split at h <;> cases h
      · rename_i hnothing
        exact Or.inl ⟨hnothing, rfl⟩
      · rename_i hmapping
        exact Or.inr hmapping
  · rintro ⟨hp, stream, hopened, ⟨hnothing, rfl⟩ | hmapping⟩
    · rw [readFile_of_opened hp hopened, hnothing]
      rfl
    · rw [readFile_of_opened hp hopened, hmapping]
      rfl

theorem load_of_readFile_error [DecidableEq ν] (h : readFile lib fs p = .error e) :
    load lib fs (some p) overrides = .error e := by
  rw [load, Option.elim_some, h]
  rfl

/-- **A fault that breaks the run off** does so whatever overrides the file. -/
theorem BreaksOff.load_eq [DecidableEq ν] (h : BreaksOff lib fs p e) (overrides : Overrides ν α) :
    load lib fs (some p) overrides = .error e := by
  cases h with
  | noSuchPath zero => exact load_of_readFile_error (if_pos (List.contains_iff_mem.2 zero))
  | @raised stream e no_zero opened raised foreign =>
    refine load_of_readFile_error ?_
    rw [readFile_of_opened no_zero opened, raised]
    cases e with
    | system words => exact absurd rfl (foreign words).1
    | yaml words => exact absurd rfl (foreign words).2
    | validation words => rfl
    | other words => rfl
  | unnamed no_zero opened mapping has_unnamed =>
    rw [load, Option.elim_some, readFile_of_opened no_zero opened, mapping]
    exact ofPairs_unnamed has_unnamed

/-! ## Loading -/

theorem load_yields [DecidableEq ν] (hlib : lib.Documented) (fs : Files) (path : Option Path)
    (overrides : Overrides ν α) :
    Yields (fun e => isTold e = true ∨ ∃ p, path = some p ∧ BreaksOff lib fs p e) (fun _ => True)
      (load lib fs path overrides) := by
  refine Yields.bind (Q := fun pairs => HasUnnamed pairs →
    ∃ p, path = some p ∧ BreaksOff lib fs p .unnamed) ?_ fun pairs hpairs => ?_
  · cases path with
    | none => exact fun hname => absurd hname List.not_mem_nil
    | some p =>
      refine ((readFile_yields lib fs p).mono_fault fun e he => ?_).mono fun pairs h hname => ?_
      · exact he.imp_right fun he => ⟨p, rfl, he⟩
      · exact ⟨p, rfl, h hname⟩
  · refine (ofPairs_yields hlib pairs overrides).mono_fault fun e he => ?_
    rcases he with he | ⟨rfl, hname⟩
    · exact .inl he
    · exact .inr (hpairs hname)

/-- **What is loaded**: the settings of the fields that there are, with the overrides behind them. -/
theorem load_eq_ok_iff_holds [DecidableEq ν] {path : Option Path} {s : Settings} :
    load lib fs path overrides = .ok s ↔ ∃ fields : List (ν × α), Holds lib fs path fields ∧
      lib.validate (.ofList (fields ++ given overrides)) = .ok s := by
  constructor
  · intro h
    obtain ⟨pairs, hpairs, hs⟩ := bind_eq_ok h
    obtain ⟨fields, rfl, hvalidate⟩ := ofPairs_eq_ok_iff.1 hs
    refine ⟨fields, ?_, hvalidate⟩
    cases path with
    | none =>
      obtain rfl : fields = [] := List.map_eq_nil_iff.1 (Except.ok.inj hpairs).symm
      exact .noFile
    | some p =>
      obtain ⟨hp, stream, hopened, ⟨hnothing, hnil⟩ | hmapping⟩ := readFile_eq_ok_iff.1 hpairs
      · obtain rfl : fields = [] := List.map_eq_nil_iff.1 hnil
        exact .nothing hp hopened hnothing
      · exact .mapping hp hopened hmapping
  · rintro ⟨fields, hholds, hvalidate⟩
    cases hholds with
    | noFile => exact ofPairs_eq_ok_iff.2 ⟨[], rfl, hvalidate⟩
    | nothing no_zero opened nothing =>
      rw [load, Option.elim_some, readFile_eq_ok_iff.2 ⟨no_zero, _, opened, .inl ⟨nothing, rfl⟩⟩]
      exact ofPairs_eq_ok_iff.2 ⟨[], rfl, hvalidate⟩
    | mapping no_zero opened mapping =>
      rw [load, Option.elim_some, readFile_eq_ok_iff.2 ⟨no_zero, _, opened, .inr mapping⟩]
      exact ofPairs_eq_ok_iff.2 ⟨fields, rfl, hvalidate⟩

/-- A file that opens and cannot be read to its end as UTF-8 gives no settings. -/
theorem load_ne_ok_of_stream [DecidableEq ν] (hlib : lib.Documented) {stream : Stream}
    (hopened : (fs p).content = .ok stream)
    (hstream : stream.fault ≠ none ∨ ∀ cs, decodeUtf8 stream.bytes ≠ .ok cs) (s : Settings) :
    load lib fs (some p) overrides ≠ .ok s := by
  have hnone : ∀ content, lib.safeLoad stream ≠ .ok content := by
    intro content hcontent
    obtain ⟨hfault, cs, hcs⟩ := hlib.reads_all stream content hcontent
    exact hstream.elim (fun h => h hfault) fun h => h cs hcs
  intro h
  obtain ⟨fields, hholds, -⟩ := load_eq_ok_iff_holds.1 h
  cases hholds with
  | nothing no_zero opened nothing =>
    cases hopened.symm.trans opened
    exact hnone _ nothing
  | mapping no_zero opened mapping =>
    cases hopened.symm.trans opened
    exact hnone _ mapping

/-- **Loading ends with settings or with a fault that is told**, save for the faults that break it
off; these do so whatever overrides the file, and are not told.  It ends with settings exactly where
the fields that there are, with the overrides behind them, make settings; a file that cannot be read
to its end as UTF-8 has none. -/
theorem load_ends [DecidableEq ν] (hlib : lib.Documented) (fs : Files) (path : Option Path)
    (overrides : Overrides ν α) :
    (∀ s, load lib fs path overrides = .ok s ↔ ∃ fields : List (ν × α),
      Holds lib fs path fields ∧ lib.validate (.ofList (fields ++ given overrides)) = .ok s) ∧
    ((∃ s, load lib fs path overrides = .ok s) ∨ ∃ e, load lib fs path overrides = .error e ∧
      (isTold e = true ∨ ∃ p, path = some p ∧ BreaksOff lib fs p e)) ∧
    (∀ p e, path = some p → BreaksOff lib fs p e →
      load lib fs path overrides = .error e ∧ isTold e = false) ∧
    ∀ p stream, path = some p → (fs p).content = .ok stream →
      (stream.fault ≠ none ∨ ∀ cs, decodeUtf8 stream.bytes ≠ .ok cs) →
      ∀ s, load lib fs path overrides ≠ .ok s := by
  refine ⟨fun s => load_eq_ok_iff_holds, ?_, ?_, ?_⟩
  · have hends := load_yields hlib fs path overrides
    cases hload : load lib fs path overrides with
    | ok s => exact .inl ⟨s, rfl⟩
    | error e =>
      rw [hload] at hends
      exact .inr ⟨e, rfl, hends⟩
  · rintro p e rfl he
    exact ⟨he.load_eq overrides, he.isTold_eq_false⟩
  · rintro p stream rfl hopened hstream
    exact load_ne_ok_of_stream hlib hopened hstream

/-- Libraries for files of one word or none, which is no mapping, and for one mapping whose name is
a number; there are settings only where no field is given. -/
def wordLibraries : Libraries String String where
  name := id
  text := id
  safeLoad stream :=
    match stream.fault, decodeUtf8 stream.bytes with
    | some e, _ => .error (.system e.message)
    | none, .error e => .error (.other e.message)
    | none, .ok [] => .ok .nothing
    | none, .ok ['1', ':', ' ', 'x'] => .ok (.mapping [(none, "x")])
    | none, .ok _ => .ok .other
  validate fields :=
    if fields.keys = [] then .ok .standard else .error (.validation "1 validation error")

theorem documented_wordLibraries : wordLibraries.Documented where
  raises_validation := by
    intro fields e h
    simp only [wordLibraries] at h
    split at h <;> cases h
    exact ⟨_, rfl⟩
  reads_all := by
    intro stream content h
    simp only [wordLibraries] at h
    split at h
    · cases h
    · cases h
    all_goals
      rename_i hfault hdecode
      exact ⟨hfault, _, hdecode⟩

/-- An empty file, one of a single byte that is no text, and one whose mapping has a number for a
name. -/
def oddFiles : Files :=
  .ofList
    [(⟨.here, ["empty.yaml"]⟩, .file []),
     (⟨.here, ["byte.yaml"]⟩, .file [0xFF]),
     (⟨.here, ["number.yaml"]⟩, .file "1: x".toUTF8.toList)]

/-- What the byte that is no text comes to. -/
def byteFault : SettingsFault :=
  .raised (.other "'utf-8' codec can't decode byte 0xff in position 0: invalid start byte")

/-- The empty file gives settings; the byte that is no text and the name that is a number break the
run off. -/
theorem load_ends_odd :
    wordLibraries.Documented ∧
    load wordLibraries oddFiles (some ⟨.here, ["empty.yaml"]⟩) [] = .ok .standard ∧
    (load wordLibraries oddFiles (some ⟨.here, ["byte.yaml"]⟩) [("namespace", some "var")] =
      .error byteFault ∧ isTold byteFault = false) ∧
    (∀ s, load wordLibraries oddFiles (some ⟨.here, ["byte.yaml"]⟩) [("namespace", some "var")] ≠
      .ok s) ∧
    load wordLibraries oddFiles (some ⟨.here, ["number.yaml"]⟩) [] = .error .unnamed ∧
      isTold .unnamed = false := by
  have hlib := documented_wordLibraries
  have hbyte : (oddFiles ⟨.here, ["byte.yaml"]⟩).content = .ok ⟨[0xFF], none⟩ := by
    simp [oddFiles, Files.ofList, Found.file]
  have hnumber : (oddFiles ⟨.here, ["number.yaml"]⟩).content =
      .ok ⟨"1: x".toUTF8.toList, none⟩ := by
    simp [oddFiles, Files.ofList, Found.file]
  have hmapping : wordLibraries.safeLoad ⟨"1: x".toUTF8.toList, none⟩ =
      .ok (.mapping [(none, "x")]) := by
    simp only [wordLibraries, decodeUtf8_toUTF8]
    rfl
  have hempty : (oddFiles ⟨.here, ["empty.yaml"]⟩).content = .ok ⟨[], none⟩ := by
    simp [oddFiles, Files.ofList, Found.file]
  obtain ⟨hloaded, -⟩ := load_ends hlib oddFiles (some ⟨.here, ["empty.yaml"]⟩) []
  obtain ⟨-, -, hbroken, hnone⟩ :=
    load_ends hlib oddFiles (some ⟨.here, ["byte.yaml"]⟩) [("namespace", some "var")]
  obtain ⟨-, -, hbroken', -⟩ := load_ends hlib oddFiles (some ⟨.here, ["number.yaml"]⟩) []
  refine ⟨hlib, ?_, ?_, ?_, ?_⟩
  · exact (hloaded _).2 ⟨[], .nothing (by decide) hempty rfl, rfl⟩
  · exact hbroken _ _ rfl (.raised (by decide) hbyte rfl fun words => ⟨by simp, by simp⟩)
  · refine hnone _ _ rfl hbyte (Or.inr fun cs hcs => ?_)
    cases hcs
  · exact hbroken' _ _ rfl
      (.unnamed (by decide) hnumber hmapping (List.mem_singleton_self none))

end Settings

end DesignTokens
