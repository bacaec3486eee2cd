import DesignTokens.Proofs.Containment
import DesignTokens.Proofs.Settings

/-!
# Proofs/AllOrNothing — a run writes all of its output or none of it

All planned files are read before an entry of one of them is looked at, so of several that cannot be
read the first one in the plan is told of, **whatever the others hold**.  A run of the program ends
in one of three ways: it grants the request for help, it prints a compilation that came to its end,
or it prints nothing.

* `FirstFault.compileTo_eq`, `compileTo_of_compile` — what is written.
* `CommandLine.run_cases` — the three ways in which a run ends.
* `all_or_nothing` — what both come to.
-/

namespace DesignTokens

variable {fs : Files} {directory : Path} {s : Settings} {time : Timestamp}
variable {plan : List (String × Category)} {e : TokenFileFault}

/-! ## Directories with a file that cannot be read -/

/-- Where some file of a plan cannot be read, there is a first one. -/
theorem exists_firstFault {p : String × Category} (hp : p ∈ plan)
    (h : TokenFile.read fs (directory.join (.ofText p.1)) = .error e) :
    ∃ e, FirstFault fs directory plan e := by
  cases hplan : readPlan fs directory plan with
  | error e => exact ⟨e, readPlan_eq_error_iff.1 hplan⟩
  | ok files =>
    obtain ⟨file, -, -, -, hread⟩ := Loaded.exists_of_forall₂ (Loaded.forall₂_readPlan hplan) hp
    cases h.symm.trans hread

theorem FirstFault.compile_eq (h : FirstFault fs directory s.plan e) :
    compile fs directory s time = .error (.load (.file e)) := by
  rw [compile, h.load_eq]

/-- Where a file cannot be read, nothing is written. -/
theorem FirstFault.compileTo_eq (h : FirstFault fs directory s.plan e) (out : Path) :
    compileTo fs directory s time out = (.error (.load (.file e)), fs) := by
  rw [compileTo, h.compile_eq]

/-- Where a directory is compiled, all of its output is written, and nothing elsewhere. -/
theorem compileTo_of_compile {c : Compiled} (h : compile fs directory s time = .ok c) (out : Path) :
    ∃ fs' : Files, compileTo fs directory s time out = (.ok c, fs') ∧
      fs' out = .file (c.output ++ "\n").toUTF8.toList ∧ ∀ p, p ≠ out → fs' p = fs p := by
  refine ⟨fs.write out (c.output ++ "\n"), ?_, Files.write_apply_self fs out _, fun p hp =>
    Files.write_apply_of_ne fs _ hp⟩
  rw [compileTo, h]

/-! ## Runs of the program -/

namespace CommandLine

variable {ν α : Type} [DecidableEq ν] {lib : Settings.Libraries ν α}
variable {arguments : List String} {r : Request} {c : Compiled}

/-- What a run compiles: its arguments ask for a directory that is there, its settings are in order,
and the directory is compiled with them. -/
structure Compiles (lib : Settings.Libraries ν α) (fs : Files) (time : Timestamp)
    (arguments : List String) (r : Request) (c : Compiled) : Prop where
  request : Request.ofArguments arguments = .ok r
  directory : fs.isA .directory r.directoryPath = .ok true
  compiled : ∃ s, r.settings lib fs = .ok s ∧ compile fs r.directoryPath s time = .ok c

/-- What a run leaves that prints a compilation. -/
structure Prints (r : Request) (c : Compiled) (o : Outcome) : Prop where
  ended : o.ended = .status 0
  stdout : o.stdout = c.output ++ "\n"
  quiet : r.verbose = false → o.stderr = ""

/-- What a run leaves that fails: it tells so by its status, or is broken off. -/
structure Fails (o : Outcome) : Prop where
  ended : o.ended = .status 1 ∨ ∃ f, o.ended = .broken f
  stdout : o.stdout = ""

theorem Fails.not_zero {o : Outcome} (h : Fails o) : o.ended ≠ .status 0 := by
  rcases h.ended with hended | ⟨f, hended⟩ <;> rw [hended] <;> simp

namespace Request

theorem fails_fail (r : Request) (log : List String) (f : Failure) : Fails (r.fail log f) := by
  rw [fail]
  split
  · exact ⟨Or.inl rfl, rfl⟩
  · exact ⟨Or.inr ⟨f, rfl⟩, rfl⟩

/-- What is not told breaks a run off, and what is told is the last of what it says. -/
theorem fail_of_isTold {log : List String} {f : Failure} (h : f.isTold = true) :
    r.fail log f = ⟨"", lines (if r.verbose then log else []) ++ f.message ++ "\n", .status 1⟩ := by
  rw [fail, if_pos h]

/-- A run that is told no setting has those of no field. -/
theorem settings_of_none (hformat : r.format = none) (hns : r.ns = none) (hconfig : r.config = none)
    (hstandard : lib.validate .empty = .ok s) : r.settings lib fs = .ok s := by
  have hfields : OrderedMap.ofList ([] ++ Settings.given [(lib.name "output_format", none),
      (lib.name "namespace", none)]) = (OrderedMap.empty : OrderedMap ν α) := rfl
  rw [settings, configPath?, overrides, hformat, hns, hconfig]
  change Settings.ofPairs lib []
    [(lib.name "output_format", none), (lib.name "namespace", none)] = _
  simp only [Settings.ofPairs, Settings.fileFields?, hfields, hstandard]

/-- **A run that does what was asked for prints what it compiled, or fails.** -/
theorem run_cases (lib : Settings.Libraries ν α) (fs : Files) (time : Timestamp)
    (h : ofArguments arguments = .ok r) :
    (∃ c, Compiles lib fs time arguments r c ∧ Prints r c (r.run lib fs time)) ∨
      Fails (r.run lib fs time) := by
  rw [run]
  split
  · exact Or.inr (fails_fail r _ _)
  · exact Or.inr ⟨Or.inl rfl, rfl⟩
  · rename_i hdirectory
    split
    · exact Or.inr (fails_fail r _ _)
    · rename_i s hs
      simp only
      split
      · exact Or.inr (fails_fail r _ _)
      · rename_i c hc
        refine Or.inl ⟨c, ⟨h, hdirectory, s, hs, hc⟩, rfl, rfl, fun hverbose => ?_⟩
        simp only [hverbose]
        rfl

end Request

theorem run_eq (h : Request.ofArguments arguments = .ok r) :
    run lib fs time arguments = r.run lib fs time := by
  rw [run, h]

/-- **The three ways in which a run ends.** -/
theorem run_cases (lib : Settings.Libraries ν α) (fs : Files) (time : Timestamp)
    (arguments : List String) :
    (Request.ofArguments arguments = .error .help ∧
        run lib fs time arguments = ⟨help, "", .status 0⟩) ∨
      (∃ r c, Compiles lib fs time arguments r c ∧ Prints r c (run lib fs time arguments)) ∨
      Fails (run lib fs time arguments) := by
  cases harguments : Request.ofArguments arguments with
  | error ending =>
    cases ending with
    | help => exact Or.inl ⟨rfl, by rw [run, harguments]⟩
    | fault e =>
      rw [run, harguments]
      exact Or.inr (Or.inr ⟨Or.inl rfl, rfl⟩)
  | ok r =>
    rw [run_eq harguments]
    rcases Request.run_cases lib fs time harguments with ⟨c, hcompiles, hprints⟩ | hfails
    · exact Or.inr (Or.inl ⟨r, c, hcompiles, hprints⟩)
    · exact Or.inr (Or.inr hfails)

/-- **A run that compiles its directory ends well.** -/
theorem Compiles.ended (h : Compiles lib fs time arguments r c) :
    (run lib fs time arguments).ended = .status 0 := by
  obtain ⟨s, hs, hc⟩ := h.compiled
  rw [run_eq h.request, Request.run, h.directory, hs]
  simp only [hc]

/-- What a run leaves when a file cannot be read that is to blame for that. -/
theorem run_of_firstFault (hr : Request.ofArguments arguments = .ok r)
    (hdirectory : fs.isA .directory r.directoryPath = .ok true) (hs : r.settings lib fs = .ok s)
    (h : FirstFault fs r.directoryPath s.plan e) :
    Fails (run lib fs time arguments) ∧ (e.blamesFile = true → run lib fs time arguments =
      ⟨"", lines (if r.verbose then r.settingsLog lib fs else []) ++ e.message ++ "\n",
        .status 1⟩) := by
  have hrun : run lib fs time arguments =
      r.fail (r.settingsLog lib fs) (.compile (.load (.file e))) := by
    rw [run_eq hr, Request.run, hdirectory, hs]
    simp only [h.compile_eq, compileLog, List.append_nil]
  rw [hrun]
  refine ⟨Request.fails_fail r _ _, fun hblames => Request.fail_of_isTold ?_⟩
  -- the faults that blame a file are those that are told
  cases e <;> first | rfl | cases hblames

end CommandLine

/-- **All or nothing.**  Where some planned file cannot be read, the fault of the first one in the
plan is what loading ends with, whatever the other files hold, and the files are left as they were,
so that nothing is written at any path; where the directory is compiled, all of its output is
written with a line feed behind it, and no other path is touched.  A run of the program, whatever
its libraries are, that does not end with status 0, with another status or broken off, has printed
nothing; one that ends with status 0 was asked for help or has printed what it compiled, with a line
feed behind it, and said nothing else unless it was asked to; it does end so where its directory is
compiled; and where a file cannot be read, it fails, with the fault for its last words if that is
one of the file. -/
theorem all_or_nothing {ν α : Type} [DecidableEq ν] (lib : Settings.Libraries ν α) :
    (∀ (fs : Files) (directory : Path) (s : Settings),
      ((∃ p ∈ s.plan, ∃ e, TokenFile.read fs (directory.join (.ofText p.1)) = .error e) →
        ∃ e, FirstFault fs directory s.plan e ∧ load fs directory s = .error (.file e) ∧
          ∀ time out, compileTo fs directory s time out = (.error (.load (.file e)), fs)) ∧
      ∀ time c, compile fs directory s time = .ok c → ∀ out,
        ∃ fs' : Files, compileTo fs directory s time out = (.ok c, fs') ∧
          fs' out = .file (c.output ++ "\n").toUTF8.toList ∧ ∀ p, p ≠ out → fs' p = fs p) ∧
    ∀ (fs : Files) (time : Timestamp) (arguments : List String),
      ((CommandLine.run lib fs time arguments).ended ≠ .status 0 →
        (CommandLine.run lib fs time arguments).stdout = "") ∧
      ((CommandLine.run lib fs time arguments).ended = .status 0 →
        CommandLine.Request.ofArguments arguments = .error .help ∨
        ∃ r c, CommandLine.Compiles lib fs time arguments r c ∧
          (CommandLine.run lib fs time arguments).stdout = c.output ++ "\n" ∧
          (r.verbose = false → (CommandLine.run lib fs time arguments).stderr = "")) ∧
      (∀ r c, CommandLine.Compiles lib fs time arguments r c →
        (CommandLine.run lib fs time arguments).ended = .status 0) ∧
      ∀ r s e, CommandLine.Request.ofArguments arguments = .ok r →
        fs.isA .directory r.directoryPath = .ok true → r.settings lib fs = .ok s →
        FirstFault fs r.directoryPath s.plan e →
        CommandLine.Fails (CommandLine.run lib fs time arguments) ∧
          (e.blamesFile = true → CommandLine.run lib fs time arguments =
            ⟨"", CommandLine.lines (if r.verbose then r.settingsLog lib fs else []) ++ e.message
              ++ "\n", .status 1⟩) := by
  refine ⟨fun fs directory s => ⟨?_, fun time c hc out => compileTo_of_compile hc out⟩,
    fun fs time arguments => ⟨fun hother => ?_, fun hzero => ?_, fun r c hcompiles => hcompiles.ended,
      fun r s e hr hdirectory hs h => CommandLine.run_of_firstFault hr hdirectory hs h⟩⟩
  · rintro ⟨p, hp, e, hread⟩
    obtain ⟨e, hfirst⟩ := exists_firstFault hp hread
    exact ⟨e, hfirst, hfirst.load_eq, fun time out => hfirst.compileTo_eq out⟩
  · rcases CommandLine.run_cases lib fs time arguments with
      ⟨-, hrun⟩ | ⟨r, c, -, hprints⟩ | hfails
    · exact absurd (congrArg CommandLine.Outcome.ended hrun) hother
    · exact absurd hprints.ended hother
    · exact hfails.stdout
  · rcases CommandLine.run_cases lib fs time arguments with
      ⟨hhelp, -⟩ | ⟨r, c, hc, hprints⟩ | hfails
    · exact Or.inl hhelp
    · exact Or.inr ⟨r, c, hc, hprints.stdout, hprints.quiet⟩
    · exact absurd hzero hfails.not_zero

/-- A directory in which the second file of the plan cannot be opened and the third is broken
off. -/
def lockedFiles : Files :=
  .ofList
    [(⟨.here, ["tokens"]⟩, .directory),
     (⟨.here, ["tokens", "color-palette.json"]⟩, .file "\x7b\x7d".toUTF8.toList),
     (⟨.here, ["tokens", "semantic-color-palette.json"]⟩, .locked ⟨13, "Permission denied"⟩),
     (⟨.here, ["tokens", "color-aliases.json"]⟩, .file "\x7b".toUTF8.toList)]

/-- The fault of the file that cannot be opened. -/
def lockedFault : TokenFileFault :=
  .unreadable ⟨.here, ["tokens", "semantic-color-palette.json"]⟩
    (.opening ⟨13, "Permission denied"⟩)

/-- The file that cannot be opened is the first that cannot be read. -/
theorem firstFault_lockedFiles :
    FirstFault lockedFiles ⟨.here, ["tokens"]⟩ Settings.standard.plan lockedFault := by
  refine ⟨[("color-palette.json", .color)], ("semantic-color-palette.json", .color),
    Settings.standard.plan.drop 2, rfl, fun q hq => ⟨[], ?_⟩, ?_⟩
  · rw [List.mem_singleton.1 hq]
    cbv
  · have hpath : Path.join ⟨.here, ["tokens"]⟩ (.ofText "semantic-color-palette.json") =
        ⟨.here, ["tokens", "semantic-color-palette.json"]⟩ := by cbv
    rw [hpath, TokenFile.read]
    rfl

theorem message_lockedFault : lockedFault.message =
    "Cannot read token file tokens/semantic-color-palette.json: "
      ++ "[Errno 13] Permission denied: 'tokens/semantic-color-palette.json'" := by
  decide +kernel

/-- The file that cannot be opened is told of, and not the broken one. -/
theorem all_or_nothing_locked :
    (∃ e, FirstFault lockedFiles ⟨.here, ["tokens"]⟩ Settings.standard.plan e ∧
      load lockedFiles ⟨.here, ["tokens"]⟩ .standard = .error (.file e) ∧
      ∀ time out, compileTo lockedFiles ⟨.here, ["tokens"]⟩ .standard time out =
        (.error (.load (.file e)), lockedFiles)) ∧
    ∀ time, CommandLine.run Settings.wordLibraries lockedFiles time ["tokens"] =
      ⟨"", "Cannot read token file tokens/semantic-color-palette.json: "
        ++ "[Errno 13] Permission denied: 'tokens/semantic-color-palette.json'" ++ "\n",
        .status 1⟩ := by
  obtain ⟨hfiles, hruns⟩ := all_or_nothing Settings.wordLibraries
  obtain ⟨before, p, after, hplan, -, hp⟩ := firstFault_lockedFiles
  refine ⟨(hfiles lockedFiles _ .standard).1 ⟨p, ?_, _, hp⟩, fun time => ?_⟩
  · rw [hplan]
    exact List.mem_append_right before List.mem_cons_self
  · have hr : CommandLine.Request.ofArguments ["tokens"] =
        .ok ⟨"tokens", false, none, none, none⟩ := by decide
    have hs : CommandLine.Request.settings ⟨"tokens", false, none, none, none⟩
        Settings.wordLibraries lockedFiles = .ok .standard :=
      CommandLine.Request.settings_of_none rfl rfl rfl rfl
    have hrun := (hruns lockedFiles time ["tokens"]).2.2.2 _ .standard _ hr rfl hs
      firstFault_lockedFiles
    have houtcome := hrun.2 rfl
    rw [message_lockedFault] at houtcome
    exact houtcome

end DesignTokens
