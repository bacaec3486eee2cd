import DesignTokens.Proofs.Diagnostics
import DesignTokens.Proofs.Evaluation

/-!
# Proofs/Flag — the flag of the runtime as a key

The flag is a variable of the runtime, and no token depends on it.  **A key of a token file may
still be its name**: then the token of that key is declared like any other.  The declarations before
it read the flag that the runtime has supplied, and those behind it read what the token has assigned
to it.

* `execute_keeps` — an execution keeps the variables that it does not assign.
* `flag_of_compile` — when the flag is declared, and what an execution makes of it.
-/

namespace DesignTokens

/-! ## Executions -/

section Executions

variable {V : Type} {I : Interpretation V} {env env' : Environment V} {ts ts' : List Token}
variable {k : String}

/-- An execution of tokens goes on with that of those behind them. -/
theorem execute_append (I : Interpretation V) (env : Environment V) (ts ts' : List Token) :
    execute I env (ts ++ ts') = execute I env ts >>= fun env => execute I env ts' := by
  induction ts generalizing env with
  | nil => rfl
  | cons t ts ih =>
    rw [List.cons_append, execute, execute]
    cases t.value.eval I env with
    | error e => rfl
    | ok v => exact ih (Function.update env t.key (some v))

/-- **An execution keeps the variables that it does not assign.** -/
theorem execute_keeps (h : execute I env ts = .ok env') (hk : k ∉ ts.map Token.key) :
    env' k = env k := by
  induction ts generalizing env with
  | nil =>
    cases h
    rfl
  | cons t ts ih =>
    rw [execute] at h
    obtain ⟨v, -, h⟩ := bind_eq_ok h
    rw [List.map_cons, List.mem_cons, not_or] at hk
    rw [ih h hk.2, Function.update_of_ne hk.1]

/-- The variable of a token that is assigned once ends with the value that the token has where its
turn comes. -/
theorem execute_assigns {t : Token} (h : execute I env (ts ++ t :: ts') = .ok env')
    (hbehind : t.key ∉ ts'.map Token.key) :
    ∃ mid v, execute I env ts = .ok mid ∧ t.value.eval I mid = .ok v ∧ env' t.key = some v := by
  rw [execute_append] at h
  obtain ⟨mid, hmid, h⟩ := bind_eq_ok h
  rw [execute] at h
  obtain ⟨v, hv, h⟩ := bind_eq_ok h
  refine ⟨mid, v, hmid, hv, ?_⟩
  rw [execute_keeps h hbehind, Function.update_self]

end Executions

/-! ## The flag -/

variable {fs : Files} {directory : Path} {s : Settings} {time : Timestamp} {c : Compiled}

/-- **No token depends on the flag.** -/
theorem not_edge_flag {l : Loaded} (h : load fs directory s = .ok l) (k : String) :
    ¬ l.table.graph.Edge k s.flag.text := by
  intro hedge
  obtain ⟨token, htoken, hdependency⟩ := TokenTable.edge_iff.1 hedge
  have htable : token ∈ l.table.tokens :=
    TokenTable.mem_tokens_iff.2 ((TokenTable.key_of_get? htoken).symm ▸ htoken)
  rw [derived_load h token htable] at hdependency
  exact (Expr.mem_dependencies.1 hdependency).2 rfl

/-- A choice looks at the flag. -/
theorem flag_of_conditional {l : Loaded} {t : Token} {k : String} {dark light : Expr}
    (h : load fs directory s = .ok l) (ht : t ∈ l.table.sorted)
    (hvalue : t.value = .conditional k dark light) : k = s.flag.text := by
  have hchoice := Loaded.isValue_of_mem_sorted h ht
  rw [hvalue] at hchoice
  cases hchoice
  rfl

/-- **When the flag is declared**: where a member of a planned file is stored under its name and
leads to no missing name, though no token depends on it.  Every choice looks at the flag.  Up to the
declaration of the flag, and everywhere where it has none, an execution keeps the flag that the
runtime has supplied; the declaration, which comes once, replaces it. -/
theorem flag_of_compile (h : compile fs directory s time = .ok c) :
    (s.flag.text ∈ c.tokens.map Token.key ↔
      (∃ m ∈ c.loaded.members, m.key = s.flag.text ∧ m.Stored s.flag.text) ∧
        ¬ c.loaded.table.graph.Broken s.flag.text) ∧
      (∀ k, ¬ c.loaded.table.graph.Edge k s.flag.text) ∧
      (∀ t ∈ c.tokens, ∀ k dark light, t.value = .conditional k dark light → k = s.flag.text) ∧
      ∀ {V : Type} (I : Interpretation V) (env : Environment V),
        (∀ before after, c.tokens = before ++ after → s.flag.text ∉ before.map Token.key →
          ∀ mid, execute I env before = .ok mid → mid s.flag.text = env s.flag.text) ∧
        ∀ before t after, c.tokens = before ++ t :: after → t.key = s.flag.text →
          s.flag.text ∉ before.map Token.key ∧ s.flag.text ∉ after.map Token.key ∧
            ∀ env', execute I env c.tokens = .ok env' →
              ∃ mid v, execute I env before = .ok mid ∧ mid s.flag.text = env s.flag.text ∧
                t.value.eval I mid = .ok v ∧ env' s.flag.text = some v := by
  have hload := load_of_compile h
  refine ⟨mem_tokens_iff h, not_edge_flag hload, fun t ht k dark light hvalue => ?_,
    fun I env => ⟨?_, ?_⟩⟩
  · exact flag_of_conditional hload (tokens_of_compile h ▸ ht) hvalue
  · intro before after _ hbefore mid hmid
    exact execute_keeps hmid hbefore
  · intro before t after htokens hkey
    have hsorted := (tokens_of_compile h).symm.trans htokens
    have hbefore := TokenTable.not_mem_before hsorted
    have hafter := TokenTable.not_mem_after hsorted
    rw [← hkey]
    refine ⟨hbefore, hafter, fun env' hexecute => ?_⟩
    rw [htokens] at hexecute
    obtain ⟨mid, v, hmid, hv, henv'⟩ := execute_assigns hexecute hafter
    exact ⟨mid, v, hmid, execute_keeps hmid hbefore, hv, henv'⟩

/-- A palette of a colour under the name of the flag. -/
def nightPalette : PlannedFile :=
  { name := "palette.json", category := .color
    entries := [("darkmode", .object [("value", .string "rgb(0,0,0)")])] }

/-- A file of a choice by the flag. -/
def nightAliases : PlannedFile :=
  { name := "aliases.json", category := .color
    entries := [("ink", .object [("sets", .object
      [("light", .object [("value", .string "rgb(1,2,3)")]),
        ("dark", .object [("value", .string "rgb(4,5,6)")])])])] }

/-- A directory that holds these two files. -/
def nightFiles : Files :=
  .ofList
    [(⟨.here, ["tokens", "palette.json"]⟩,
        .file "\x7b\"darkmode\": \x7b\"value\": \"rgb(0,0,0)\"\x7d\x7d".toUTF8.toList),
     (⟨.here, ["tokens", "aliases.json"]⟩,
        .file ("\x7b\"ink\": \x7b\"sets\": \x7b\"light\": \x7b\"value\": \"rgb(1,2,3)\"\x7d, "
          ++ "\"dark\": \x7b\"value\": \"rgb(4,5,6)\"\x7d\x7d\x7d\x7d").toUTF8.toList)]

/-- Settings for the two files. -/
def nightSettings : Settings :=
  { Settings.standard with
    colorFiles := ["palette.json", "aliases.json"], layoutFiles := [], typographyFiles := [] }

/-- The tokens of the two files. -/
def nightTokens : List Token :=
  [{ key := "darkmode", value := .color "#000000", category := .color,
     raw := .object [("value", .string "rgb(0,0,0)")], source := some "palette.json",
     dependencies := [] },
   { key := "ink", value := .conditional "darkmode" (.color "#040506") (.color "#010203"),
     category := .color,
     raw := .object [("sets", .object [("light", .object [("value", .string "rgb(1,2,3)")]),
       ("dark", .object [("value", .string "rgb(4,5,6)")])])],
     source := some "aliases.json", dependencies := [] }]

/-- What the directory is loaded as. -/
def nightLoaded : Loaded := ⟨[nightPalette, nightAliases], nightTokens.map .stored⟩

theorem load_nightFiles : load nightFiles ⟨.here, ["tokens"]⟩ nightSettings = .ok nightLoaded := by
  have hread : readPlan nightFiles ⟨.here, ["tokens"]⟩ nightSettings.plan =
      .ok [nightPalette, nightAliases] := by cbv
  have hwalk : walkFiles "darkmode" [nightPalette, nightAliases] =
      ⟨nightTokens.map .stored, none⟩ := by cbv
  refine load_eq_ok_iff.2 ⟨hread, ?_⟩
  change (walkFiles "darkmode" [nightPalette, nightAliases]).stop = none ∧
    nightTokens.map .stored = (walkFiles "darkmode" [nightPalette, nightAliases]).occurrences
  rw [hwalk]
  exact ⟨rfl, rfl⟩

theorem sorted_nightLoaded : nightLoaded.table.sorted = nightTokens := by
  have htable : nightLoaded.table = .ofList nightTokens := rfl
  have horder : (TokenTable.ofList nightTokens).graph.schedule.order = ["darkmode", "ink"] := by cbv
  rw [htable, TokenTable.sorted, horder]
  rfl

/-- Where a palette has a colour under the name of the flag, the flag is that colour in the end,
though the runtime has supplied another value. -/
theorem flag_of_compile_night :
    ∃ c env', compile nightFiles ⟨.here, ["tokens"]⟩ nightSettings ⟨2025, 1, 2, 3, 4, 5⟩ = .ok c ∧
      nightSettings.flag.text = "darkmode" ∧ c.tokens = nightTokens ∧
      (∃ m ∈ c.loaded.members, m.key = "darkmode" ∧ m.Stored "darkmode") ∧
      execute textual (.only "darkmode" "dark") c.tokens = .ok env' ∧
      env' "darkmode" = some "#000000" := by
  obtain ⟨output, hemit⟩ := emit_tcl nightSettings.ns.text nightSettings.generator.text
    ⟨2025, 1, 2, 3, 4, 5⟩ nightLoaded.table.sorted
  have hcompile := compile_eq_ok_iff.2 ⟨nightLoaded, output, load_nightFiles, hemit, rfl⟩
  have htokens := (tokens_of_compile hcompile).trans sorted_nightLoaded
  obtain ⟨env', henv'⟩ : ∃ env', execute textual (.only "darkmode" "dark") nightTokens = .ok env' :=
    ⟨_, rfl⟩
  rw [← htokens] at henv'
  obtain ⟨hdeclared, -, -, hexecute⟩ := flag_of_compile hcompile
  have hlisted : nightSettings.flag.text ∈ nightTokens.map Token.key := List.mem_cons_self
  obtain ⟨-, -, hends⟩ := (hexecute textual (.only "darkmode" "dark")).2 [] _ _ htokens rfl
  obtain ⟨mid, v, -, -, hv, hflag⟩ := hends env' henv'
  cases hv
  exact ⟨_, env', hcompile, rfl, htokens, (hdeclared.1 (htokens ▸ hlisted)).1, henv', hflag⟩

/-- A choice behind that colour looks at it, and not at what the runtime has supplied. -/
example : (execute textual (.only "darkmode" "dark") nightTokens).map (fun env => env "ink") =
    .ok (some "#010203") := by cbv

end DesignTokens
