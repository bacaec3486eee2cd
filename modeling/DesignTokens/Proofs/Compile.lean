import DesignTokens.Compile
import DesignTokens.Proofs.Except
import DesignTokens.Proofs.Load
import Mathlib

/-!
# Proofs/Compile — the tokens of a compilation

A compilation succeeds where its directory loads and its scheduled tokens can be written.  What a
declared token reads is declared, so that **every reference of the output has its declaration**, and
one that comes too late stands on a cycle.

* `references_declared` — where the declarations that a token reads are found.
* `Tcl.emit_eq` — for Tcl every list of tokens can be written.
-/

namespace DesignTokens

variable {fs : Files} {directory : Path} {s : Settings} {time : Timestamp} {c : Compiled}
variable {t : Token} {k : String}

/-- **What a compilation comes to**: a directory that loads, whose scheduled tokens are written. -/
theorem compile_eq_ok_iff : compile fs directory s time = .ok c ↔
    ∃ loaded output, load fs directory s = .ok loaded ∧
      emit s.target s.generator.text time loaded.table.sorted = .ok output ∧
      c = ⟨loaded, loaded.table.graph.schedule, output⟩ := by
  unfold compile
  constructor
  · intro h
    split at h
    · cases h
    · rename_i loaded hload
      simp only at h
      split at h
      · cases h
      · rename_i output hemit
        cases h
        exact ⟨loaded, output, hload, hemit, rfl⟩
  · rintro ⟨loaded, output, hload, hemit, rfl⟩
    simp only [hload, Schedule.tokens]
    rw [TokenTable.sorted] at hemit
    rw [hemit]

theorem load_of_compile (h : compile fs directory s time = .ok c) :
    load fs directory s = .ok c.loaded := by
  obtain ⟨loaded, output, hload, -, rfl⟩ := compile_eq_ok_iff.1 h
  exact hload

theorem schedule_of_compile (h : compile fs directory s time = .ok c) :
    c.schedule = c.loaded.table.graph.schedule := by
  obtain ⟨loaded, output, -, -, rfl⟩ := compile_eq_ok_iff.1 h
  rfl

/-- The declared tokens are those of the table that are scheduled. -/
theorem tokens_of_compile (h : compile fs directory s time = .ok c) :
    c.tokens = c.loaded.table.sorted := by
  rw [Compiled.tokens, schedule_of_compile h]
  rfl

/-! ## Writing for Tcl -/

namespace Tcl

/-- How a value is written. -/
def value (ns : String) : Expr → String
  | .color hex => quotedColor hex
  | .number text => text
  | .reference key => variableRef key
  | .conditional flag dark light => choice (variableRef flag) (value ns dark) (value ns light)
  | .pixels count => scaled count
  | .font family size bold => fontCall ns family size bold

/-- Tcl has words for every value. -/
theorem render_eq (ns : String) (e : Expr) : e.render (.tcl ns) = .ok (value ns e) := by
  induction e with
  | color hex => rfl
  | number text => rfl
  | reference key => rfl
  | conditional flag dark light ihDark ihLight =>
    rw [Expr.render, ihDark, ihLight]
    rfl
  | pixels count => rfl
  | font family size bold => rfl

/-- The line that declares a token. -/
def line (ns : String) (t : Token) : String := assignment t.key (value ns t.value)

theorem declaration_eq (ns : String) (t : Token) : t.declaration (.tcl ns) = .ok (line ns t) := by
  rw [Token.declaration, render_eq]
  rfl

/-- **For Tcl every list of tokens can be written.** -/
theorem emit_eq (ns generator : String) (time : Timestamp) (tokens : List Token) :
    emit (.tcl ns) generator time tokens =
      .ok (wrap ns (header generator time) (tokens.map (line ns))) := by
  rw [emit, mapM_eq_ok fun t _ => declaration_eq ns t]
  rfl

end Tcl

theorem emit_tcl (ns generator : String) (time : Timestamp) (tokens : List Token) :
    ∃ text, emit (.tcl ns) generator time tokens = .ok text :=
  ⟨_, Tcl.emit_eq ns generator time tokens⟩

/-! ## References -/

/-- **What a declared token reads is declared once**, and before the token unless it depends on it
in turn; the flag of the runtime excepted. -/
theorem references_declared {i : Nat} (h : compile fs directory s time = .ok c)
    (ht : c.tokens[i]? = some t) (hk : k ∈ t.value.references) (hflag : k ≠ s.flag.text) :
    ∃ j, (∀ j', (c.tokens.map Token.key)[j']? = some k ↔ j' = j) ∧
      (j < i ∨ c.loaded.table.graph.DependsOn k t.key) := by
  rw [tokens_of_compile h] at ht ⊢
  have hsorted := List.mem_of_getElem? ht
  obtain ⟨hlisted, hbefore⟩ :=
    (derived_load (load_of_compile h)).idxOf_lt_or_dependsOn hsorted hk hflag
  have hi : (c.loaded.table.sorted.map Token.key)[i]? = some t.key := by
    rw [List.getElem?_map, ht, Option.map_some]
  rw [TokenTable.map_key_sorted] at hi ⊢
  rw [TokenTable.getElem?_order_iff (TokenTable.mem_order_of_mem_sorted hsorted)] at hi
  refine ⟨_, fun j' => TokenTable.getElem?_order_iff hlisted, ?_⟩
  rwa [← hi] at hbefore

/-- The text of a palette of two colours that are placeholders for each other. -/
def cyclicPalette : String :=
  "\x7b\"a\": \x7b\"value\": \"\x7bb\x7d\"\x7d, \"b\": \x7b\"value\": \"\x7ba\x7d\"\x7d\x7d"

/-- A directory that holds nothing but that palette. -/
def cyclicFiles : Files :=
  .ofList [(⟨.here, ["tokens", "palette.json"]⟩, .file cyclicPalette.toUTF8.toList)]

/-- Settings for a palette alone. -/
def paletteSettings : Settings :=
  { Settings.standard with
    colorFiles := ["palette.json"], layoutFiles := [], typographyFiles := [] }

theorem load_cyclicFiles :
    ∃ loaded, load cyclicFiles ⟨.here, ["tokens"]⟩ paletteSettings = .ok loaded ∧
      loaded.table.sorted.map (fun t => (t.key, t.value)) =
        [("b", .reference "a"), ("a", .reference "b")] := by
  have h : (load cyclicFiles ⟨.here, ["tokens"]⟩ paletteSettings).map
      (fun l => l.table.sorted.map fun t => (t.key, t.value)) =
      .ok [("b", .reference "a"), ("a", .reference "b")] := by
    cbv
  cases hload : load cyclicFiles ⟨.here, ["tokens"]⟩ paletteSettings with
  | error e =>
    rw [hload] at h
    cases h
  | ok loaded =>
    rw [hload] at h
    exact ⟨loaded, rfl, Except.ok.inj h⟩

/-- The colour that is declared first reads the one declared after it, on which it depends. -/
theorem references_declared_cyclic :
    ∃ c t, compile cyclicFiles ⟨.here, ["tokens"]⟩ paletteSettings ⟨2025, 1, 2, 3, 4, 5⟩ = .ok c ∧
      c.tokens[0]? = some t ∧ "a" ∈ t.value.references ∧ "a" ≠ paletteSettings.flag.text ∧
      ∃ j, (∀ j', (c.tokens.map Token.key)[j']? = some "a" ↔ j' = j) ∧
        (j < 0 ∨ c.loaded.table.graph.DependsOn "a" t.key) := by
  obtain ⟨loaded, hload, hsorted⟩ := load_cyclicFiles
  obtain ⟨output, hemit⟩ := emit_tcl paletteSettings.ns.text paletteSettings.generator.text
    ⟨2025, 1, 2, 3, 4, 5⟩ loaded.table.sorted
  have hcompile := compile_eq_ok_iff.2 ⟨loaded, output, hload, hemit, rfl⟩
  obtain ⟨t, rest, htokens, ht, -⟩ := List.map_eq_cons_iff.1 hsorted
  have hfirst : loaded.table.sorted[0]? = some t := by rw [htokens]; rfl
  have hreads : "a" ∈ t.value.references := by
    rw [(Prod.mk.inj ht).2]
    exact List.mem_singleton_self _
  have hflag : "a" ≠ paletteSettings.flag.text := by decide
  exact ⟨_, t, hcompile, hfirst, hreads, hflag,
    references_declared hcompile hfirst hreads hflag⟩

end DesignTokens
