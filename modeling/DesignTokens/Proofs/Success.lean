import DesignTokens.Proofs.Diagnostics
import DesignTokens.Proofs.Target.Python

/-!
# Proofs/Success — a compilation fails only while loading

Once a directory is loaded nothing stands in the way of a compilation, whatever the format: no
look-up of the schedule misses, every scheduled and every skipped key has its token, and both
targets have words for whatever is read in an entry.

* `Expr.IsRead.exists_render` — what is read can be written in any format.
* `compile_of_load` — a directory that loads is compiled.
-/

namespace DesignTokens

variable {fs : Files} {directory : Path} {s : Settings} {l : Loaded} {e : Expr} {ts : List Token}

/-- **What is read in an entry can be written**, in any format. -/
theorem Expr.IsRead.exists_render (h : e.IsRead) (format : OutputFormat) (ns : String) :
    ∃ text, e.render (format.target ns) = .ok text := by
  cases format with
  | tcl => exact ⟨_, Tcl.render_eq ns e⟩
  | python => exact ⟨_, Python.render_eq (Python.isLegible_of_isRead h)⟩

/-- Tokens whose values are read in entries can be declared in a document, in any format. -/
theorem exists_emit (h : ∀ t ∈ ts, t.value.IsRead) (format : OutputFormat) (ns generator : String)
    (time : Timestamp) : ∃ text, emit (format.target ns) generator time ts = .ok text := by
  cases format with
  | tcl => exact ⟨_, Tcl.emit_eq ns generator time ts⟩
  | python =>
    exact ⟨_, Python.emit_python_eq generator time fun t ht => Python.isLegible_of_isRead (h t ht)⟩

/-- Scheduled and skipped keys have their tokens. -/
theorem TokenTable.exists_get?_of_mem_schedule {t : TokenTable} {k : String}
    (hk : k ∈ t.graph.schedule.order ∨ k ∈ t.graph.schedule.skipped.keys) :
    ∃ token, t.get? k = some token := by
  have hkeys : k ∈ t.graph.keys := hk.elim (fun ho => (Graph.mem_order_schedule_iff.1 ho).1)
    fun hs => (Graph.mem_skipped_schedule_iff.1 hs).1
  rw [keys_graph] at hkeys
  exact OrderedMap.mem_keys_iff.1 hkeys

/-- **A directory that loads is compiled**, in any format.  No look-up of the schedule misses and
the keys that are scheduled or skipped have their tokens; and whatever may be read in an entry, of
this directory or of another one, can be written for either target. -/
theorem compile_of_load (h : load fs directory s = .ok l) (time : Timestamp) :
    (∃ output, compile fs directory s time = .ok ⟨l, l.table.graph.schedule, output⟩) ∧
      (Search.start l.table.graph).tryRun = .ok (Search.start l.table.graph).run ∧
      (∀ k, k ∈ l.table.graph.schedule.order ∨ k ∈ l.table.graph.schedule.skipped.keys →
        ∃ t, l.table.get? k = some t) ∧
      ∀ (category : Category) (flag key : String) (entry : Json.Value) (e : Expr),
        category.read flag key entry = .ok (some e) → ∀ (format : OutputFormat) (ns : String),
          ∃ text, e.render (format.target ns) = .ok text := by
  obtain ⟨output, hemit⟩ := exists_emit (fun t ht => Loaded.isRead_of_mem_sorted h ht) s.format
    s.ns.text s.generator.text time
  refine ⟨⟨output, compile_eq_ok_iff.2 ⟨l, output, h, hemit, rfl⟩⟩, ?_, fun k hk => ?_, ?_⟩
  · exact Search.tryRun_eq (.start l.table.graph) (Search.atRest_start l.table.graph)
  · exact TokenTable.exists_get?_of_mem_schedule hk
  · intro category flag key entry e hread format ns
    exact Expr.IsRead.exists_render ⟨category, flag, key, entry, hread⟩ format ns

/-- The three files of a small directory, compiled for the other target. -/
theorem compile_of_load_small :
    load smallFiles ⟨.here, ["tokens"]⟩ { smallSettings with format := .python } =
        .ok smallLoaded ∧
      ∃ output, compile smallFiles ⟨.here, ["tokens"]⟩ { smallSettings with format := .python }
        ⟨2025, 1, 2, 3, 4, 5⟩ = .ok ⟨smallLoaded, smallLoaded.table.graph.schedule, output⟩ := by
  have hload : load smallFiles ⟨.here, ["tokens"]⟩ { smallSettings with format := .python } =
      .ok smallLoaded := load_smallFiles
  exact ⟨hload, (compile_of_load hload ⟨2025, 1, 2, 3, 4, 5⟩).1⟩

end DesignTokens
