import DesignTokens.Load
import DesignTokens.Proofs.Key
import DesignTokens.Proofs.Table

/-!
# Proofs/Load — the table of a directory

Whatever a run goes through is made of an entry of one of its files, and a token is stored with the
dependencies of its value.

* `load_eq_ok_iff` — when a directory is loaded, and as what.
* `derived_load` — in the table of a directory each token depends on what its value reads.
-/

namespace DesignTokens

variable {flag key : String} {o : Occurrence} {token : Token}

namespace PlannedFile

variable {file : PlannedFile} {entry : Json.Value} {keys : List String}

/-- A token is stored with what its value depends on. -/
theorem dependencies_occurrence (h : file.occurrence flag key entry = .ok (.stored token)) :
    token.dependencies = token.value.dependencies flag := by
  unfold occurrence at h
  split at h <;> cases h
  rfl

theorem exists_of_mem_walkKeys (h : o ∈ (file.walkKeys flag keys).occurrences) :
    ∃ key entry, file.occurrence flag key entry = .ok o := by
  induction keys with
  | nil => exact absurd h List.not_mem_nil
  | cons key rest ih =>
    rw [walkKeys] at h
    split at h
    · exact absurd h List.not_mem_nil
    · rename_i o' ho'
      rcases List.mem_cons.1 h with rfl | h
      · exact ⟨key, _, ho'⟩
      · exact ih h

theorem exists_of_mem_walk (h : o ∈ (file.walk flag).occurrences) :
    ∃ key entry, file.occurrence flag key entry = .ok o := by
  unfold walk at h
  split at h
  · exact absurd h List.not_mem_nil
  · exact exists_of_mem_walkKeys h

/-- In a file with one entry that entry is all that is gone through. -/
theorem walk_singleton (hfile : file.entries = [(key, entry)])
    (h : file.occurrence flag key entry = .ok o) : file.walk flag = ⟨[o], none⟩ := by
  have hget : (Entries.get? key [(key, entry)]).getD .null = entry := by
    rw [Entries.get?, if_pos rfl, Option.getD_some]
  rw [walk, hfile, List.map_singleton, Key.sort_singleton]
  simp only [walkKeys, hfile, hget, h]

end PlannedFile

/-- **Every occurrence is made of an entry** of one of the files. -/
theorem exists_of_mem_walkFiles {files : List PlannedFile}
    (h : o ∈ (walkFiles flag files).occurrences) :
    ∃ file ∈ files, ∃ key entry, file.occurrence flag key entry = .ok o := by
  induction files with
  | nil => exact absurd h List.not_mem_nil
  | cons file rest ih =>
    rw [walkFiles] at h
    split at h
    · exact ⟨file, List.mem_cons_self, PlannedFile.exists_of_mem_walk h⟩
    · rcases List.mem_append.1 h with h | h
      · exact ⟨file, List.mem_cons_self, PlannedFile.exists_of_mem_walk h⟩
      · obtain ⟨file', hfile', h'⟩ := ih h
        exact ⟨file', List.mem_cons_of_mem _ hfile', h'⟩

/-! ## Directories -/

variable {fs : Files} {directory : Path} {s : Settings} {l : Loaded}

/-- **What loading comes to**: a plan that is read, whose files are gone through to the end. -/
theorem load_eq_ok_iff : load fs directory s = .ok l ↔
    readPlan fs directory s.plan = .ok l.files ∧ (walkFiles s.flag.text l.files).stop = none ∧
      l.occurrences = (walkFiles s.flag.text l.files).occurrences := by
  unfold load
  constructor
  · intro h
    split at h
    · cases h
    · rename_i files hfiles
      simp only at h
      split at h
      · cases h
      · rename_i hnone
        cases h
        exact ⟨hfiles, hnone, rfl⟩
  · rintro ⟨hfiles, hnone, hoccurrences⟩
    simp only [hfiles, hnone, ← hoccurrences]

/-- **In the table of a directory each token depends on what its value reads.** -/
theorem derived_load (h : load fs directory s = .ok l) : l.table.Derived s.flag.text := by
  refine TokenTable.derived_ofList fun token htoken => ?_
  obtain ⟨o, ho, hstored⟩ := List.mem_filterMap.1 htoken
  rw [(load_eq_ok_iff.1 h).2.2] at ho
  obtain ⟨file, -, key, entry, hentry⟩ := exists_of_mem_walkFiles ho
  cases o with
  | stored token' =>
    cases hstored
    exact PlannedFile.dependencies_occurrence hentry
  | dropped d => cases hstored
  | ignored key => cases hstored

end DesignTokens
