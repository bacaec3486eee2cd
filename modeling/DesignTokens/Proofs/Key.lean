import DesignTokens.Key
import DesignTokens.Proofs.Except

/-!
# Proofs/Key — sorting keys

* `Key.perm_sort` — sorting keys neither loses a key nor makes one.
-/

namespace DesignTokens.Key

open Text

variable {keys sorted : List String} {parts : List (String × KeyParts)}

theorem length_of_mapM_split {ps : List KeyParts} (h : keys.mapM split = .ok ps) :
    ps.length = keys.length := by
  induction keys generalizing ps with
  | nil =>
    cases h
    rfl
  | cons key keys ih =>
    rw [List.mapM_cons] at h
    obtain ⟨p, -, h⟩ := bind_eq_ok h
    obtain ⟨ps', hrest, h⟩ := bind_eq_ok h
    cases h
    rw [List.length_cons, List.length_cons, ih hrest]

/-- Taken apart, the keys stand where they stood. -/
theorem map_fst_splitAll (h : splitAll keys = .ok parts) : parts.map Prod.fst = keys := by
  match keys with
  | [] =>
    cases h
    rfl
  | [a] =>
    cases h
    rfl
  | a :: b :: rest =>
    rw [splitAll] at h
    obtain ⟨pb, -, h⟩ := bind_eq_ok h
    obtain ⟨pa, -, h⟩ := bind_eq_ok h
    obtain ⟨ps, hps, h⟩ := bind_eq_ok h
    cases h
    have hlength : rest.length ≤ ps.length := Nat.le_of_eq (length_of_mapM_split hps).symm
    rw [List.map_cons, List.map_cons, List.map_fst_zip hlength]

/-- A key alone is in order, whatever it is. -/
theorem sort_singleton (key : String) : sort [key] = .ok [key] := by
  rw [sort, splitAll]
  exact congrArg Except.ok (by rw [List.mergeSort_singleton, List.map_singleton])

/-- **Sorting neither loses a key nor makes one.** -/
theorem perm_sort (h : sort keys = .ok sorted) : sorted.Perm keys := by
  rw [sort] at h
  obtain ⟨parts, hparts, h⟩ := bind_eq_ok h
  cases h
  have hperm := (List.mergeSort_perm parts fun a b => (a.2.compare b.2).isLE).map Prod.fst
  rwa [map_fst_splitAll hparts] at hperm

end DesignTokens.Key
