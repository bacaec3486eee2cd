import DesignTokens.Text.Space

/-!
# Alias — placeholders for the value of another token

A placeholder is a key between braces, and nothing else: the key is not empty and holds neither
white space nor a brace.

* `key?_eq_some_iff`, `read?_eq_some_iff` — reading accepts exactly the written placeholders.
-/

namespace DesignTokens.Alias

open Text

/-- Whether a character may stand in the key of a placeholder. -/
def isKeyChar (c : Char) : Bool := !isSpace c && c != '\x7b' && c != '\x7d'

/-- Whether a key may stand in a placeholder. -/
def IsKey (key : List Char) : Prop := key ≠ [] ∧ ∀ c ∈ key, isKeyChar c = true

/-- The placeholder for a key. -/
def placeholder (key : List Char) : List Char := '\x7b' :: key ++ ['\x7d']

/-- The key of a placeholder. -/
def key? : List Char → Option (List Char)
  | [] => none
  | c :: rest =>
    let key := rest.takeWhile isKeyChar
    if c = '\x7b' ∧ key ≠ [] ∧ rest.dropWhile isKeyChar = ['\x7d'] then some key else none

/-- **Reading accepts exactly the written placeholders.** -/
theorem key?_eq_some_iff {cs key : List Char} :
    key? cs = some key ↔ IsKey key ∧ cs = placeholder key := by
  constructor
  · intro h
    match cs with
    | [] => simp [key?] at h
    | c :: rest =>
      simp only [key?] at h
      split at h
      · rename_i hc
        obtain ⟨rfl, hk, hd⟩ := hc
        cases h
        refine ⟨⟨hk, fun c hc => ?_⟩, ?_⟩
        · exact (List.all_takeWhile (p := isKeyChar) (l := rest) ▸ List.all_eq_true).1 rfl c hc
        · rw [placeholder, List.cons_append, ← hd, List.takeWhile_append_dropWhile]
      · cases h
  · rintro ⟨⟨hne, hall⟩, rfl⟩
    have ht : (key ++ ['\x7d']).takeWhile isKeyChar = key := by
      rw [List.takeWhile_append_of_pos hall]
      simp [isKeyChar]
    have hd : (key ++ ['\x7d']).dropWhile isKeyChar = ['\x7d'] := by
      rw [List.dropWhile_append_of_pos hall]
      simp [isKeyChar]
    simp [key?, placeholder, ht, hd, hne]

/-- The key of a placeholder that fills a whole string. -/
def read? (s : String) : Option String := (key? s.toList).map String.ofList

/-- **A string is read exactly when it is a written placeholder.** -/
theorem read?_eq_some_iff {s key : String} :
    read? s = some key ↔ IsKey key.toList ∧ s.toList = placeholder key.toList := by
  rw [← key?_eq_some_iff, read?, Option.map_eq_some_iff]
  constructor
  · rintro ⟨cs, hcs, rfl⟩
    rwa [String.toList_ofList]
  · intro h
    exact ⟨key.toList, h, String.ofList_toList⟩

theorem read?_eq_none_iff {s : String} :
    read? s = none ↔ ¬ ∃ key, IsKey key ∧ s.toList = placeholder key := by
  rw [read?, Option.map_eq_none_iff, Option.eq_none_iff_forall_ne_some, not_exists]
  exact forall_congr' fun key => not_congr key?_eq_some_iff

theorem read?_eq_none {s : String} (h : ∀ key, s.toList ≠ placeholder key) : read? s = none :=
  read?_eq_none_iff.2 fun ⟨key, _, hs⟩ => h key hs

end DesignTokens.Alias
