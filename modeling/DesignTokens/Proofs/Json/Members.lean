import DesignTokens.Proofs.Except
import DesignTokens.Proofs.Utf8
import DesignTokens.TokenFile

/-!
# Proofs/Json/Members — the members of objects that were read

* `Json.nodup_of_read` — in an object that was read no name comes twice.
* `TokenFile.read_eq_ok` — the entries of a token file are an object that was read.
* `TokenFile.read_of_text` — a text that stands in a file is read as JSON.
-/

namespace DesignTokens

namespace Entries

variable {α β : Type} [DecidableEq α]

/-- **Pairs that are written one after the other make entries with distinct keys.** -/
theorem nodup_ofList (pairs : List (α × β)) : ((ofList pairs).map Prod.fst).Nodup := by
  have hfold : ∀ es : List (α × β), (es.map Prod.fst).Nodup →
      ((pairs.foldl (fun es p => put p.1 p.2 es) es).map Prod.fst).Nodup := by
    induction pairs with
    | nil => exact fun es h => h
    | cons p pairs ih => exact fun es h => ih _ (nodup_put h)
  exact hfold [] List.nodup_nil

end Entries

namespace Json

variable {fuel room : Nat} {cs rest start : List Char} {v : Value} {ms : List (String × Value)}

/-- The words and the numbers are no objects. -/
theorem unsigned_ne_object {negative : Bool} :
    unsigned start negative cs ≠ .ok (.object ms, rest) := by
  intro h
  unfold unsigned at h
  split at h
  · cases h
  · simp only at h
    split at h
    · cases h
    · split at h <;> cases h

theorem scalar_ne_object : scalar cs ≠ .ok (.object ms, rest) := by
  intro h
  unfold scalar at h
  split at h
  · rename_i w hw
    have hmem := List.mem_of_find?_eq_some hw
    have hobject : w.2 = .object ms := congrArg Prod.fst (Except.ok.inj h)
    have hnone : ∀ w ∈ words, w.2 ≠ .object ms := by simp [words]
    exact hnone w hmem hobject
  · split at h
    · exact unsigned_ne_object h
    · exact unsigned_ne_object h

/-- **In an object that was read no name comes twice.** -/
theorem nodup_of_value (h : value fuel room cs = .ok (.object ms, rest)) :
    (ms.map Prod.fst).Nodup := by
  cases fuel with
  | zero =>
    unfold value at h
    cases h
  | succ fuel =>
    unfold value at h
    split at h
    · obtain ⟨r, -, he⟩ := map_eq_ok h
      cases he
    · split at h
      · cases h
      · split at h
        · cases h
          exact List.nodup_nil
        · obtain ⟨r, -, he⟩ := map_eq_ok h
          cases he
          exact Entries.nodup_ofList r.1
    · split at h
      · cases h
      · split at h
        · cases h
        · obtain ⟨r, -, he⟩ := map_eq_ok h
          cases he
    · exact absurd h scalar_ne_object

theorem nodup_of_read (h : read room cs = .ok (.object ms)) : (ms.map Prod.fst).Nodup := by
  unfold read at h
  split at h
  · rename_i v hv
    cases h
    unfold document at hv
    split at hv
    · cases hv
    · obtain ⟨⟨v, rest⟩, hvalue, hv⟩ := bind_eq_ok hv
      simp only at hv
      split at hv
      · cases hv
        exact nodup_of_value hvalue
      · cases hv
  · cases h
  · cases h
  · cases h

end Json

namespace TokenFile

open Text

variable {fs : Files} {path : Path} {bytes : List UInt8} {entries : Entries}

theorem ofBytes_eq_ok {room : Nat} (h : ofBytes room path bytes = .ok entries) :
    ∃ cs, decodeUtf8 bytes = .ok cs ∧
      Json.read room (unifyNewlines cs) = .ok (.object entries) := by
  unfold ofBytes at h
  split at h
  · cases h
  · rename_i cs hdecode
    split at h
    · cases h
    · cases h
    · cases h
    · rename_i members hread
      cases h
      exact ⟨cs, hdecode, hread⟩
    · cases h

/-- The entries of a token file are the object that its text is. -/
theorem read_eq_ok (h : read fs path = .ok entries) : ∃ bytes cs, fs path = .file bytes ∧
    decodeUtf8 bytes = .ok cs ∧
      Json.read fs.nesting (unifyNewlines cs) = .ok (.object entries) := by
  unfold read at h
  split at h
  · cases h
  · cases h
  · rename_i hkind
    split at h
    · cases h
    · rename_i bytes hbytes
      obtain ⟨cs, hdecode, hread⟩ := ofBytes_eq_ok h
      exact ⟨bytes, cs, Files.eq_file_iff.2 ⟨hkind, hbytes⟩, hdecode, hread⟩

/-- What a text that stands in a file is read as. -/
theorem read_of_text {t : String} (hfile : fs path = .file t.toUTF8.toList)
    (hread : Json.read fs.nesting (unifyNewlines t.toList) = .ok (.object entries)) :
    read fs path = .ok entries := by
  obtain ⟨hkind, hbytes⟩ := Files.eq_file_iff.1 hfile
  simp only [read, hkind, hbytes, ofBytes, decodeUtf8_toUTF8, hread]

/-- **In a token file that was read no key comes twice.** -/
theorem nodup_read (h : read fs path = .ok entries) : (entries.map Prod.fst).Nodup := by
  obtain ⟨bytes, cs, -, -, hread⟩ := read_eq_ok h
  exact Json.nodup_of_read hread

end TokenFile

end DesignTokens
