import DesignTokens.Text.Utf8
import Mathlib.Data.List.Basic

/-!
# Proofs/Utf8 — what is written in UTF-8 is read back

A character is written in one byte to four, and the bounds on a second byte, which keep out the
other ways of writing it, **hold of the way in which it is written**.

* `decodeUtf8_toUTF8` — the bytes of a text are read as the text.
-/

namespace DesignTokens.Text

variable {c : Char} {pos : ℕ} {p : Utf8Partial} {rest : List UInt8}

/-! ## Bytes of a text -/

theorem toList_loop_eq (bytes : ByteArray) (i : ℕ) (r : List UInt8) :
    ByteArray.toList.loop bytes i r = r.reverse ++ bytes.data.toList.drop i := by
  fun_induction ByteArray.toList.loop bytes i r with
  | case1 i r hi ih =>
    have hlength : i < bytes.data.toList.length := by simpa using hi
    have hget : bytes.get! i = bytes.data.toList[i] := by
      rw [Array.getElem_toList]
      exact getElem!_pos bytes.data i hi
    rw [ih, List.drop_eq_getElem_cons hlength, hget]
    simp
  | case2 i r hi =>
    rw [List.drop_eq_nil_of_le (by simpa using Nat.le_of_not_lt hi), List.append_nil]

/-- The bytes of a text are those of its characters. -/
theorem toList_toUTF8 (t : String) :
    t.toUTF8.toList = t.toList.flatMap String.utf8EncodeChar := by
  have hbytes : t.toUTF8 = t.toList.utf8Encode := String.utf8Encode_toList.symm
  rw [hbytes, ByteArray.toList, toList_loop_eq, List.utf8Encode, List.toList_data_toByteArray]
  rfl

/-! ## Characters -/

theorem toNat_ofNat {n : ℕ} (h : n < 256) : (UInt8.ofNat n).toNat = n := by
  rw [UInt8.toNat_ofNat']
  exact Nat.mod_eq_of_lt h

/-- The first byte of a character of two. -/
theorem ofByte_two {n : ℕ} (hlow : 2 ≤ n) (hhigh : n < 0x20) :
    Utf8Lead.ofByte pos (UInt8.ofNat (n + 0xC0)) =
      .more ⟨pos, UInt8.ofNat (n + 0xC0), n, 0, 0x80, 0xBF⟩ := by
  rw [Utf8Lead.ofByte, toNat_ofNat (by omega), if_neg (by omega), if_neg (by omega),
    if_pos (by omega), Nat.add_sub_cancel]

/-- The first byte of a character of three. -/
theorem ofByte_three {n : ℕ} (h : n < 0x10) :
    Utf8Lead.ofByte pos (UInt8.ofNat (n + 0xE0)) =
      .more ⟨pos, UInt8.ofNat (n + 0xE0), n, 1, if n + 0xE0 = 0xE0 then 0xA0 else 0x80,
        if n + 0xE0 = 0xED then 0x9F else 0xBF⟩ := by
  rw [Utf8Lead.ofByte, toNat_ofNat (by omega), if_neg (by omega), if_neg (by omega),
    if_neg (by omega), if_pos (by omega), Nat.add_sub_cancel]

/-- The first byte of a character of four. -/
theorem ofByte_four {n : ℕ} (h : n < 5) :
    Utf8Lead.ofByte pos (UInt8.ofNat (n + 0xF0)) =
      .more ⟨pos, UInt8.ofNat (n + 0xF0), n, 2, if n + 0xF0 = 0xF0 then 0x90 else 0x80,
        if n + 0xF0 = 0xF4 then 0x8F else 0xBF⟩ := by
  rw [Utf8Lead.ofByte, toNat_ofNat (by omega), if_neg (by omega), if_neg (by omega),
    if_neg (by omega), if_neg (by omega), if_pos (by omega), Nat.add_sub_cancel]

theorem decodeFrom_lead {b : UInt8} (h : Utf8Lead.ofByte pos b = .more p) :
    decodeFrom pos none (b :: rest) = decodeFrom (pos + 1) (some p) rest := by
  rw [decodeFrom, h]

/-- A byte within its bounds that is the last one makes up a character. -/
theorem decodeFrom_last {n : ℕ} (hn : n < 64) (hlow : p.low ≤ n + 0x80) (hhigh : n + 0x80 ≤ p.high)
    (howed : p.owed = 0) (hbits : p.bits * 64 + n = c.toNat) :
    decodeFrom pos (some p) (UInt8.ofNat (n + 0x80) :: rest) =
      (decodeFrom (pos + 1) none rest).map (c :: ·) := by
  have hbyte := toNat_ofNat (n := n + 0x80) (by omega)
  rw [decodeFrom, hbyte, if_pos ⟨hlow, hhigh⟩]
  simp only [howed, Nat.add_sub_cancel, hbits, Char.ofNat_toNat]

/-- A byte within its bounds that is not the last one is taken in. -/
theorem decodeFrom_next {n owed : ℕ} (hn : n < 64) (hlow : p.low ≤ n + 0x80)
    (hhigh : n + 0x80 ≤ p.high) (howed : p.owed = owed + 1) :
    decodeFrom pos (some p) (UInt8.ofNat (n + 0x80) :: rest) =
      decodeFrom (pos + 1) (some ⟨p.start, p.first, p.bits * 64 + n, owed, 0x80, 0xBF⟩) rest := by
  have hbyte := toNat_ofNat (n := n + 0x80) (by omega)
  rw [decodeFrom, hbyte, if_pos ⟨hlow, hhigh⟩]
  simp only [howed, Nat.add_sub_cancel]

/-- **The bytes of a character are read as the character.** -/
theorem decodeFrom_utf8EncodeChar (c : Char) (pos : ℕ) (rest : List UInt8) :
    ∃ pos', decodeFrom pos none (String.utf8EncodeChar c ++ rest) =
      (decodeFrom pos' none rest).map (c :: ·) := by
  -- half of a surrogate pair is no character
  have hvalid : c.toNat < 0xD800 ∨ 0xDFFF < c.toNat ∧ c.toNat < 0x110000 := c.valid
  have hval : c.val.toNat = c.toNat := rfl
  unfold String.utf8EncodeChar
  simp only [hval]
  split
  · have hbyte := toNat_ofNat (n := c.toNat) (by omega)
    refine ⟨pos + 1, ?_⟩
    rw [List.singleton_append, decodeFrom, Utf8Lead.ofByte, hbyte, if_pos (by omega),
      Char.ofNat_toNat]
  split
  · refine ⟨pos + 1 + 1, ?_⟩
    rw [List.cons_append, List.singleton_append,
      decodeFrom_lead (ofByte_two (by omega) (by omega))]
    exact decodeFrom_last (by omega) (by simp only; omega) (by simp only; omega) rfl
      (by simp only; omega)
  split
  · refine ⟨pos + 1 + 1 + 1, ?_⟩
    rw [List.cons_append, List.cons_append, List.singleton_append,
      decodeFrom_lead (ofByte_three (by omega)),
      decodeFrom_next (by omega) (by simp only; split <;> omega)
        (by simp only; split <;> omega) rfl]
    exact decodeFrom_last (by omega) (by simp only; omega) (by simp only; omega) rfl
      (by simp only; omega)
  · refine ⟨pos + 1 + 1 + 1 + 1, ?_⟩
    rw [List.cons_append, List.cons_append, List.cons_append, List.singleton_append,
      decodeFrom_lead (ofByte_four (by omega)),
      decodeFrom_next (by omega) (by simp only; split <;> omega)
        (by simp only; split <;> omega) rfl,
      decodeFrom_next (by omega) (by simp only; omega) (by simp only; omega) rfl]
    exact decodeFrom_last (by omega) (by simp only; omega) (by simp only; omega) rfl
      (by simp only; omega)

/-- **The bytes of a text are read as the text.** -/
theorem decodeUtf8_toUTF8 (t : String) : decodeUtf8 t.toUTF8.toList = .ok t.toList := by
  have h : ∀ (cs : List Char) (pos : ℕ),
      decodeFrom pos none (cs.flatMap String.utf8EncodeChar) = .ok cs := by
    intro cs
    induction cs with
    | nil => exact fun _ => rfl
    | cons c cs ih =>
      intro pos
      obtain ⟨pos', hc⟩ := decodeFrom_utf8EncodeChar c pos (cs.flatMap String.utf8EncodeChar)
      rw [List.flatMap_cons, hc, ih]
      rfl
  rw [decodeUtf8, toList_toUTF8, h]

end DesignTokens.Text
