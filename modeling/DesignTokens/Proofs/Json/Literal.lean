import DesignTokens.Json.Reader
import DesignTokens.Json.Writer

/-!
# Proofs/Json/Literal — string literals read back

A string literal is written in visible ASCII characters, and reading it gives the string that was
written and leaves what came behind it.  So a literal says **where it ends**, whatever the string
holds and whatever follows.

* `string_literal` — reading gives back what was written.
* `literal_append_inj` — a literal at the front of a text determines the string and the rest.
* `isVisibleAscii_of_mem_literal` — the characters of a literal.
-/

namespace DesignTokens

namespace Text

/-- A printable ASCII character. -/
def IsVisibleAscii (c : Char) : Prop := 0x20 ≤ c.toNat ∧ c.toNat ≤ 0x7E

instance : DecidablePred IsVisibleAscii := fun c =>
  inferInstanceAs (Decidable (0x20 ≤ c.toNat ∧ c.toNat ≤ 0x7E))

theorem isVisibleAscii_hexDigit : ∀ n < 16, IsVisibleAscii (hexDigit n) := by decide

theorem isVisibleAscii_of_mem_hexDigits {c : Char} {width n : Nat} (h : c ∈ hexDigits width n) :
    IsVisibleAscii c := by
  induction width generalizing n with
  | zero => exact absurd h List.not_mem_nil
  | succ width ih =>
    rcases List.mem_append.1 h with h | h
    · exact ih h
    · rw [List.mem_singleton.1 h]
      exact isVisibleAscii_hexDigit _ (Nat.mod_lt n (by decide))

/-- A character is no half of a surrogate pair. -/
theorem not_surrogate (c : Char) : ¬ (0xD800 ≤ c.toNat ∧ c.toNat ≤ 0xDFFF) := by
  rintro ⟨hlow, hhigh⟩
  have hlow : 0xD800 ≤ c.val.toNat := hlow
  have hhigh : c.val.toNat ≤ 0xDFFF := hhigh
  rcases c.valid with h | h
  · have h : c.val.toNat < 0xD800 := h
    omega
  · have h : 0xDFFF < c.val.toNat := h.1
    omega

theorem toNat_lt (c : Char) : c.toNat < 0x110000 := by
  rcases c.valid with h | h
  · have h : c.val.toNat < 0xD800 := h
    exact Nat.lt_trans h (by decide)
  · exact h.2

end Text

namespace Json

open Text

variable {start rest t : List Char} {c d : Char} {n high low : Nat} {s s' : String}

/-! ## How characters are written -/

/-- The first code unit of a character past U+FFFF. -/
def highUnit (c : Char) : Nat := 0xD800 + (c.toNat - 0x10000) / 0x400

/-- The second one. -/
def lowUnit (c : Char) : Nat := 0xDC00 + (c.toNat - 0x10000) % 0x400

/-- The letters and marks that are written behind a backslash. -/
def escapeLetters : List Char := ['"', '\\', 'n', 'r', 't', 'f', 'b']

/-- The ways in which a character is written in a literal. -/
inductive Escaped (c : Char) : List Char → Prop
  | letter {l : Char} (mem : l ∈ escapeLetters) (stands : letterEscape? l = some c) :
      Escaped c ['\\', l]
  | plain (quote : c ≠ '"') (backslash : c ≠ '\\') (visible : IsVisibleAscii c) : Escaped c [c]
  | unit (lt : c.toNat < 0x10000) : Escaped c (unitEscape c.toNat)
  | pair (le : 0x10000 ≤ c.toNat) : Escaped c (unitEscape (highUnit c) ++ unitEscape (lowUnit c))

/-- **Every character is written in one of these ways.** -/
theorem escaped_escapeChar (c : Char) : Escaped c (escapeChar c) := by
  unfold escapeChar
  split
  · rename_i h
    exact h ▸ .letter (l := '"') (by decide) rfl
  split
  · rename_i h
    exact h ▸ .letter (l := '\\') (by decide) rfl
  split
  · rename_i h
    exact h ▸ .letter (l := 'n') (by decide) rfl
  split
  · rename_i h
    exact h ▸ .letter (l := 'r') (by decide) rfl
  split
  · rename_i h
    exact h ▸ .letter (l := 't') (by decide) rfl
  split
  · rename_i h
    exact h ▸ .letter (l := 'f') (by decide) rfl
  split
  · rename_i h
    exact h ▸ .letter (l := 'b') (by decide) rfl
  split
  · exact .plain ‹_› ‹_› ‹_›
  split
  · exact .unit ‹_›
  · exact .pair (Nat.le_of_not_lt ‹_›)

theorem isVisibleAscii_of_mem_unitEscape (h : c ∈ unitEscape n) : IsVisibleAscii c := by
  rcases List.mem_cons.1 h with rfl | h
  · decide
  rcases List.mem_cons.1 h with rfl | h
  · decide
  · exact isVisibleAscii_of_mem_hexDigits h

theorem Escaped.isVisibleAscii {cs : List Char} (h : Escaped c cs) :
    ∀ d ∈ cs, IsVisibleAscii d := by
  intro d hd
  cases h with
  | letter mem _ =>
    have hletters : ∀ l ∈ escapeLetters, decide (IsVisibleAscii l) = true :=
      List.all_eq_true.1 rfl
    rcases List.mem_cons.1 hd with rfl | hd
    · decide
    · rw [List.mem_singleton.1 hd]
      exact of_decide_eq_true (hletters _ mem)
  | plain _ _ visible => rwa [List.mem_singleton.1 hd]
  | unit lt => exact isVisibleAscii_of_mem_unitEscape hd
  | pair le =>
    rcases List.mem_append.1 hd with hd | hd
    · exact isVisibleAscii_of_mem_unitEscape hd
    · exact isVisibleAscii_of_mem_unitEscape hd

/-- **A literal is written in visible ASCII characters.** -/
theorem isVisibleAscii_of_mem_literal (h : c ∈ (literal s).toList) : IsVisibleAscii c := by
  rw [literal, String.toList_ofList, List.cons_append, List.mem_cons, List.mem_append,
    List.mem_singleton] at h
  rcases h with rfl | h | rfl
  · decide
  · obtain ⟨d, -, hd⟩ := List.mem_flatMap.1 h
    exact (escaped_escapeChar d).isVisibleAscii c hd
  · decide

/-! ## Reading escapes -/

/-- A code unit that is written is read back, where something follows it. -/
theorem codeUnit_hexDigits (hn : n < 0x10000) (ht : t ≠ []) :
    codeUnit (hexDigits 4 n ++ t) = .ok n := by
  have hlength : ¬ (hexDigits 4 n ++ t).length ≤ 4 := by
    have := List.length_pos_iff.2 ht
    rw [List.length_append, length_hexDigits]
    omega
  have htake : (hexDigits 4 n ++ t).take 4 = hexDigits 4 n := List.take_left' (length_hexDigits 4 n)
  rw [codeUnit, if_neg hlength, htake, hexNumber?_hexDigits, Nat.mod_eq_of_lt hn]

theorem drop_hexDigits (n : Nat) (t : List Char) : (hexDigits 4 n ++ t).drop 4 = t :=
  List.drop_left' (length_hexDigits 4 n)

/-- The escape of a code unit that is no half of a pair is read alone. -/
theorem escape_unit (hn : n < 0x10000) (ht : t ≠ []) (hsingle : ¬ (0xD800 ≤ n ∧ n ≤ 0xDFFF)) :
    escape start ('u' :: (hexDigits 4 n ++ t)) = .ok (Char.ofNat n, 5) := by
  have hchar : unitChar n = Char.ofNat n := if_neg hsingle
  rw [escape, codeUnit_hexDigits hn ht]
  simp only [drop_hexDigits]
  dsimp only [bind, Except.bind]
  split
  · rename_i more
    rw [if_neg fun h => hsingle ⟨h.1, Nat.le_trans h.2.1 (by decide)⟩, hchar]
    rfl
  · rw [hchar]
    rfl

/-- The escapes of the two halves of a pair are read together. -/
theorem escape_pair (hhigh : 0xD800 ≤ high ∧ high ≤ 0xDBFF) (hlow : 0xDC00 ≤ low ∧ low ≤ 0xDFFF)
    (ht : t ≠ []) :
    escape start ('u' :: (hexDigits 4 high ++ '\\' :: 'u' :: (hexDigits 4 low ++ t))) =
      .ok (Char.ofNat (0x10000 + (high - 0xD800) * 0x400 + (low - 0xDC00)), 11) := by
  have hmore : 4 < (hexDigits 4 low ++ t).length := by
    have := List.length_pos_iff.2 ht
    rw [List.length_append, length_hexDigits]
    omega
  rw [escape, codeUnit_hexDigits (Nat.lt_of_le_of_lt hhigh.2 (by decide)) (List.cons_ne_nil _ _)]
  simp only [drop_hexDigits]
  change (if 0xD800 ≤ high ∧ high ≤ 0xDBFF ∧ 4 < (hexDigits 4 low ++ t).length then _ else _) = _
  rw [if_pos ⟨hhigh.1, hhigh.2, hmore⟩,
    codeUnit_hexDigits (Nat.lt_of_le_of_lt hlow.2 (by decide)) ht]
  exact if_pos hlow

/-! ## Reading strings -/

/-- Reading passes over the characters of an escape. -/
theorem stringBody_append (start cs t : List Char) :
    stringBody start cs.length (cs ++ t) = stringBody start 0 t := by
  induction cs with
  | nil => rfl
  | cons c cs ih => rw [List.cons_append, List.length_cons, stringBody, ih]

theorem stringBody_backslash (cs : List Char) (h : escape start (cs ++ t) = .ok (d, cs.length)) :
    stringBody start 0 ('\\' :: (cs ++ t)) =
      (stringBody start 0 t).map fun r => (d :: r.1, r.2) := by
  rw [stringBody, if_neg (by decide), if_pos rfl, h]
  simp only [stringBody_append]

/-- **A character that is written is read back**, where something follows it. -/
theorem Escaped.stringBody_eq {cs : List Char} (h : Escaped c cs) (ht : t ≠ []) :
    stringBody start 0 (cs ++ t) = (stringBody start 0 t).map fun r => (c :: r.1, r.2) := by
  cases h with
  | @letter l mem stands =>
    refine stringBody_backslash [l] ?_
    rw [List.singleton_append, escape]
    · rw [stands]
      rfl
    · rintro rfl
      exact absurd mem (by decide)
  | plain quote backslash visible =>
    have hcontrol : ¬ c.toNat < 0x20 := Nat.not_lt.2 visible.1
    rw [List.singleton_append, stringBody, if_neg quote, if_neg backslash, if_neg hcontrol]
  | unit lt =>
    have hread := @escape_unit start t c.toNat lt ht (not_surrogate c)
    rw [Char.ofNat_toNat] at hread
    refine stringBody_backslash ('u' :: hexDigits 4 c.toNat) ?_
    rw [List.length_cons, length_hexDigits]
    exact hread
  | pair le =>
    have hlt := toNat_lt c
    have hread := @escape_pair start t (highUnit c) (lowUnit c)
      (by unfold highUnit; omega) (by unfold lowUnit; omega) ht
    have hback : 0x10000 + (highUnit c - 0xD800) * 0x400 + (lowUnit c - 0xDC00) = c.toNat := by
      unfold highUnit lowUnit
      omega
    rw [hback, Char.ofNat_toNat] at hread
    have hlength : ('u' :: hexDigits 4 (highUnit c) ++ unitEscape (lowUnit c)).length = 11 := by
      simp [unitEscape]
    rw [unitEscape, List.cons_append, List.cons_append]
    refine stringBody_backslash ('u' :: hexDigits 4 (highUnit c) ++ unitEscape (lowUnit c)) ?_
    rw [hlength, List.cons_append, List.cons_append, List.append_assoc]
    exact hread

theorem stringBody_flatMap (start cs rest : List Char) :
    stringBody start 0 (cs.flatMap escapeChar ++ '"' :: rest) = .ok (cs, rest) := by
  induction cs with
  | nil => rfl
  | cons c cs ih =>
    have hnext : cs.flatMap escapeChar ++ '"' :: rest ≠ [] := by simp
    rw [List.flatMap_cons, List.append_assoc, (escaped_escapeChar c).stringBody_eq hnext, ih]
    rfl

/-- **Reading a literal gives back the string that was written**, and what stands behind it. -/
theorem string_literal (s : String) (rest : List Char) :
    ∃ body, (literal s).toList ++ rest = '"' :: body ∧ string body = .ok (s, rest) := by
  refine ⟨s.toList.flatMap escapeChar ++ '"' :: rest, ?_, ?_⟩
  · simp [literal]
  · rw [string, stringBody_flatMap]
    exact congrArg (fun s => Except.ok (s, rest)) String.ofList_toList

/-- **A literal says where it ends.** -/
theorem literal_append_inj {rest' : List Char}
    (h : (literal s).toList ++ rest = (literal s').toList ++ rest') : s = s' ∧ rest = rest' := by
  obtain ⟨body, hbody, hread⟩ := string_literal s rest
  obtain ⟨body', hbody', hread'⟩ := string_literal s' rest'
  rw [hbody, hbody'] at h
  obtain rfl := (List.cons.inj h).2
  exact Prod.mk.inj (Except.ok.inj (hread.symm.trans hread'))

end Json

end DesignTokens
