import DesignTokens.Proofs.Spaced
import DesignTokens.Reading
import Mathlib.Data.List.Forall2

/-!
# Proofs/Color — the grammar of colours

A colour in a token file is a placeholder, or a row of eight words: `rgb`, the marks, and a run of
digits for each channel.  **The reader takes the row apart word by word**, and since a mark follows
each run of digits, it finds the runs that were written and no shorter ones.

* `channels?_eq_some_iff` — the reader accepts exactly the written rows.
* `Reads`, `reads_read` — what becomes of a string, by the form that it has.
* `read_eq_ok_iff` — what is read of a string: a placeholder, or a row with its channels in range.
* `color_read_exact` — what becomes of every string.
-/

namespace DesignTokens

open Json Text

namespace Color

variable {mark : Char} {cs rest run red green blue : List Char} {words : List (List Char)}
variable {s hex : String} {raw : Value} {e : Expr} {r : Except EntryFault Expr}

/-! ## Marks and channels -/

theorem afterMark?_eq_some_iff : afterMark? mark cs = some rest ↔ skipSpace cs = mark :: rest := by
  cases hskip : skipSpace cs with
  | nil => simp [afterMark?, hskip]
  | cons c rest' =>
    by_cases hc : c = mark
    · simp [afterMark?, hskip, hc]
    · simp [afterMark?, hskip, hc]

/-- **A mark in a row of words.** -/
theorem spaced_mark_iff (hmark : isSpace mark = false) : Spaced ([mark] :: words) cs ↔
    ∃ rest, afterMark? mark cs = some rest ∧ Spaced words rest := by
  simp only [afterMark?_eq_some_iff]
  exact spaced_cons_iff hmark

theorem channel?_eq_some_iff : channel? cs = some (run, rest) ↔
    DigitRun run ∧ skipSpace cs = run ++ rest ∧ ∀ c ∈ rest.head?, ¬ isDigit c = true := by
  constructor
  · intro h
    simp only [channel?] at h
    split at h
    · cases h
    · rename_i hne
      cases h
      obtain ⟨hskip, hrun, hrest⟩ := span_iff.1 ⟨rfl, rfl⟩
      exact ⟨⟨hne, hrun⟩, hskip, hrest⟩
  · rintro ⟨⟨hne, hrun⟩, hskip, hrest⟩
    obtain ⟨htake, hdrop⟩ := span_iff.2 ⟨hskip, hrun, hrest⟩
    simp only [channel?, htake, hdrop, if_neg hne]

/-- **A channel in a row of words**, where a mark ends it. -/
theorem spaced_channel_iff (hmark : isDigit mark = false) :
    DigitRun run ∧ Spaced (run :: [mark] :: words) cs ↔
      ∃ rest, channel? cs = some (run, rest) ∧ Spaced ([mark] :: words) rest := by
  simp only [channel?_eq_some_iff]
  constructor
  · rintro ⟨hrun, h⟩
    obtain ⟨rest, hskip, hrest⟩ := (spaced_run_iff hrun).1 h
    exact ⟨rest, ⟨hrun, hskip, hrest.head? hmark⟩, hrest⟩
  · rintro ⟨rest, ⟨hrun, hskip, -⟩, hrest⟩
    exact ⟨hrun, (spaced_run_iff hrun).2 ⟨rest, hskip, hrest⟩⟩

/-! ## The written form -/

/-- A text that writes a colour with the given digits of its channels. -/
structure IsWritten (cs red green blue : List Char) : Prop where
  red_run : DigitRun red
  green_run : DigitRun green
  blue_run : DigitRun blue
  /-- White space may stand before each part and behind the last one. -/
  spaced : Spaced ["rgb".toList, ['('], red, [','], green, [','], blue, [')']] cs

/-- **The reader accepts exactly the written rows.** -/
theorem channels?_eq_some_iff :
    channels? cs = some (red, green, blue) ↔ IsWritten cs red green blue := by
  constructor
  · intro h
    unfold channels? at h
    split at h
    · rename_i rest₀ hword
      obtain ⟨rest₁, hopen, h⟩ := Option.bind_eq_some_iff.1 h
      obtain ⟨⟨red', rest₂⟩, hred, h⟩ := Option.bind_eq_some_iff.1 h
      obtain ⟨rest₃, hcomma, h⟩ := Option.bind_eq_some_iff.1 h
      obtain ⟨⟨green', rest₄⟩, hgreen, h⟩ := Option.bind_eq_some_iff.1 h
      obtain ⟨rest₅, hcomma', h⟩ := Option.bind_eq_some_iff.1 h
      obtain ⟨⟨blue', rest₆⟩, hblue, h⟩ := Option.bind_eq_some_iff.1 h
      obtain ⟨rest₇, hclose, h⟩ := Option.bind_eq_some_iff.1 h
      split at h
      · rename_i hend
        cases h
        -- the row is put together from its end
        have h₆ := (spaced_mark_iff rfl).2 ⟨rest₇, hclose, spaced_nil_iff.2 hend⟩
        obtain ⟨hblue, h₅⟩ := (spaced_channel_iff rfl).2 ⟨rest₆, hblue, h₆⟩
        have h₄ := (spaced_mark_iff rfl).2 ⟨rest₅, hcomma', h₅⟩
        obtain ⟨hgreen, h₃⟩ := (spaced_channel_iff rfl).2 ⟨rest₄, hgreen, h₄⟩
        have h₂ := (spaced_mark_iff rfl).2 ⟨rest₃, hcomma, h₃⟩
        obtain ⟨hred, h₁⟩ := (spaced_channel_iff rfl).2 ⟨rest₂, hred, h₂⟩
        have h₀ := (spaced_mark_iff rfl).2 ⟨rest₁, hopen, h₁⟩
        exact ⟨hred, hgreen, hblue, (spaced_cons_iff rfl).2 ⟨rest₀, hword, h₀⟩⟩
      · cases h
    · cases h
  · rintro ⟨hred, hgreen, hblue, h⟩
    obtain ⟨rest₀, hword, h⟩ := (spaced_cons_iff rfl).1 h
    obtain ⟨rest₁, hopen, h⟩ := (spaced_mark_iff rfl).1 h
    obtain ⟨rest₂, hred, h⟩ := (spaced_channel_iff rfl).1 ⟨hred, h⟩
    obtain ⟨rest₃, hcomma, h⟩ := (spaced_mark_iff rfl).1 h
    obtain ⟨rest₄, hgreen, h⟩ := (spaced_channel_iff rfl).1 ⟨hgreen, h⟩
    obtain ⟨rest₅, hcomma', h⟩ := (spaced_mark_iff rfl).1 h
    obtain ⟨rest₆, hblue, h⟩ := (spaced_channel_iff rfl).1 ⟨hblue, h⟩
    obtain ⟨rest₇, hclose, h⟩ := (spaced_mark_iff rfl).1 h
    have hend : skipSpace rest₇ = [] := spaced_nil_iff.1 h
    have hrgb : skipSpace cs = 'r' :: 'g' :: 'b' :: rest₀ := hword
    simp only [channels?, hrgb, hopen, hred, hcomma, hgreen, hcomma', hblue, hclose, hend,
      Option.bind_eq_bind, Option.bind_some, if_true]

/-- A text writes a colour in one way. -/
theorem IsWritten.eq {red' green' blue' : List Char} (h : IsWritten cs red green blue)
    (h' : IsWritten cs red' green' blue') : (red, green, blue) = (red', green', blue') :=
  Option.some.inj ((channels?_eq_some_iff.2 h).symm.trans (channels?_eq_some_iff.2 h'))

/-- **No written colour is a placeholder.** -/
theorem IsWritten.ne_placeholder (h : IsWritten cs red green blue) (key : List Char) :
    cs ≠ Alias.placeholder key := by
  rintro rfl
  obtain ⟨rest, hword, -⟩ := (spaced_cons_iff rfl).1 h.spaced
  exact absurd (List.cons.inj hword).1 (by decide)

/-! ## The hexadecimal form -/

/-- The hexadecimal digits of colours. -/
def hexadecimals : List Char := "0123456789ABCDEF".toList

theorem channelText_spec (n : Nat) :
    (channelText n).length = 2 ∧ ∀ c ∈ channelText n, c ∈ hexadecimals := by
  have hdigit : ∀ d < 16, (hexDigit d).toUpper ∈ hexadecimals := by decide
  constructor
  · rw [channelText, List.length_map, length_hexDigits]
  · intro c hc
    simp only [channelText, hexDigits, List.nil_append, List.map_cons, List.map_nil,
      List.cons_append, List.mem_cons, List.not_mem_nil, or_false] at hc
    rcases hc with rfl | rfl
    · exact hdigit _ (Nat.mod_lt _ (by decide))
    · exact hdigit _ (Nat.mod_lt _ (by decide))

/-- Two hexadecimal digits in upper case that stand for a number. -/
structure WritesChannel (pair : List Char) (n : Nat) : Prop where
  length_eq : pair.length = 2
  mem_hexadecimals : ∀ c ∈ pair, c ∈ hexadecimals
  number_eq : hexNumber? pair = some n

/-- A number sign, and two hexadecimal digits for each of some numbers. -/
def IsHexOf (hex : List Char) (values : List Nat) : Prop :=
  ∃ pairs, hex = '#' :: pairs.flatten ∧ List.Forall₂ WritesChannel pairs values

theorem writesChannel_channelText {n : Nat} (h : n ≤ 255) : WritesChannel (channelText n) n := by
  have hnumber : ∀ n < 256, hexNumber? (channelText n) = some n := by decide +kernel
  obtain ⟨hlength, hmem⟩ := channelText_spec n
  exact ⟨hlength, hmem, hnumber n (Nat.lt_succ_of_le h)⟩

theorem isHexOf_flatMap {values : List Nat} (h : ∀ n ∈ values, n ≤ 255) :
    IsHexOf ('#' :: values.flatMap channelText) values := by
  refine ⟨values.map channelText, rfl, ?_⟩
  rw [List.forall₂_map_left_iff, List.forall₂_same]
  exact fun n hn => writesChannel_channelText (h n hn)

/-- **Three channels make a colour** when none of them is above 255. -/
theorem ofChannels_eq_ok_iff {r g b : Nat} {e : Expr} : ofChannels r g b = .ok e ↔
    (∀ n ∈ [r, g, b], n ≤ 255) ∧
      e = .color (String.ofList ('#' :: [r, g, b].flatMap channelText)) := by
  have hrange : ([(r : Int), g, b].find? fun n => n < 0 || 255 < n) = none ↔
      ∀ n ∈ [r, g, b], n ≤ 255 := by
    simp only [List.find?_eq_none, List.forall_mem_cons, List.not_mem_nil, false_implies,
      implies_true, and_true, Bool.or_eq_true, decide_eq_true_eq]
    omega
  rw [← hrange, ofChannels]
  constructor
  · intro h
    split at h
    · cases h
    · rename_i hfind
      cases h
      exact ⟨hfind, rfl⟩
  · rintro ⟨hfind, rfl⟩
    rw [hfind]
    rfl

/-! ## What is read -/

/-- A run of digits that a channel may be: not too long to be read, and up to 255. -/
def InRange (run : List Char) : Prop := run.length ≤ digitLimit ∧ digitsValue run ≤ 255

/-- What becomes of a string that is given for a colour, by the form that it has. -/
inductive Reads (s : String) : Except EntryFault Expr → Prop
  | reference {key : String} (isKey : Alias.IsKey key.toList)
      (eq_placeholder : s.toList = Alias.placeholder key.toList) : Reads s (.ok (.reference key))
  | color {red green blue : List Char} (isWritten : IsWritten s.toList red green blue)
      (inRange : ∀ run ∈ [red, green, blue], InRange run) :
      Reads s (.ok (.color (String.ofList
        ('#' :: ([red, green, blue].map digitsValue).flatMap channelText))))
  /-- A channel is above 255. -/
  | high {red green blue : List Char} (isWritten : IsWritten s.toList red green blue)
      (short : ∀ run ∈ [red, green, blue], run.length ≤ digitLimit)
      (high : ∃ run ∈ [red, green, blue], 255 < digitsValue run) :
      Reads s (.error (.rejected (.color (.string s))))
  /-- The first channel that has too many digits ends the reading. -/
  | long {red green blue run : List Char} (isWritten : IsWritten s.toList red green blue)
      (first_long : [red, green, blue].find? (digitLimit < ·.length) = some run) :
      Reads s (.error (.digits ⟨run.length⟩))
  | neither (not_placeholder : ¬ ∃ key, Alias.IsKey key ∧ s.toList = Alias.placeholder key)
      (not_written : ∀ red green blue, ¬ IsWritten s.toList red green blue) :
      Reads s (.error (.rejected (.color (.string s))))

/-- What is read of a written colour is what its channels make, unless one is too long. -/
theorem read_of_isWritten (h : IsWritten s.toList red green blue)
    (hshort : ∀ run ∈ [red, green, blue], run.length ≤ digitLimit) :
    read (.string s) =
      (ofChannels (digitsValue red) (digitsValue green) (digitsValue blue)).mapError
        fun _ => .rejected (.color (.string s)) := by
  simp only [List.forall_mem_cons] at hshort
  obtain ⟨hred, hgreen, hblue, -⟩ := hshort
  simp only [read, Alias.read?_eq_none h.ne_placeholder, channels?_eq_some_iff.2 h,
    readDigits_eq_ok_iff.2 ⟨hred, rfl⟩, readDigits_eq_ok_iff.2 ⟨hgreen, rfl⟩,
    readDigits_eq_ok_iff.2 ⟨hblue, rfl⟩]
  rfl

theorem length_of_first_long {runs : List (List Char)}
    (h : runs.find? (digitLimit < ·.length) = some run) : digitLimit < run.length := by
  simpa using List.find?_some h

/-- The first channel that has too many digits ends the reading of a written colour. -/
theorem read_of_first_long (h : IsWritten s.toList red green blue)
    (hlong : [red, green, blue].find? (digitLimit < ·.length) = some run) :
    read (.string s) = .error (.digits ⟨run.length⟩) := by
  have htoo : ∀ {run : List Char}, decide (digitLimit < run.length) = true →
      readDigits run = .error ⟨run.length⟩ := fun h =>
    readDigits_eq_error_iff.2 ⟨of_decide_eq_true h, rfl⟩
  have hshort : ∀ {run : List Char}, decide (digitLimit < run.length) = false →
      readDigits run = .ok (digitsValue run) := fun h =>
    readDigits_eq_ok_iff.2 ⟨Nat.le_of_not_lt (of_decide_eq_false h), rfl⟩
  simp only [read, Alias.read?_eq_none h.ne_placeholder, channels?_eq_some_iff.2 h]
  rw [List.find?_cons] at hlong
  split at hlong
  · rename_i hred
    cases hlong
    rw [htoo hred]
    rfl
  rename_i hred
  rw [hshort hred]
  rw [List.find?_cons] at hlong
  split at hlong
  · rename_i hgreen
    cases hlong
    rw [htoo hgreen]
    rfl
  rename_i hgreen
  rw [hshort hgreen]
  obtain rfl := List.mem_singleton.1 (List.mem_of_find?_eq_some hlong)
  rw [htoo (decide_eq_true (length_of_first_long hlong))]
  rfl

theorem Reads.read_eq (h : Reads s r) : read (.string s) = r := by
  cases h with
  | reference isKey eq_placeholder =>
    simp only [read, Alias.read?_eq_some_iff.2 ⟨isKey, eq_placeholder⟩]
  | @color red green blue isWritten inRange =>
    have hvalues : ∀ n ∈ [digitsValue red, digitsValue green, digitsValue blue], n ≤ 255 :=
      List.forall_mem_map.2 fun run hmem => (inRange run hmem).2
    rw [read_of_isWritten isWritten fun run hmem => (inRange run hmem).1,
      ofChannels_eq_ok_iff.2 ⟨hvalues, rfl⟩]
    rfl
  | @high red green blue isWritten short high =>
    rw [read_of_isWritten isWritten short]
    cases hmade : ofChannels (digitsValue red) (digitsValue green) (digitsValue blue) with
    | error n => rfl
    | ok e =>
      obtain ⟨run, hmem, hvalue⟩ := high
      have hle := (ofChannels_eq_ok_iff.1 hmade).1 (digitsValue run) (List.mem_map_of_mem hmem)
      exact absurd hle (Nat.not_le_of_lt hvalue)
  | long isWritten first_long => exact read_of_first_long isWritten first_long
  | neither not_placeholder not_written =>
    have hchannels : channels? s.toList = none := by
      refine Option.eq_none_iff_forall_ne_some.2 ?_
      rintro ⟨red, green, blue⟩ h
      exact not_written red green blue (channels?_eq_some_iff.1 h)
    simp only [read, Alias.read?_eq_none_iff.2 not_placeholder, hchannels]

theorem exists_reads (s : String) : ∃ r, Reads s r := by
  by_cases hplaceholder : ∃ key, Alias.IsKey key ∧ s.toList = Alias.placeholder key
  · obtain ⟨key, hkey, hs⟩ := hplaceholder
    rw [← String.toList_ofList (l := key)] at hkey hs
    exact ⟨_, .reference hkey hs⟩
  by_cases hwritten : ∃ red green blue, IsWritten s.toList red green blue
  · obtain ⟨red, green, blue, hwritten⟩ := hwritten
    cases hlong : [red, green, blue].find? (digitLimit < ·.length) with
    | some run => exact ⟨_, .long hwritten hlong⟩
    | none =>
      have hshort : ∀ run ∈ [red, green, blue], run.length ≤ digitLimit := fun run hmem =>
        Nat.le_of_not_lt fun h => List.find?_eq_none.1 hlong run hmem (decide_eq_true h)
      by_cases hhigh : ∃ run ∈ [red, green, blue], 255 < digitsValue run
      · exact ⟨_, .high hwritten hshort hhigh⟩
      · exact ⟨_, .color hwritten fun run hmem =>
          ⟨hshort run hmem, Nat.le_of_not_lt fun h => hhigh ⟨run, hmem, h⟩⟩⟩
  · exact ⟨_, .neither hplaceholder fun red green blue h => hwritten ⟨red, green, blue, h⟩⟩

/-- **What becomes of a string** is told by the form that it has. -/
theorem reads_read (s : String) : Reads s (read (.string s)) := by
  obtain ⟨r, h⟩ := exists_reads s
  rwa [h.read_eq]

/-- **What is read of a string**: the placeholders, and the written colours in range. -/
theorem read_eq_ok_iff : read (.string s) = .ok e ↔
    (∃ key, e = .reference key ∧ Alias.IsKey key.toList ∧
      s.toList = Alias.placeholder key.toList) ∨
    ∃ red green blue, IsWritten s.toList red green blue ∧
      (∀ run ∈ [red, green, blue], InRange run) ∧
      e = .color (String.ofList
        ('#' :: ([red, green, blue].map digitsValue).flatMap channelText)) := by
  constructor
  · intro h
    have hreads := reads_read s
    rw [h] at hreads
    cases hreads with
    | reference isKey eq_placeholder => exact Or.inl ⟨_, rfl, isKey, eq_placeholder⟩
    | color isWritten inRange => exact Or.inr ⟨_, _, _, isWritten, inRange, rfl⟩
  · rintro (⟨key, rfl, hkey, hs⟩ | ⟨red, green, blue, hwritten, hrange, rfl⟩)
    · exact (Reads.reference hkey hs).read_eq
    · exact (Reads.color hwritten hrange).read_eq

/-- **What ends the reading** are the written colours with a channel of too many digits. -/
theorem read_eq_digits_iff : (∃ e, read (.string s) = .error (.digits e)) ↔
    ∃ red green blue, IsWritten s.toList red green blue ∧
      ∃ run ∈ [red, green, blue], digitLimit < run.length := by
  constructor
  · rintro ⟨e, h⟩
    have hreads := reads_read s
    rw [h] at hreads
    cases hreads with
    | @long red green blue run isWritten first_long =>
      exact ⟨red, green, blue, isWritten, run, List.mem_of_find?_eq_some first_long,
        length_of_first_long first_long⟩
  · rintro ⟨red, green, blue, hwritten, run, hmem, hlong⟩
    have hsome : ([red, green, blue].find? (digitLimit < ·.length)).isSome = true :=
      List.find?_isSome.2 ⟨run, hmem, by simpa using hlong⟩
    obtain ⟨first, hfirst⟩ := Option.isSome_iff_exists.1 hsome
    exact ⟨_, (Reads.long hwritten hfirst).read_eq⟩

/-- **What is rejected** is neither a placeholder nor a written colour, but for those with a channel
above 255. -/
theorem read_eq_rejected_iff : read (.string s) = .error (.rejected (.color (.string s))) ↔
    (¬ ∃ key, Alias.IsKey key ∧ s.toList = Alias.placeholder key) ∧
    ∀ red green blue, IsWritten s.toList red green blue →
      (∀ run ∈ [red, green, blue], run.length ≤ digitLimit) ∧
      ∃ run ∈ [red, green, blue], 255 < digitsValue run := by
  constructor
  · intro h
    constructor
    · rintro ⟨key, hkey, hs⟩
      have hread : read (.string s) = .ok (.reference (String.ofList key)) := by
        refine read_eq_ok_iff.2 (Or.inl ⟨_, rfl, ?_⟩)
        rw [String.toList_ofList]
        exact ⟨hkey, hs⟩
      cases h.symm.trans hread
    · intro red green blue hwritten
      have hshort : ∀ run ∈ [red, green, blue], run.length ≤ digitLimit := by
        intro run hmem
        refine Nat.le_of_not_lt fun hlong => ?_
        obtain ⟨e, hread⟩ := read_eq_digits_iff.2 ⟨red, green, blue, hwritten, run, hmem, hlong⟩
        cases h.symm.trans hread
      refine ⟨hshort, ?_⟩
      by_contra hnone
      have hrange : ∀ run ∈ [red, green, blue], InRange run := fun run hmem =>
        ⟨hshort run hmem, Nat.le_of_not_lt fun hvalue => hnone ⟨run, hmem, hvalue⟩⟩
      have hread := read_eq_ok_iff.2 (Or.inr ⟨red, green, blue, hwritten, hrange, rfl⟩)
      cases h.symm.trans hread
  · rintro ⟨hplaceholder, hrejected⟩
    obtain ⟨r, hreads⟩ := exists_reads s
    rw [hreads.read_eq]
    cases hreads with
    | reference isKey eq_placeholder =>
      exact absurd ⟨_, isKey, eq_placeholder⟩ hplaceholder
    | color isWritten inRange =>
      obtain ⟨-, run, hmem, hvalue⟩ := hrejected _ _ _ isWritten
      exact absurd (inRange run hmem).2 (Nat.not_le_of_lt hvalue)
    | high => rfl
    | long isWritten first_long =>
      have hlength := (hrejected _ _ _ isWritten).1 _ (List.mem_of_find?_eq_some first_long)
      exact absurd (length_of_first_long first_long) (Nat.not_lt_of_le hlength)
    | neither => rfl

end Color

/-- **What becomes of every string that is given for a colour.**  It is a placeholder; or it writes
three channels in range, and the hexadecimal digits of the colour stand for their values; or it
writes one with too many digits, which ends the reading; or it is rejected. -/
theorem color_read_exact (s : String) :
    (∀ key, Color.read (.string s) = .ok (.reference key) ↔
      Alias.IsKey key.toList ∧ s.toList = Alias.placeholder key.toList) ∧
    ((∃ hex, Color.read (.string s) = .ok (.color hex)) ↔
      ∃ red green blue, Color.IsWritten s.toList red green blue ∧
        ∀ run ∈ [red, green, blue], Color.InRange run) ∧
    (∀ hex red green blue, Color.read (.string s) = .ok (.color hex) →
      Color.IsWritten s.toList red green blue →
      Color.IsHexOf hex.toList ([red, green, blue].map digitsValue)) ∧
    ((∃ e, Color.read (.string s) = .error (.digits e)) ↔
      ∃ red green blue, Color.IsWritten s.toList red green blue ∧
        ∃ run ∈ [red, green, blue], digitLimit < run.length) ∧
    (Color.read (.string s) = .error (.rejected (.color (.string s))) ↔
      (¬ ∃ key, Alias.IsKey key ∧ s.toList = Alias.placeholder key) ∧
      ∀ red green blue, Color.IsWritten s.toList red green blue →
        (∀ run ∈ [red, green, blue], run.length ≤ digitLimit) ∧
        ∃ run ∈ [red, green, blue], 255 < digitsValue run) := by
  refine ⟨fun key => ?_, ?_, ?_, Color.read_eq_digits_iff, Color.read_eq_rejected_iff⟩
  · rw [Color.read_eq_ok_iff]
    constructor
    · rintro (⟨key, hkey, h⟩ | ⟨red, green, blue, -, -, hcolor⟩)
      · cases hkey
        exact h
      · cases hcolor
    · intro h
      exact Or.inl ⟨key, rfl, h⟩
  · constructor
    · rintro ⟨hex, h⟩
      rcases Color.read_eq_ok_iff.1 h with ⟨key, hkey, -⟩ | ⟨red, green, blue, hwritten, hrange, -⟩
      · cases hkey
      · exact ⟨red, green, blue, hwritten, hrange⟩
    · rintro ⟨red, green, blue, hwritten, hrange⟩
      exact ⟨_, Color.read_eq_ok_iff.2 (Or.inr ⟨red, green, blue, hwritten, hrange, rfl⟩)⟩
  · intro hex red green blue h hwritten
    rcases Color.read_eq_ok_iff.1 h with
      ⟨key, hkey, -⟩ | ⟨red', green', blue', hwritten', hrange, hcolor⟩
    · cases hkey
    · cases hwritten.eq hwritten'
      cases hcolor
      rw [String.toList_ofList]
      refine Color.isHexOf_flatMap fun n hn => ?_
      obtain ⟨run, hmem, rfl⟩ := List.mem_map.1 hn
      exact (hrange run hmem).2

example : Color.read (.string " rgb(007 ,\u0663, 255)") = .ok (.color "#0703FF") := rfl

end DesignTokens
