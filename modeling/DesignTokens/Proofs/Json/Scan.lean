import DesignTokens.Proofs.Json.Number

/-!
# Proofs/Json/Scan — where a reader of JSON stops

What a reader stops at for another reason than a mistake is seen by going through the text once,
with no more memory than where strings begin and end and how many arrays and objects are open: **a
container inside too many others, or a whole number of too many digits that stands where a value may
start**.  In a string there is neither.

* `Scan.step` — what one character comes to; `Passes` — what a text comes to.
* `value_keepsPace` — the reader of values and the scan keep pace.
* `isDeep_of_read`, `hasLongInteger_of_read` — what is refused has such a place.
* `read_brackets` — brackets that are too many are refused, whatever follows them.
-/

namespace DesignTokens.Json

open Text

variable {α β : Type} {c : Char} {cs cs' rest text : List Char} {limit n : ℕ}

/-! ## Going through a text -/

/-- Where a scan stands. -/
inductive Place where
  /-- Where a value may start. -/
  | free
  /-- Behind a word, a number, a string or a bracket that closes. -/
  | taken
  | quoted
  /-- In a string, behind the backslash of an escape. -/
  | escaped
  deriving DecidableEq

/-- What is known of a text from what came before. -/
structure Scan where
  place : Place
  /-- How many arrays and objects are open. -/
  opened : ℕ
  deriving DecidableEq

/-- A character of words and numbers: no white space, no quote, no bracket and no sign between
values. -/
def isPlain (c : Char) : Bool :=
  !(isBlankChar c || ['"', '[', ']', '\x7b', '\x7d', ',', ':'].contains c)

namespace Scan

/-- What a character outside of strings comes to. -/
def outside (opened : ℕ) (c : Char) : Scan :=
  if c = '"' then ⟨.quoted, opened⟩
  else if c = '[' ∨ c = '\x7b' then ⟨.free, opened + 1⟩
  else if c = ']' ∨ c = '\x7d' then ⟨.taken, opened - 1⟩
  else if isPlain c then ⟨.taken, opened⟩
  else ⟨.free, opened⟩

/-- What one character comes to. -/
def step (s : Scan) (c : Char) : Scan :=
  match s.place with
  | .free | .taken => outside s.opened c
  | .quoted =>
    if c = '"' then ⟨.taken, s.opened⟩ else if c = '\\' then ⟨.escaped, s.opened⟩ else s
  | .escaped => ⟨.quoted, s.opened⟩

def run (s : Scan) (cs : List Char) : Scan := cs.foldl step s

/-- In front of a text. -/
def start : Scan := ⟨.free, 0⟩

@[simp] theorem run_nil (s : Scan) : s.run [] = s := rfl

@[simp] theorem run_cons (s : Scan) (c : Char) (cs : List Char) :
    s.run (c :: cs) = (s.step c).run cs := rfl

theorem run_append (s : Scan) (cs cs' : List Char) : s.run (cs ++ cs') = (s.run cs).run cs' :=
  List.foldl_append

theorem opened_outside_le (n : ℕ) (c : Char) : (outside n c).opened ≤ n + 1 := by
  unfold outside
  split_ifs <;> simp only <;> omega

/-- One character opens one container at most. -/
theorem opened_step_le (s : Scan) (c : Char) : (s.step c).opened ≤ s.opened + 1 := by
  cases hplace : s.place with
  | free =>
    rw [step, hplace]
    exact opened_outside_le _ c
  | taken =>
    rw [step, hplace]
    exact opened_outside_le _ c
  | quoted =>
    rw [step, hplace]
    simp only
    split_ifs <;> exact Nat.le_succ _
  | escaped =>
    rw [step, hplace]
    exact Nat.le_succ _

theorem opened_run_le (s : Scan) (cs : List Char) : (s.run cs).opened ≤ s.opened + cs.length := by
  induction cs generalizing s with
  | nil => exact le_rfl
  | cons c cs ih =>
    have hrest := ih (s.step c)
    have hstep := s.opened_step_le c
    rw [run_cons, List.length_cons]
    omega

/-- A scan stands in no string, and so many containers are open. -/
def Outside (n : ℕ) (s : Scan) : Prop := s = ⟨.free, n⟩ ∨ s = ⟨.taken, n⟩

variable {s : Scan}

theorem Outside.step_eq (h : s.Outside n) (c : Char) : s.step c = outside n c := by
  rcases h with rfl | rfl <;> rfl

theorem outside_of_isPlain (h : isPlain c = true) : outside n c = ⟨.taken, n⟩ := by
  have h' := h
  simp only [isPlain, List.contains_cons, List.contains_nil, Bool.or_false, Bool.not_eq_true',
    Bool.or_eq_false_iff, beq_eq_false_iff_ne] at h'
  obtain ⟨-, hquote, hopen, hclose, hbrace, hbrace', -, -⟩ := h'
  rw [outside, if_neg hquote, if_neg (not_or.2 ⟨hopen, hbrace⟩),
    if_neg (not_or.2 ⟨hclose, hbrace'⟩), if_pos h]

theorem outside_of_isBlankChar (h : isBlankChar c = true) : outside n c = ⟨.free, n⟩ := by
  simp only [isBlankChar, Bool.or_eq_true, beq_iff_eq] at h
  rcases h with ((rfl | rfl) | rfl) | rfl <;> rfl

theorem Outside.run_plain (h : s.Outside n) (hcs : ∀ c ∈ cs, isPlain c = true) :
    (s.run cs).Outside n := by
  induction cs generalizing s with
  | nil => exact h
  | cons c cs ih =>
    obtain ⟨hc, hcs⟩ := List.forall_mem_cons.1 hcs
    rw [run_cons, h.step_eq, outside_of_isPlain hc]
    exact ih (Or.inr rfl) hcs

/-- Blanks change nothing, but that a value may start behind them. -/
theorem Outside.run_blank (h : s.Outside n) (hcs : ∀ c ∈ cs, isBlankChar c = true) :
    s.run cs = s ∨ s.run cs = ⟨.free, n⟩ := by
  induction cs generalizing s with
  | nil => exact Or.inl rfl
  | cons c cs ih =>
    obtain ⟨hc, hcs⟩ := List.forall_mem_cons.1 hcs
    rw [run_cons, h.step_eq, outside_of_isBlankChar hc]
    exact Or.inr ((ih (Or.inl rfl) hcs).elim id id)

end Scan

/-- A scan of a text gets from one place to another, and this is what remains of the text. -/
def Passes (s : Scan) (cs : List Char) (s' : Scan) (rest : List Char) : Prop :=
  ∃ before, cs = before ++ rest ∧ s.run before = s'

namespace Passes

variable {s s' s'' : Scan}

theorem refl (s : Scan) (cs : List Char) : Passes s cs s cs := ⟨[], rfl, rfl⟩

theorem cons (h : Passes (s.step c) cs s' rest) : Passes s (c :: cs) s' rest := by
  obtain ⟨before, rfl, hrun⟩ := h
  exact ⟨c :: before, rfl, hrun⟩

theorem trans (h : Passes s cs s' cs') (h' : Passes s' cs' s'' rest) : Passes s cs s'' rest := by
  obtain ⟨before, rfl, rfl⟩ := h
  obtain ⟨before', rfl, rfl⟩ := h'
  exact ⟨before ++ before', by rw [List.append_assoc], Scan.run_append _ _ _⟩

theorem skipBlank (n : ℕ) (cs : List Char) :
    Passes ⟨.free, n⟩ cs ⟨.free, n⟩ (skipBlank cs) := by
  refine ⟨_, List.takeWhile_append_dropWhile.symm, ?_⟩
  exact (Scan.Outside.run_blank (Or.inl rfl) (List.all_eq_true.1 List.all_takeWhile)).elim id id

/-- The first character behind some blanks. -/
theorem next (h : s.Outside n) (hskip : Json.skipBlank cs = c :: rest) :
    Passes s cs (Scan.outside n c) rest := by
  have hblank := h.run_blank (List.all_eq_true.1 (List.all_takeWhile (l := cs) (p := isBlankChar)))
  have hout : (s.run (cs.takeWhile isBlankChar)).Outside n := by
    rcases hblank with hrun | hrun
    · rwa [hrun]
    · exact Or.inl hrun
  refine ⟨cs.takeWhile isBlankChar ++ [c], ?_, ?_⟩
  · rw [List.append_assoc, List.singleton_append, ← hskip]
    exact List.takeWhile_append_dropWhile.symm
  · rw [Scan.run_append, Scan.run_cons, Scan.run_nil, hout.step_eq]

end Passes

/-! ## What is refused -/

/-- Somewhere in a text more arrays and objects are open than the limit. -/
def IsDeep (limit : ℕ) (text : List Char) : Prop :=
  ∃ s rest, Passes .start text s rest ∧ limit < s.opened

/-- Where a value may start in a text there is a whole number of too many digits. -/
def HasLongInteger (text : List Char) : Prop :=
  ∃ s rest, Passes .start text s rest ∧ s.place = .free ∧ StartsLong rest

/-- A text within the limit is not deep. -/
theorem not_isDeep (h : text.length ≤ limit) : ¬ IsDeep limit text := by
  rintro ⟨s, rest, ⟨before, rfl, rfl⟩, hlimit⟩
  have hopened := Scan.start.opened_run_le before
  rw [List.length_append] at h
  simp only [Scan.start] at hopened hlimit
  omega

/-- A text within the limit has no such number. -/
theorem not_hasLongInteger (h : text.length ≤ digitLimit) : ¬ HasLongInteger text := by
  rintro ⟨s, rest, ⟨before, rfl, -⟩, -, l, rest', rfl, -, hlong, -⟩
  simp only [Lexeme.text, Lexeme.body, List.length_append] at h
  omega

/-! ## Keeping pace -/

/-- Where a reader stops, a scan sees why. -/
def Stops (limit : ℕ) (s : Scan) (cs : List Char) : Stop → Prop
  | .fault _ _ => True
  | .digits _ => ∃ s' rest, Passes s cs s' rest ∧ s'.place = .free ∧ StartsLong rest
  | .tooDeep _ => ∃ s' rest, Passes s cs s' rest ∧ limit < s'.opened

/-- A scan gets to where a reader left the text, and so many containers are open there. -/
def Leaves (n : ℕ) (s : Scan) (cs : List Char) (r : α × List Char) : Prop :=
  ∃ s', Passes s cs s' r.2 ∧ s'.Outside n

theorem Leaves.of_passes {s s' : Scan} {r : α × List Char} (hr : Leaves n s' cs' r)
    (h : Passes s cs s' cs') : Leaves n s cs r := by
  obtain ⟨s'', hpasses, hout⟩ := hr
  exact ⟨s'', h.trans hpasses, hout⟩

/-- A reader and a scan keep pace, and so many containers are open where the reader ends. -/
abbrev KeepsPace (limit n : ℕ) (s : Scan) (cs : List Char) (r : Reads α) : Prop :=
  Yields (Stops limit s cs) (Leaves n s cs) r

namespace KeepsPace

variable {s s' : Scan} {r : Reads α}

theorem of_passes (h : Passes s cs s' cs') (hr : KeepsPace limit n s' cs' r) :
    KeepsPace limit n s cs r := by
  refine (hr.mono ?_).mono_fault ?_
  · exact fun a hr => hr.of_passes h
  · rintro (_ | _ | _) hstop
    · trivial
    · obtain ⟨s'', rest, hpasses, hplace⟩ := hstop
      exact ⟨s'', rest, h.trans hpasses, hplace⟩
    · obtain ⟨s'', rest, hpasses, hopened⟩ := hstop
      exact ⟨s'', rest, h.trans hpasses, hopened⟩

theorem map {f : α × List Char → β × List Char} (hr : KeepsPace limit n s cs r)
    (hf : ∀ x, (f x).2 = x.2) : KeepsPace limit n s cs (r.map f) := by
  refine Yields.map hr fun x hx => ?_
  obtain ⟨s', hpasses, hout⟩ := hx
  exact ⟨s', by rwa [hf], hout⟩

end KeepsPace

/-! ## Strings -/

/-- In a string a character that is neither a quote nor a backslash changes nothing. -/
theorem Scan.run_quoted (hcs : ∀ c ∈ cs, c ≠ '"' ∧ c ≠ '\\') :
    Scan.run ⟨.quoted, n⟩ cs = ⟨.quoted, n⟩ := by
  induction cs with
  | nil => rfl
  | cons c cs ih =>
    obtain ⟨⟨hquote, hbackslash⟩, hcs⟩ := List.forall_mem_cons.1 hcs
    have hstep : Scan.step ⟨.quoted, n⟩ c = ⟨.quoted, n⟩ := by
      rw [Scan.step]
      simp only [if_neg hquote, if_neg hbackslash]
    rw [Scan.run_cons, hstep, ih hcs]

theorem hexValue?_eq_some {d : ℕ} (h : hexValue? c = some d) : c ≠ '"' ∧ c ≠ '\\' := by
  constructor <;> rintro rfl <;> cases h

/-- The digits of a number have neither a quote nor a backslash among them. -/
theorem hexNumber?_eq_some {d : ℕ} (h : hexNumber? cs = some d) :
    ∀ c ∈ cs, c ≠ '"' ∧ c ≠ '\\' := by
  unfold hexNumber? at h
  generalize 0 = start at h
  induction cs generalizing start with
  | nil => exact fun c hc => absurd hc List.not_mem_nil
  | cons c cs ih =>
    rw [List.foldlM_cons] at h
    obtain ⟨start', hstart, h⟩ := Option.bind_eq_some_iff.1 h
    obtain ⟨d', hd', -⟩ := Option.map_eq_some_iff.1 hstart
    exact List.forall_mem_cons.2 ⟨hexValue?_eq_some hd', ih start' h⟩

variable {s : Scan} {limit : ℕ}

/-- The digits after `\u` leave a string as it is. -/
theorem codeUnit_yields (text : List Char) (n : ℕ) : Yields (Stops limit s text)
    (fun _ => Scan.run ⟨.quoted, n⟩ (rest.take 4) = ⟨.quoted, n⟩) (codeUnit rest) := by
  unfold codeUnit
  refine .ite (fun _ => trivial) fun _ => ?_
  split
  · rename_i d hnumber
    exact Scan.run_quoted (hexNumber?_eq_some hnumber)
  · trivial

/-- **Behind an escape the string goes on.** -/
theorem escape_yields (text : List Char) (n : ℕ) (start cs : List Char) :
    Yields (Stops limit s text)
      (fun r => Scan.run ⟨.escaped, n⟩ (cs.take r.2) = ⟨.quoted, n⟩) (escape start cs) := by
  unfold escape
  split
  · trivial
  · rename_i rest
    refine (codeUnit_yields text n).bind fun high hhigh => ?_
    split
    · rename_i more hmore
      refine .ite (fun _ => ?_) fun _ => hhigh
      refine (codeUnit_yields text n).bind fun low hlow => .ite (fun _ => ?_) fun _ => hhigh
      -- four digits, the backslash and the letter of the second escape, and four digits
      have htake : rest.take 10 = rest.take 4 ++ '\\' :: 'u' :: more.take 4 := by
        rw [List.take_add (i := 4) (j := 6), hmore]
        rfl
      change Scan.run ⟨.quoted, n⟩ (rest.take 10) = _
      rw [htake, Scan.run_append, hhigh]
      exact hlow
    · exact hhigh
  · split
    · exact rfl
    · trivial

/-- **A string ends where the scan has its end.** -/
theorem stringBody_yields (text : List Char) (n : ℕ) (start : List Char) (skip : ℕ)
    (cs : List Char) : Yields (Stops limit s text) (Leaves n ⟨.quoted, n⟩ (cs.drop skip))
      (stringBody start skip cs) := by
  induction cs generalizing skip with
  | nil => trivial
  | cons c rest ih =>
    unfold stringBody
    split
    · exact ih _
    · split
      · rename_i hc
        subst hc
        exact ⟨⟨.taken, n⟩, (Passes.refl _ _).cons, Or.inr rfl⟩
      · rename_i hquote
        split
        · rename_i hc
          subst hc
          have hescape : Yields (Stops limit s text)
              (fun r => Scan.run ⟨.escaped, n⟩ (rest.take r.2) = ⟨.quoted, n⟩)
              (escape start rest) := escape_yields text n start rest
          split
          · rename_i d k hread
            rw [hread] at hescape
            have hpasses : Passes ⟨.quoted, n⟩ ('\\' :: rest) ⟨.quoted, n⟩ (rest.drop k) :=
              .cons ⟨rest.take k, (List.take_append_drop k rest).symm, hescape⟩
            exact (ih k).map fun r hr => hr.of_passes hpasses
          · rename_i e hread
            rw [hread] at hescape
            exact hescape
        · rename_i hbackslash
          refine .ite (fun _ => trivial) fun _ => ?_
          have hpasses : Passes ⟨.quoted, n⟩ (c :: rest) ⟨.quoted, n⟩ rest :=
            ⟨[c], rfl, Scan.run_quoted (List.forall_mem_singleton.2 ⟨hquote, hbackslash⟩)⟩
          exact (ih 0).map fun r hr => hr.of_passes hpasses

theorem string_keepsPace (h : s.Outside n) (rest : List Char) :
    KeepsPace limit n s ('"' :: rest) (string rest) := by
  have hquote : s.step '"' = ⟨.quoted, n⟩ := h.step_eq '"'
  have hopen : Passes s ('"' :: rest) ⟨.quoted, n⟩ rest := by
    rw [← hquote]
    exact (Passes.refl _ _).cons
  exact (stringBody_yields _ n _ 0 rest).map fun r hr => hr.of_passes hopen

/-! ## Words and numbers -/

theorem isPlain_of_isDigit (h : c.isDigit = true) : isPlain c = true := by
  by_contra hplain
  simp only [isPlain, isBlankChar, List.contains_cons, List.contains_nil, Bool.or_false,
    Bool.not_eq_true, Bool.not_eq_false', Bool.or_eq_true, beq_iff_eq] at hplain
  rcases hplain with (((rfl | rfl) | rfl) | rfl) | rfl | rfl | rfl | rfl | rfl | rfl | rfl <;>
    exact absurd h (by decide)

theorem AsciiRun.isPlain (h : AsciiRun cs) : ∀ c ∈ cs, isPlain c = true :=
  fun c hc => isPlain_of_isDigit (h.2 c hc)

theorem Lexeme.isPlain_text (l : Lexeme) : ∀ c ∈ l.text, isPlain c = true := by
  have hsign : ∀ c ∈ Size.sign l.negative, isPlain c = true := by
    cases l.negative with
    | false => exact fun c hc => absurd hc List.not_mem_nil
    | true => exact List.forall_mem_singleton.2 (by decide)
  have hwhole : ∀ c ∈ l.whole, isPlain c = true := fun c hc =>
    isPlain_of_isDigit (l.whole_literal.isDigit c hc)
  have hpart : ∀ c ∈ fractionText l.part, isPlain c = true := by
    cases hl : l.part with
    | none => exact fun c hc => absurd hc List.not_mem_nil
    | some digits =>
      exact List.forall_mem_cons.2 ⟨by decide, (l.part_run digits hl).isPlain⟩
  have hexponent : ∀ c ∈ exponentText l.exponent, isPlain c = true := by
    cases l.exponent with
    | none => exact fun c hc => absurd hc List.not_mem_nil
    | some x =>
      have hsign : ∀ c ∈ x.sign, isPlain c = true := by
        rcases x.sign_eq with h | h | h <;> rw [h]
        · exact fun c hc => absurd hc List.not_mem_nil
        · exact List.forall_mem_singleton.2 (by decide)
        · exact List.forall_mem_singleton.2 (by decide)
      have hletter : isPlain x.letter = true := by
        rcases x.letter_eq with h | h <;> rw [h] <;> decide
      exact List.forall_mem_cons.2
        ⟨hletter, List.forall_mem_append.2 ⟨hsign, x.digits_run.isPlain⟩⟩
  exact List.forall_mem_append.2
    ⟨hsign, List.forall_mem_append.2 ⟨hwhole, List.forall_mem_append.2 ⟨hpart, hexponent⟩⟩⟩

theorem isPlain_words : ∀ w ∈ words, ∀ c ∈ w.1, isPlain c = true := by
  simp only [words, List.mem_cons, List.not_mem_nil, or_false]
  rintro w (rfl | rfl | rfl | rfl | rfl | rfl) <;> simp [isPlain, isBlankChar]

theorem unsigned_ne_tooDeep {start : List Char} {negative : Bool} {container : Container} :
    unsigned start negative cs ≠ .error (.tooDeep container) := by
  intro h
  cases hwhole : wholePart? cs with
  | none =>
    rw [unsigned, hwhole] at h
    cases h
  | some w =>
    obtain ⟨l, rest, -, -, hread | ⟨-, hread⟩⟩ := unsigned_cases start negative hwhole <;>
      cases h.symm.trans hread

theorem scalar_ne_tooDeep {container : Container} : scalar cs ≠ .error (.tooDeep container) := by
  intro h
  unfold scalar at h
  split at h
  · cases h
  · split at h <;> exact unsigned_ne_tooDeep h

/-- **A word or a number opens nothing**, and a number that is too long stands where a value may
start. -/
theorem scalar_keepsPace (n : ℕ) (cs : List Char) :
    KeepsPace limit n ⟨.free, n⟩ cs (scalar cs) := by
  have hfree : Scan.Outside n ⟨.free, n⟩ := Or.inl rfl
  cases h : scalar cs with
  | ok r =>
    rcases exists_lexeme h with ⟨w, hw, hcs, -⟩ | ⟨l, hcs, -⟩
    · exact ⟨_, ⟨w.1, hcs, rfl⟩, hfree.run_plain (isPlain_words w hw)⟩
    · exact ⟨_, ⟨l.text, hcs, rfl⟩, hfree.run_plain l.isPlain_text⟩
  | error e =>
    cases e with
    | fault cause rest => trivial
    | digits e => exact ⟨_, cs, .refl _ cs, rfl, startsLong_of_scalar h⟩
    | tooDeep c => exact absurd h scalar_ne_tooDeep

/-! ## Values -/

/-- What a value may start at, behind the first character behind some blanks. -/
theorem Passes.skipBlank_next {n' : ℕ} (h : s.Outside n) (hskip : Json.skipBlank cs = c :: rest)
    (hc : Scan.outside n c = ⟨.free, n'⟩) :
    Passes s cs ⟨.free, n'⟩ (Json.skipBlank rest) := by
  have hnext := Passes.next h hskip
  rw [hc] at hnext
  exact hnext.trans (.skipBlank n' rest)

mutual

/-- **The reader of values and the scan keep pace.**  The induction is on the fuel; what is open and
what there is room for make up the limit. -/
theorem value_keepsPace (fuel : ℕ) {room n : ℕ} (hroom : n + room = limit) (cs : List Char) :
    KeepsPace limit n ⟨.free, n⟩ cs (value fuel room cs) := by
  match fuel with
  | 0 => trivial
  | fuel + 1 =>
    unfold value
    split
    · exact (string_keepsPace (Or.inl rfl) _).map fun _ => rfl
    · rename_i rest
      have hopen : Passes ⟨.free, n⟩ ('\x7b' :: rest) ⟨.free, n + 1⟩ rest := (Passes.refl _ _).cons
      split
      · exact ⟨_, rest, hopen, by simp only; omega⟩
      · rename_i room
        have hroom' : n + 1 + room = limit := by omega
        split
        · rename_i rest' hskip
          exact KeepsPace.of_passes hopen ⟨_, .next (Or.inl rfl) hskip, Or.inr rfl⟩
        · refine KeepsPace.of_passes (hopen.trans (.skipBlank _ rest)) ?_
          exact (members_keepsPace fuel hroom' _).map fun _ => rfl
    · rename_i rest
      have hopen : Passes ⟨.free, n⟩ ('[' :: rest) ⟨.free, n + 1⟩ rest := (Passes.refl _ _).cons
      split
      · exact ⟨_, rest, hopen, by simp only; omega⟩
      · rename_i room
        have hroom' : n + 1 + room = limit := by omega
        split
        · rename_i rest' hskip
          exact KeepsPace.of_passes hopen ⟨_, .next (Or.inl rfl) hskip, Or.inr rfl⟩
        · refine KeepsPace.of_passes (hopen.trans (.skipBlank _ rest)) ?_
          exact (elements_keepsPace fuel hroom' _).map fun _ => rfl
    · exact scalar_keepsPace n _

theorem members_keepsPace (fuel : ℕ) {room n : ℕ} (hroom : n + 1 + room = limit)
    (cs : List Char) : KeepsPace limit n ⟨.free, n + 1⟩ cs (members fuel room cs) := by
  match fuel with
  | 0 => trivial
  | fuel + 1 =>
    unfold members
    split
    · rename_i rest
      refine (string_keepsPace (Or.inl rfl) rest).bind fun ⟨name, rest₁⟩ ⟨s₁, h₁, hout₁⟩ => ?_
      simp only
      split
      · rename_i rest₂ hcolon
        refine KeepsPace.of_passes (h₁.trans (.skipBlank_next hout₁ hcolon rfl)) ?_
        refine (value_keepsPace fuel hroom _).bind fun ⟨v, rest₃⟩ ⟨s₃, h₃, hout₃⟩ => ?_
        simp only
        split
        · rename_i rest₄ hbrace
          exact ⟨_, h₃.trans (.next hout₃ hbrace), Or.inr rfl⟩
        · rename_i rest₄ hcomma
          refine KeepsPace.of_passes (h₃.trans (.skipBlank_next hout₃ hcomma rfl)) ?_
          exact (members_keepsPace fuel hroom _).bind fun r hr => hr
        · trivial
      · trivial
    · trivial

theorem elements_keepsPace (fuel : ℕ) {room n : ℕ} (hroom : n + 1 + room = limit)
    (cs : List Char) : KeepsPace limit n ⟨.free, n + 1⟩ cs (elements fuel room cs) := by
  match fuel with
  | 0 => trivial
  | fuel + 1 =>
    unfold elements
    refine (value_keepsPace fuel hroom _).bind fun ⟨v, rest₁⟩ ⟨s₁, h₁, hout₁⟩ => ?_
    simp only
    split
    · rename_i rest₂ hbracket
      exact ⟨_, h₁.trans (.next hout₁ hbracket), Or.inr rfl⟩
    · rename_i rest₂ hcomma
      refine KeepsPace.of_passes (h₁.trans (.skipBlank_next hout₁ hcomma rfl)) ?_
      exact (elements_keepsPace fuel hroom _).bind fun r hr => hr
    · trivial

end

/-! ## Texts -/

theorem document_yields (room : ℕ) (text : List Char) :
    Yields (Stops room .start text) (fun _ => True) (document room text) := by
  unfold document
  split
  · trivial
  · have hvalue := (value_keepsPace (2 * text.length + 2) (Nat.zero_add room)
      (skipBlank text)).of_passes (.skipBlank 0 text)
    refine Yields.bind hvalue fun ⟨v, rest⟩ _ => ?_
    simp only
    split <;> trivial

/-- **A text that is refused for its depth is deep.** -/
theorem isDeep_of_read {room : ℕ} {container : Container}
    (h : read room text = .error (.tooDeep container)) : IsDeep room text := by
  have hstops := document_yields room text
  unfold read at h
  split at h <;> cases h
  rename_i hread
  rw [hread] at hstops
  exact hstops

/-- **A text that is refused for its digits has such a number.** -/
theorem hasLongInteger_of_read {room : ℕ} {e : TooManyDigits}
    (h : read room text = .error (.digits e)) : HasLongInteger text := by
  have hstops := document_yields room text
  unfold read at h
  split at h <;> cases h
  rename_i hread
  rw [hread] at hstops
  exact hstops

theorem value_brackets (room fuel : ℕ) (rest : List Char) (hfuel : 2 * room < fuel) :
    value fuel room (List.replicate (room + 1) '[' ++ rest) = .error (.tooDeep .array) := by
  induction room generalizing fuel with
  | zero =>
    obtain ⟨fuel, rfl⟩ := Nat.exists_eq_succ_of_ne_zero (Nat.ne_of_gt hfuel)
    rfl
  | succ room ih =>
    obtain ⟨fuel, rfl⟩ : ∃ k, fuel = k + 2 := ⟨fuel - 2, by omega⟩
    have hinner : value fuel room (List.replicate (room + 1) '[' ++ rest) =
        .error (.tooDeep .array) := ih fuel (by omega)
    rw [List.replicate_succ, List.cons_append] at hinner
    rw [List.replicate_succ, List.replicate_succ]
    change Except.map _ (value fuel room ('[' :: (List.replicate room '[' ++ rest)) >>= _) = _
    rw [hinner]
    rfl

/-- **Brackets that are too many are refused**, whatever follows them. -/
theorem read_brackets (room : ℕ) (rest : List Char) :
    read room (List.replicate (room + 1) '[' ++ rest) = .error (.tooDeep .array) := by
  have hfuel : 2 * room < 2 * (List.replicate (room + 1) '[' ++ rest).length + 2 := by
    rw [List.length_append, List.length_replicate]
    omega
  have hvalue := value_brackets room _ rest hfuel
  rw [List.replicate_succ, List.cons_append] at hvalue ⊢
  have hdocument : document room ('[' :: (List.replicate room '[' ++ rest)) =
      .error (.tooDeep .array) := by
    rw [document, skipBlank_cons (by decide), hvalue]
    · rfl
    · rintro rest heq
      exact absurd (List.cons.inj heq).1 (by decide)
  rw [read, hdocument]

end DesignTokens.Json
