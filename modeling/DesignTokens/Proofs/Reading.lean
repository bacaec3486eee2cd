import DesignTokens.Proofs.Color
import DesignTokens.Proofs.KeyParts
import DesignTokens.Proofs.Size

/-!
# Proofs/Reading — which entries end the reading

An entry that makes no token is rejected, and the reading goes on.  What ends it is a channel of a
colour or a count of pixels with too many digits, **where that value is looked at**: the dark colour
of an entry only once its light one was read, a metric only in typography.  Keys end it where there
are two of them at least and one ends in such a number.

* `Color.ofEntry_eq_digits_iff`, `Size.ofEntry_eq_digits_iff` — the entries of colours and of sizes.
* `Category.read_eq_digits_iff` — the entries of a category.
* `Key.sort_eq_error_iff` — the keys that cannot be put in order.
-/

namespace DesignTokens

open Json Text

variable {α β : Type} {flag key : String} {entry raw v : Json.Value}

/-! ## Steps of a reading -/

namespace EntryFault

variable {x : Except EntryFault α}

/-- A reading ends at its first step, or behind it. -/
theorem bind_eq_digits_iff {f : α → Except EntryFault β} :
    (∃ e, x >>= f = .error (.digits e)) ↔
      (∃ e, x = .error (.digits e)) ∨ ∃ a, x = .ok a ∧ ∃ e, f a = .error (.digits e) := by
  cases x with
  | error fault =>
    constructor
    · rintro ⟨e, h⟩
      cases h
      exact Or.inl ⟨e, rfl⟩
    · rintro (⟨e, h⟩ | ⟨a, h, -⟩) <;> cases h
      exact ⟨e, rfl⟩
  | ok a =>
    constructor
    · exact fun h => Or.inr ⟨a, rfl, h⟩
    · rintro (⟨e, h⟩ | ⟨a, h, hf⟩) <;> cases h
      exact hf

theorem map_eq_digits_iff {f : α → β} :
    (∃ e, x.map f = .error (.digits e)) ↔ ∃ e, x = .error (.digits e) := by
  constructor
  · rintro ⟨e, h⟩
    exact ⟨e, map_eq_error h⟩
  · rintro ⟨e, rfl⟩
    exact ⟨e, rfl⟩

/-- A step that can only reject an entry does not end a reading. -/
theorem rejected_bind_eq_digits_iff {r : Except Rejection α} {f : α → Except EntryFault β} :
    (∃ e, r.mapError .rejected >>= f = .error (.digits e)) ↔
      ∃ a, r = .ok a ∧ ∃ e, f a = .error (.digits e) := by
  rw [bind_eq_digits_iff]
  constructor
  · rintro (⟨e, h⟩ | ⟨a, h, hf⟩)
    · obtain ⟨r', -, hr'⟩ := mapError_eq_error h
      cases hr'
    · exact ⟨a, mapError_eq_ok h, hf⟩
  · rintro ⟨a, rfl, hf⟩
    exact Or.inr ⟨a, rfl, hf⟩

end EntryFault

open EntryFault

/-! ## Colours -/

namespace Color

/-- A colour with a channel of too many digits. -/
def IsLong (raw : Value) : Prop :=
  ∃ s red green blue, raw = .string s ∧ IsWritten s.toList red green blue ∧
    ∃ run ∈ [red, green, blue], digitLimit < run.length

theorem read_eq_digits_iff_isLong : (∃ e, read raw = .error (.digits e)) ↔ IsLong raw := by
  constructor
  · rintro ⟨e, h⟩
    cases raw with
    | string s =>
      obtain ⟨red, green, blue, hlong⟩ := read_eq_digits_iff.1 ⟨e, h⟩
      exact ⟨s, red, green, blue, rfl, hlong⟩
    | _ => cases h
  · rintro ⟨s, red, green, blue, rfl, hlong⟩
    exact read_eq_digits_iff.2 ⟨red, green, blue, hlong⟩

/-- The values of an entry that are read as colours. -/
inductive LooksAt (key : String) (entry : Value) : Value → Prop
  | plain {v : Value} (not_sets : ¬ Entry.hasSets entry = true)
      (value : Entry.value key entry = .ok v) : LooksAt key entry v
  | light {v : Value} (sets : Entry.hasSets entry = true)
      (variant : Entry.variant key entry "light" = .ok v) : LooksAt key entry v
  /-- The dark colour, once the light one was read. -/
  | dark {light v : Value} {x : Expr} (sets : Entry.hasSets entry = true)
      (variant_light : Entry.variant key entry "light" = .ok light)
      (read_light : read light = .ok x)
      (variant : Entry.variant key entry "dark" = .ok v) : LooksAt key entry v

/-- **The entries of colours that end the reading**: a value that is looked at is too long. -/
theorem ofEntry_eq_digits_iff : (∃ e, ofEntry flag key entry = .error (.digits e)) ↔
    ∃ v, LooksAt key entry v ∧ IsLong v := by
  unfold ofEntry
  split
  · rename_i hsets
    simp only [rejected_bind_eq_digits_iff, bind_eq_digits_iff, read_eq_digits_iff_isLong]
    constructor
    · rintro ⟨light, hlight, hlong | ⟨x, hread, dark, hdark, hlong | ⟨y, -, e, he⟩⟩⟩
      · exact ⟨light, .light hsets hlight, hlong⟩
      · exact ⟨dark, .dark hsets hlight hread hdark, hlong⟩
      · cases he
    · rintro ⟨v, hv, hlong⟩
      cases hv with
      | plain not_sets value => exact absurd hsets not_sets
      | light sets variant => exact ⟨v, variant, Or.inl hlong⟩
      | dark sets variant_light read_light variant =>
        exact ⟨_, variant_light, Or.inr ⟨_, read_light, v, variant, Or.inl hlong⟩⟩
  · rename_i hsets
    simp only [rejected_bind_eq_digits_iff, read_eq_digits_iff_isLong]
    constructor
    · rintro ⟨v, hv, hlong⟩
      exact ⟨v, .plain hsets hv, hlong⟩
    · rintro ⟨v, hv, hlong⟩
      cases hv with
      | plain not_sets value => exact ⟨v, value, hlong⟩
      | light sets _ => exact absurd sets hsets
      | dark sets _ _ _ => exact absurd sets hsets

end Color

/-! ## Sizes -/

namespace Size

/-- A count of pixels of too many digits. -/
def IsLong (raw : Value) : Prop :=
  ∃ s negative run, raw = .string s ∧ IsPixels s.toList negative run ∧ digitLimit < run.length

theorem read_eq_digits_iff_isLong : (∃ e, read raw = .error (.digits e)) ↔ IsLong raw := by
  constructor
  · rintro ⟨e, h⟩
    cases raw with
    | string s =>
      obtain ⟨negative, run, hlong⟩ := read_eq_digits_iff.1 ⟨e, h⟩
      exact ⟨s, negative, run, rfl, hlong⟩
    | _ => cases h
  · rintro ⟨s, negative, run, rfl, hlong⟩
    exact read_eq_digits_iff.2 ⟨negative, run, hlong⟩

/-- The value of an entry that is read as a size. -/
inductive LooksAt (key : String) (entry : Value) : Value → Prop
  | plain {v : Value} (not_sets : ¬ Entry.hasSets entry = true)
      (value : Entry.value key entry = .ok v) : LooksAt key entry v
  | desktop {v : Value} (sets : Entry.hasSets entry = true)
      (variant : Entry.variant key entry "desktop" = .ok v) : LooksAt key entry v

/-- **The entries of sizes that end the reading**: the value that is looked at is too long. -/
theorem ofEntry_eq_digits_iff : (∃ e, ofEntry key entry = .error (.digits e)) ↔
    ∃ v, LooksAt key entry v ∧ IsLong v := by
  unfold ofEntry
  split
  · rename_i hsets
    simp only [rejected_bind_eq_digits_iff, read_eq_digits_iff_isLong]
    constructor
    · rintro ⟨v, hv, hlong⟩
      exact ⟨v, .desktop hsets hv, hlong⟩
    · rintro ⟨v, hv, hlong⟩
      cases hv with
      | plain not_sets value => exact absurd hsets not_sets
      | desktop sets variant => exact ⟨v, variant, hlong⟩
  · rename_i hsets
    simp only [rejected_bind_eq_digits_iff, read_eq_digits_iff_isLong]
    constructor
    · rintro ⟨v, hv, hlong⟩
      exact ⟨v, .plain hsets hv, hlong⟩
    · rintro ⟨v, hv, hlong⟩
      cases hv with
      | plain not_sets value => exact ⟨v, value, hlong⟩
      | desktop sets _ => exact absurd sets hsets

end Size

/-! ## Categories -/

/-- The value of an entry that a file of a category has it looked at for is too long: of a font only
what is a metric is. -/
def Category.EndsReading (category : Category) (key : String) (entry : Value) : Prop :=
  match category with
  | .color => ∃ v, Color.LooksAt key entry v ∧ Color.IsLong v
  | .layout => ∃ v, Size.LooksAt key entry v ∧ Size.IsLong v
  | .font => Font.object? entry = none ∧ Font.isMetric key = true ∧
      ∃ v, Size.LooksAt key entry v ∧ Size.IsLong v

theorem Font.ofEntry?_eq_digits_iff : (∃ e, ofEntry? key entry = .error (.digits e)) ↔
    object? entry = none ∧ isMetric key = true ∧ ∃ v, Size.LooksAt key entry v ∧ Size.IsLong v := by
  unfold ofEntry?
  split
  · rename_i font hfont
    rw [map_eq_digits_iff]
    constructor
    · rintro ⟨e, h⟩
      obtain ⟨field, -, hfield⟩ := mapError_eq_error h
      cases hfield
    · rintro ⟨h, -⟩
      cases hfont.symm.trans h
  · rename_i hnone
    split
    · rename_i hmetric
      rw [map_eq_digits_iff, Size.ofEntry_eq_digits_iff]
      exact ⟨fun h => ⟨hnone, hmetric, h⟩, fun h => h.2.2⟩
    · rename_i hmetric
      constructor
      · rintro ⟨e, h⟩
        cases h
      · rintro ⟨-, h, -⟩
        exact absurd h hmetric

/-- **What ends the reading**, whatever the file is of. -/
theorem Category.read_eq_digits_iff (flag : String) {category : Category} :
    (∃ e, category.read flag key entry = .error (.digits e)) ↔ category.EndsReading key entry := by
  cases category with
  | color => exact map_eq_digits_iff.trans Color.ofEntry_eq_digits_iff
  | layout => exact map_eq_digits_iff.trans Size.ofEntry_eq_digits_iff
  | font => exact Font.ofEntry?_eq_digits_iff

/-! ## Keys -/

namespace Key

variable {keys : List String}

/-- A key that ends in a number of too many digits. -/
def IsLong (key : String) : Prop :=
  ∃ stem digits, EndsInNumber key.toList stem digits ∧ digitLimit < digits.length

theorem split_eq_error_iff_isLong : (∃ e, split key = .error e) ↔ IsLong key := by
  constructor
  · rintro ⟨e, h⟩
    obtain ⟨stem, digits, hends, hlong, -⟩ := split_eq_error_iff.1 h
    exact ⟨stem, digits, hends, hlong⟩
  · rintro ⟨stem, digits, hends, hlong⟩
    exact ⟨_, split_eq_error_iff.2 ⟨stem, digits, hends, hlong, rfl⟩⟩

theorem splitAll_eq_error_iff :
    (∃ e, splitAll keys = .error e) ↔ 2 ≤ keys.length ∧ ∃ key ∈ keys, IsLong key := by
  match keys with
  | [] => simp [splitAll]
  | [a] => simp [splitAll]
  | a :: b :: rest =>
    constructor
    · rintro ⟨e, h⟩
      refine ⟨Nat.le_add_left 2 rest.length, ?_⟩
      rcases bind_eq_error h with hb | ⟨pb, -, h⟩
      · exact ⟨b, by simp, split_eq_error_iff_isLong.1 ⟨e, hb⟩⟩
      rcases bind_eq_error h with ha | ⟨pa, -, h⟩
      · exact ⟨a, by simp, split_eq_error_iff_isLong.1 ⟨e, ha⟩⟩
      rcases bind_eq_error h with hrest | ⟨parts, -, h⟩
      · obtain ⟨key, hkey, hsplit⟩ := mapM_eq_error hrest
        exact ⟨key, by simp [hkey], split_eq_error_iff_isLong.1 ⟨e, hsplit⟩⟩
      · cases h
    · rintro ⟨-, key, hkey, hlong⟩
      cases h : splitAll (a :: b :: rest) with
      | error e => exact ⟨e, rfl⟩
      | ok parts =>
        obtain ⟨pb, hb, h⟩ := bind_eq_ok h
        obtain ⟨pa, ha, h⟩ := bind_eq_ok h
        obtain ⟨ps, hrest, -⟩ := bind_eq_ok h
        obtain ⟨p, hp⟩ : ∃ p, split key = .ok p := by
          rcases List.mem_cons.1 hkey with rfl | hkey
          · exact ⟨pa, ha⟩
          rcases List.mem_cons.1 hkey with rfl | hkey
          · exact ⟨pb, hb⟩
          · exact exists_of_mapM_eq_ok hrest hkey
        obtain ⟨e, he⟩ := split_eq_error_iff_isLong.2 hlong
        cases hp.symm.trans he

/-- **Keys that cannot be put in order** are more than one, and one of them is too long. -/
theorem sort_eq_error_iff :
    (∃ e, sort keys = .error e) ↔ 2 ≤ keys.length ∧ ∃ key ∈ keys, IsLong key := by
  rw [← splitAll_eq_error_iff]
  constructor
  · rintro ⟨e, h⟩
    rcases bind_eq_error h with hparts | ⟨parts, -, h⟩
    · exact ⟨e, hparts⟩
    · cases h
  · rintro ⟨e, h⟩
    exact ⟨e, by rw [sort, h]; rfl⟩

end Key

end DesignTokens
