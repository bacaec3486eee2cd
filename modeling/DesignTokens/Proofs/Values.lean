import DesignTokens.Proofs.Color
import DesignTokens.Proofs.Except
import DesignTokens.Proofs.Size

/-!
# Proofs/Values — the values that entries have

A colour is six hexadecimal digits or a placeholder, a size is a number, a count of pixels or a
placeholder, and typography tells fonts and sizes.  **Choices are not nested**: both their sides are
colours, and their flag is the one of the settings.

* `Expr.IsValue` — the values there are.
* `Category.isValue_of_read` — what is read in an entry is one of them.
* `Expr.Kind` — the kinds of values, which the targets write in different ways.
-/

namespace DesignTokens

open Json Text

variable {flag key : String} {entry raw : Value} {e : Expr}

/-! ## Shapes of values -/

/-- A number sign with six hexadecimal digits in upper case. -/
def Color.IsHex (hex : List Char) : Prop :=
  ∃ digits : List Char, hex = '#' :: digits ∧ digits.length = 6 ∧ ∀ c ∈ digits, c ∈ hexadecimals

theorem Color.IsHex.mem {hex : List Char} (h : IsHex hex) {c : Char} (hc : c ∈ hex) :
    c = '#' ∨ c ∈ hexadecimals := by
  obtain ⟨digits, rfl, -, hdigits⟩ := h
  exact (List.mem_cons.1 hc).imp_right (hdigits c)

namespace Expr

/-- The kinds of values. -/
inductive Kind where
  | color
  | number
  | reference
  | conditional
  | pixels
  | font
  deriving DecidableEq, Repr

/-- The kind of a value. -/
def kind : Expr → Kind
  | .color _ => .color
  | .number _ => .number
  | .reference _ => .reference
  | .conditional _ _ _ => .conditional
  | .pixels _ => .pixels
  | .font _ _ _ => .font

/-- A colour, or a placeholder for one. -/
inductive IsPaint : Expr → Prop
  | color {hex : String} (isHex : Color.IsHex hex.toList) : IsPaint (.color hex)
  | reference {key : String} (isKey : Alias.IsKey key.toList) : IsPaint (.reference key)

/-- A size, or a placeholder for one. -/
inductive IsSize : Expr → Prop
  | number {text : String} (numberText : Size.NumberText text) : IsSize (.number text)
  | reference {key : String} (isKey : Alias.IsKey key.toList) : IsSize (.reference key)
  | pixels (count : Int) : IsSize (.pixels count)

/-- What an entry may have for a value, where `flag` is the flag of the runtime. -/
inductive IsValue (flag : String) : Expr → Prop
  | color {hex : String} (isHex : Color.IsHex hex.toList) : IsValue flag (.color hex)
  | number {text : String} (numberText : Size.NumberText text) : IsValue flag (.number text)
  | reference {key : String} (isKey : Alias.IsKey key.toList) : IsValue flag (.reference key)
  | choice {dark light : Expr} (dark_isPaint : dark.IsPaint) (light_isPaint : light.IsPaint) :
      IsValue flag (.conditional flag dark light)
  | pixels (count : Int) : IsValue flag (.pixels count)
  | font (family size : String) (bold : Bool) : IsValue flag (.font family size bold)

/-- What can be read in some entry of some file. -/
def IsRead (e : Expr) : Prop :=
  ∃ (category : Category) (flag key : String) (entry : Value),
    category.read flag key entry = .ok (some e)

theorem IsPaint.isValue (h : e.IsPaint) : e.IsValue flag := by
  cases h with
  | color isHex => exact .color isHex
  | reference isKey => exact .reference isKey

theorem IsSize.isValue (h : e.IsSize) : e.IsValue flag := by
  cases h with
  | number numberText => exact .number numberText
  | reference isKey => exact .reference isKey
  | pixels count => exact .pixels count

end Expr

/-! ## What is read -/

namespace Color

/-- The digits of three channels are those of a colour. -/
theorem isHex_flatMap (a b c : Nat) : IsHex ('#' :: [a, b, c].flatMap channelText) := by
  refine ⟨_, rfl, ?_, fun d hd => ?_⟩
  · simp [(channelText_spec _).1]
  · obtain ⟨n, -, hd⟩ := List.mem_flatMap.1 hd
    exact (channelText_spec n).2 d hd

/-- **What is read as a colour is one**, or a placeholder. -/
theorem isPaint_of_read (h : read raw = .ok e) : e.IsPaint := by
  cases raw with
  | string s =>
    rcases read_eq_ok_iff.1 h with ⟨key, rfl, hkey, -⟩ | ⟨red, green, blue, -, -, rfl⟩
    · exact .reference hkey
    · refine .color ?_
      rw [String.toList_ofList]
      exact isHex_flatMap _ _ _
  | _ => cases h

/-- The colour of an entry: one colour, or a choice between two. -/
theorem ofEntry_cases (h : ofEntry flag key entry = .ok e) :
    e.IsPaint ∨ ∃ dark light, e = .conditional flag dark light ∧ dark.IsPaint ∧ light.IsPaint := by
  unfold ofEntry at h
  split at h
  · obtain ⟨lightValue, -, h⟩ := bind_eq_ok h
    obtain ⟨light, hlight, h⟩ := bind_eq_ok h
    obtain ⟨darkValue, -, h⟩ := bind_eq_ok h
    obtain ⟨dark, hdark, h⟩ := bind_eq_ok h
    cases h
    exact Or.inr ⟨dark, light, rfl, isPaint_of_read hdark, isPaint_of_read hlight⟩
  · obtain ⟨v, -, h⟩ := bind_eq_ok h
    exact Or.inl (isPaint_of_read h)

end Color

namespace Size

/-- **What is read as a size is one**, or a placeholder. -/
theorem isSize_of_read (h : read raw = .ok e) : e.IsSize := by
  cases raw with
  | int n =>
    cases h
    exact .number (.int n)
  | float x =>
    cases h
    exact .number (.float x)
  | string s =>
    rcases read_eq_ok_iff.1 h with
      ⟨key, rfl, hkey, -⟩ | ⟨negative, run, rfl, -⟩ | ⟨rfl, hnumeral⟩
    · exact .reference hkey
    · exact .pixels _
    · exact .number (.given (isNumber_iff.2 hnumeral))
  | _ => cases h

theorem isSize_of_ofEntry (h : ofEntry key entry = .ok e) : e.IsSize := by
  unfold ofEntry at h
  split at h
  · obtain ⟨v, -, h⟩ := bind_eq_ok h
    exact isSize_of_read h
  · obtain ⟨v, -, h⟩ := bind_eq_ok h
    exact isSize_of_read h

end Size

/-- What typography tells: a font, or a size. -/
theorem Font.ofEntry?_cases (h : ofEntry? key entry = .ok (some e)) :
    (∃ family size bold, e = .font family size bold) ∨ e.IsSize := by
  unfold ofEntry? at h
  split at h
  · obtain ⟨font, hfont, hsome⟩ := map_eq_ok h
    cases hsome
    have hobject := mapError_eq_ok hfont
    unfold ofObject at hobject
    split at hobject
    · cases hobject
    · split at hobject
      · cases hobject
      · split at hobject
        · cases hobject
        · cases hobject
          exact Or.inl ⟨_, _, _, rfl⟩
  · split at h
    · obtain ⟨size, hsize, hsome⟩ := map_eq_ok h
      cases hsome
      exact Or.inr (Size.isSize_of_ofEntry hsize)
    · cases h

/-- **What is read in an entry is a value**, whatever its file is of. -/
theorem Category.isValue_of_read {category : Category}
    (h : category.read flag key entry = .ok (some e)) : e.IsValue flag := by
  unfold read at h
  split at h
  · obtain ⟨color, hcolor, hsome⟩ := map_eq_ok h
    cases hsome
    rcases Color.ofEntry_cases hcolor with hpaint | ⟨dark, light, rfl, hdark, hlight⟩
    · exact hpaint.isValue
    · exact .choice hdark hlight
  · obtain ⟨size, hsize, hsome⟩ := map_eq_ok h
    cases hsome
    exact (Size.isSize_of_ofEntry hsize).isValue
  · rcases Font.ofEntry?_cases h with ⟨family, size, bold, rfl⟩ | hsize
    · exact .font family size bold
    · exact hsize.isValue

theorem Expr.IsRead.exists_isValue (h : e.IsRead) : ∃ flag, e.IsValue flag := by
  obtain ⟨category, flag, key, entry, hread⟩ := h
  exact ⟨flag, category.isValue_of_read hread⟩

end DesignTokens
