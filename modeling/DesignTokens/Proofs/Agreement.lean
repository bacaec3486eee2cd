import DesignTokens.Reading
import Mathlib.Data.List.Forall2

/-!
# Proofs/Agreement — what of an entry its reading looks at

Of an object only some members are looked at.  Two values **agree on** these where they are one
value, or objects whose members of these names are related, whatever else the objects hold.  The
relation is carried from the inside to the outside: from the values of variants to the variants,
from these to the sets, and from there to the entries.

What is not looked at can still show where a message tells a whole value.  A colour that is refused
is told, and so is a size; of these only an **object that is refused as a size** holds members that
nothing looked at.

* `Category.Agree` — entries that agree in what their category looks at.
* `Category.Agree.read` — such entries are read alike.
-/

namespace DesignTokens

open Json

section Rel

variable {α : Type} {R : α → α → Prop} {a b : Option α}

theorem eq_of_rel (h : Option.Rel Eq a b) : a = b := by
  cases h with
  | none => rfl
  | some h => rw [h]

theorem isSome_eq_of_rel (h : Option.Rel R a b) : a.isSome = b.isSome := by
  cases h <;> rfl

end Rel

/-! ## Values that agree -/

/-- Which values may stand for each other. -/
abbrev Likeness := Json.Value → Json.Value → Prop

namespace Json.Value

variable {parts : List (String × Likeness)} {R : Likeness} {v w : Value} {name : String}

/-- Two values are one value, or objects whose members of some names are related. -/
def AgreeOn (parts : List (String × Likeness)) : Likeness := fun v w =>
  v = w ∨ ∃ ms ns, v = .object ms ∧ w = .object ns ∧
    ∀ p ∈ parts, Option.Rel p.2 (Entries.get? p.1 ms) (Entries.get? p.1 ns)

theorem AgreeOn.refl (parts : List (String × Likeness)) (v : Value) : AgreeOn parts v v :=
  Or.inl rfl

/-- Values that agree have related members. -/
theorem AgreeOn.member? (h : AgreeOn parts v w) (hp : (name, R) ∈ parts) (hR : ∀ v, R v v) :
    Option.Rel R (v.member? name) (w.member? name) := by
  rcases h with rfl | ⟨ms, ns, rfl, rfl, h⟩
  · cases v.member? name with
    | none => exact .none
    | some u => exact .some (hR u)
  · exact h _ hp

theorem AgreeOn.member?_eq (h : AgreeOn parts v w) (hp : (name, Eq) ∈ parts) :
    v.member? name = w.member? name :=
  eq_of_rel (h.member? hp fun _ => rfl)

end Json.Value

/-! ## Results that differ in a value at most -/

/-- Two results with related values, or with the same error. -/
inductive SameResult {ε α : Type} (R : α → α → Prop) : Except ε α → Except ε α → Prop where
  | ok {a b : α} (h : R a b) : SameResult R (.ok a) (.ok b)
  | error (e : ε) : SameResult R (.error e) (.error e)

theorem SameResult.refl {ε α : Type} {R : α → α → Prop} (hR : ∀ a, R a a) (x : Except ε α) :
    SameResult R x x := by
  cases x with
  | ok a => exact .ok (hR a)
  | error e => exact .error e

theorem SameResult.eq {ε α : Type} {x y : Except ε α} (h : SameResult Eq x y) : x = y := by
  cases h with
  | ok h => rw [h]
  | error e => rfl

/-- Two readings of an entry with the same outcome, but that the values that are refused as sizes
are only related. -/
inductive SameReading {α : Type} (R : Likeness) :
    Except EntryFault α → Except EntryFault α → Prop where
  | same (x : Except EntryFault α) : SameReading R x x
  | size {v w : Value} (h : R v w) :
    SameReading R (.error (.rejected (.size v))) (.error (.rejected (.size w)))

theorem SameReading.eq {α : Type} {x y : Except EntryFault α} (h : SameReading Eq x y) :
    x = y := by
  cases h with
  | same x => rfl
  | size h => rw [h]

theorem SameReading.map {α β : Type} {R : Likeness} {x y : Except EntryFault α} (f : α → β)
    (h : SameReading R x y) : SameReading R (x.map f) (y.map f) := by
  cases h with
  | same x => exact .same _
  | size h => exact .size h

/-! ## Entries that agree -/

namespace Entry

variable {parts : List (String × Likeness)} {R own variants : Likeness} {names : List String}
variable {entry entry' : Value} {key name : String}

/-- Two entries agree in their values, and in the values of the variants of some names. -/
def Agree (own variants : Likeness) (names : List String) : Likeness :=
  Value.AgreeOn
    [("value", own),
     ("sets", Value.AgreeOn (names.map fun name => (name, Value.AgreeOn [("value", variants)])))]

/-- Entries that agree in their values both have one, or neither has for the same reason. -/
theorem value_of_agreeOn (h : Value.AgreeOn parts entry entry') (hp : ("value", R) ∈ parts)
    (hR : ∀ v, R v v) : SameResult R (value key entry) (value key entry') := by
  rcases h with rfl | ⟨ms, ns, rfl, rfl, h⟩
  · exact .refl hR _
  · have hvalue : Option.Rel R (Entries.get? "value" ms) (Entries.get? "value" ns) := h _ hp
    simp only [value, Value.members?]
    generalize Entries.get? "value" ms = v? at hvalue ⊢
    generalize Entries.get? "value" ns = w? at hvalue ⊢
    cases hvalue with
    | none => exact .error _
    | some hvw => exact .ok hvw

namespace Agree

theorem refl (own variants : Likeness) (names : List String) (entry : Value) :
    Agree own variants names entry entry :=
  Value.AgreeOn.refl _ entry

theorem value (h : Agree own variants names entry entry') (hown : ∀ v, own v v) :
    SameResult own (value key entry) (value key entry') :=
  value_of_agreeOn h List.mem_cons_self hown

/-- Entries that agree but in their values may have values that are related otherwise. -/
theorem of_value (h : Agree own variants names entry entry')
    (hvalue : Option.Rel R (entry.member? "value") (entry'.member? "value")) :
    Agree R variants names entry entry' := by
  rcases h with rfl | ⟨ms, ns, rfl, rfl, h⟩
  · exact .refl R variants names entry
  · exact Or.inr ⟨ms, ns, rfl, rfl, List.forall_mem_cons.2 ⟨hvalue, (List.forall_mem_cons.1 h).2⟩⟩

theorem sets (h : Agree own variants names entry entry') :
    Option.Rel (Value.AgreeOn (names.map fun name => (name, Value.AgreeOn [("value", variants)])))
      (entry.member? "sets") (entry'.member? "sets") :=
  h.member? (List.mem_cons_of_mem _ List.mem_cons_self) (Value.AgreeOn.refl _)

theorem hasSets_eq (h : Agree own variants names entry entry') : hasSets entry = hasSets entry' :=
  isSome_eq_of_rel h.sets

/-- Entries that agree agree in the values of the variants that are looked at. -/
theorem variant (h : Agree own variants names entry entry') (hname : name ∈ names)
    (hvariants : ∀ v, variants v v) :
    SameResult variants (variant key entry name) (variant key entry' name) := by
  have hset : Option.Rel (Value.AgreeOn [("value", variants)])
      ((entry.member? "sets").bind fun sets => sets.member? name)
      ((entry'.member? "sets").bind fun sets => sets.member? name) := by
    have hsets := h.sets
    generalize entry.member? "sets" = s? at hsets ⊢
    generalize entry'.member? "sets" = t? at hsets ⊢
    cases hsets with
    | none => exact .none
    | some hst => exact hst.member? (List.mem_map_of_mem hname) (Value.AgreeOn.refl _)
  rw [Entry.variant, Entry.variant]
  generalize ((entry.member? "sets").bind fun sets => sets.member? name) = s? at hset ⊢
  generalize ((entry'.member? "sets").bind fun sets => sets.member? name) = t? at hset ⊢
  cases hset with
  | none => exact .error _
  | some hst => exact value_of_agreeOn hst List.mem_cons_self hvariants

end Agree

end Entry

/-! ## Readings of entries that agree -/

variable {entry entry' : Value} {flag key : String} {R : Likeness}

/-- The colours of a file are those of values that are the same. -/
theorem Color.ofEntry_congr (h : Entry.Agree Eq Eq ["light", "dark"] entry entry') :
    ofEntry flag key entry = ofEntry flag key entry' := by
  have hvalue : Entry.value key entry = Entry.value key entry' := (h.value fun _ => rfl).eq
  have hvariant : ∀ name ∈ ["light", "dark"],
      Entry.variant key entry name = Entry.variant key entry' name := fun name hname =>
    (h.variant hname fun _ => rfl).eq
  have hlight := hvariant "light" List.mem_cons_self
  have hdark := hvariant "dark" (List.mem_cons_of_mem _ List.mem_cons_self)
  rw [ofEntry, ofEntry, h.hasSets_eq, hvalue, hlight, hdark]

/-- A likeness of values that are read as sizes: a value stands for itself, and otherwise an object
for an object. -/
structure Likeness.OfSizes (R : Likeness) : Prop where
  refl : ∀ v, R v v
  eq_or_objects : ∀ {v w}, R v w → v = w ∨ ∃ ms ns, v = .object ms ∧ w = .object ns

theorem Likeness.ofSizes_eq : Likeness.OfSizes Eq := ⟨fun _ => rfl, Or.inl⟩

namespace Size

/-- Every object is refused as a size. -/
theorem read_congr (hR : R.OfSizes) {v w : Value} (h : R v w) :
    SameReading R (read v) (read w) := by
  rcases hR.eq_or_objects h with rfl | ⟨ms, ns, rfl, rfl⟩
  · exact .same _
  · exact .size h

theorem read_bind_congr (hR : R.OfSizes) {x y : Except Rejection Value} (h : SameResult R x y) :
    SameReading R (do read (← x.mapError .rejected)) (do read (← y.mapError .rejected)) := by
  cases h with
  | ok h => exact read_congr hR h
  | error r => exact .same _

theorem ofEntry_congr (hR : R.OfSizes) (h : Entry.Agree R R ["desktop"] entry entry') :
    SameReading R (ofEntry key entry) (ofEntry key entry') := by
  rw [ofEntry, ofEntry, h.hasSets_eq]
  split
  · exact read_bind_congr hR (h.variant List.mem_cons_self hR.refl)
  · exact read_bind_congr hR (h.value hR.refl)

end Size

namespace Font

/-- Two objects that describe the same font: they agree in all that a font is made of. -/
def SameFont : Likeness := fun v w =>
  v = w ∨ ((v.member? "fontFamily").isSome = true ∧
    Value.AgreeOn [("fontFamily", Eq), ("fontSize", Eq), ("fontWeight", Eq)] v w)

namespace SameFont

variable {v w : Value}

theorem agreeOn (h : SameFont v w) :
    Value.AgreeOn [("fontFamily", Eq), ("fontSize", Eq), ("fontWeight", Eq)] v w := by
  rcases h with rfl | ⟨-, h⟩
  · exact .refl _ v
  · exact h

theorem ofSizes : Likeness.OfSizes SameFont where
  refl _ := Or.inl rfl
  eq_or_objects h := h.agreeOn.imp_right fun ⟨ms, ns, hv, hw, _⟩ => ⟨ms, ns, hv, hw⟩

theorem family_eq (h : SameFont v w) : v.member? "fontFamily" = w.member? "fontFamily" :=
  h.agreeOn.member?_eq List.mem_cons_self

/-- The same font is made of them. -/
theorem ofObject_eq (h : SameFont v w) : ofObject v = ofObject w := by
  have hsize : v.member? "fontSize" = w.member? "fontSize" :=
    h.agreeOn.member?_eq (List.mem_cons_of_mem _ List.mem_cons_self)
  have hweight : v.member? "fontWeight" = w.member? "fontWeight" :=
    h.agreeOn.member?_eq (List.mem_cons_of_mem _ (List.mem_cons_of_mem _ List.mem_cons_self))
  rw [ofObject, ofObject, h.family_eq, hsize, hweight]

/-- What describes no font is like itself alone. -/
theorem eq_of_family (h : SameFont v w) (hv : (v.member? "fontFamily").isSome = false) : v = w := by
  rcases h with rfl | ⟨hfamily, -⟩
  · rfl
  · cases hv.symm.trans hfamily

end SameFont

theorem object?_congr {names : List String} (h : Entry.Agree SameFont R names entry entry') :
    Option.Rel SameFont (object? entry) (object? entry') := by
  have hvalue := h.member? List.mem_cons_self SameFont.ofSizes.refl
  rw [object?, object?]
  generalize entry.member? "value" = v? at hvalue ⊢
  generalize entry'.member? "value" = w? at hvalue ⊢
  cases hvalue with
  | none => exact .none
  | some hvw =>
    simp only [hvw.family_eq]
    split
    · exact .some hvw
    · exact .none

/-- Where no font is described, the values of entries that agree are the same. -/
theorem agree_of_object?_eq_none {names : List String} (hR : R.OfSizes)
    (h : Entry.Agree SameFont R names entry entry') (hnone : object? entry = none) :
    Entry.Agree R R names entry entry' := by
  refine h.of_value ?_
  have hvalue := h.member? List.mem_cons_self SameFont.ofSizes.refl
  rw [object?] at hnone
  generalize entry.member? "value" = v? at hvalue hnone ⊢
  generalize entry'.member? "value" = w? at hvalue ⊢
  cases hvalue with
  | none => exact .none
  | @some v w hvw =>
    have hfamily : (v.member? "fontFamily").isSome = false := by
      simpa only [ite_eq_right_iff, reduceCtorEq, imp_false, Bool.not_eq_true] using hnone
    rw [hvw.eq_of_family hfamily]
    exact .some (hR.refl w)

/-- What is told of a font is told of fonts that are the same, and a size is read otherwise. -/
theorem ofEntry_congr (hR : R.OfSizes) (h : Entry.Agree SameFont R ["desktop"] entry entry') :
    SameReading R (Font.ofEntry? key entry) (Font.ofEntry? key entry') := by
  have hobject := object?_congr h
  have hsize := agree_of_object?_eq_none hR h
  rw [Font.ofEntry?, Font.ofEntry?]
  generalize object? entry = font? at hobject hsize ⊢
  generalize object? entry' = font?' at hobject ⊢
  cases hobject with
  | none =>
    simp only
    split
    · exact (Size.ofEntry_congr hR (hsize rfl)).map some
    · exact .same _
  | some hfont =>
    simp only [hfont.ofObject_eq]
    exact .same _

end Font

namespace Category

/-- Two entries agree in what their category looks at.  Values of desktop variants in typography are
related as given, and all other values that are looked at are the same, fonts in what makes them. -/
def Agree (R : Likeness) : Category → Likeness
  | .color => Entry.Agree Eq Eq ["light", "dark"]
  | .layout => Entry.Agree Eq Eq ["desktop"]
  | .font => Entry.Agree Font.SameFont R ["desktop"]

theorem Agree.refl (R : Likeness) (category : Category) (entry : Value) :
    category.Agree R entry entry := by
  cases category <;> exact Entry.Agree.refl _ _ _ entry

/-- **Entries that agree are read alike.** -/
theorem Agree.read {category : Category} (hR : R.OfSizes) (h : category.Agree R entry entry') :
    SameReading R (category.read flag key entry) (category.read flag key entry') := by
  cases category with
  | color =>
    rw [Category.read, Category.read, Color.ofEntry_congr h]
    exact .same _
  | layout =>
    rw [Category.read, Category.read, (Size.ofEntry_congr Likeness.ofSizes_eq h).eq]
    exact .same _
  | font => exact Font.ofEntry_congr hR h

end Category

end DesignTokens
