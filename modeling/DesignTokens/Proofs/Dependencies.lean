import DesignTokens.Proofs.Table
import Mathlib.Data.List.Lex

/-!
# Proofs/Dependencies — the keys that a value depends on

A reference to a key stands at a place of an expression, and the flag of a choice is a reference as
well.  A place is told by the parts of choices that lead to it, and of two places that one comes
first which lies in the earlier part, **flag, dark, light**, of the outermost choice where they
part. The dependencies of an expression are the keys that it refers to, but for the flag of the
runtime, each of them once and **in the order of the places where they are read first**.

* `Expr.mem_readings_iff`, `Expr.pairwise_readings` — what is read, in the order of its places.
* `Expr.idxOf_references_lt_iff` — which of two keys is read first.
* `dependencies_exact` — which keys an expression depends on, and in which order.
-/

namespace DesignTokens

namespace Expr

/-! ## Places -/

/-- A part of a choice. -/
inductive Part where
  | flag
  | dark
  | light
  deriving DecidableEq, Repr

/-- The order of the parts of a choice. -/
inductive Part.Before : Part → Part → Prop
  | flag_dark : Part.Before .flag .dark
  | flag_light : Part.Before .flag .light
  | dark_light : Part.Before .dark .light

instance : Std.Asymm Part.Before where
  asymm := by
    rintro _ _ (_ | _ | _) h <;> cases h

/-- A place in an expression: the parts of choices that lead to it, from the outermost choice on. -/
abbrev Place := List Part

/-- One place comes before another in the outermost choice where they part. -/
abbrev Place.Before : Place → Place → Prop := List.Lex Part.Before

/-- At a place of an expression stands a reference to a key. -/
inductive ReadsAt : Expr → String → Place → Prop
  | reference {key : String} : ReadsAt (.reference key) key []
  | flag {flag : String} {dark light : Expr} : ReadsAt (.conditional flag dark light) flag [.flag]
  | dark {flag key : String} {dark light : Expr} {place : Place} (h : ReadsAt dark key place) :
      ReadsAt (.conditional flag dark light) key (.dark :: place)
  | light {flag key : String} {dark light : Expr} {place : Place} (h : ReadsAt light key place) :
      ReadsAt (.conditional flag dark light) key (.light :: place)

/-- Of the references to a key, the one at a place comes before all others. -/
structure ReadsFirstAt (e : Expr) (key : String) (place : Place) : Prop where
  readsAt : e.ReadsAt key place
  eq_or_before : ∀ place', e.ReadsAt key place' → place' = place ∨ Place.Before place place'

variable {e dark light : Expr} {key flag a b : String} {place p q : Place}
variable {r r' : Place × String}

/-- A key is read first at one place only. -/
theorem ReadsFirstAt.eq (h : e.ReadsFirstAt key p) (h' : e.ReadsFirstAt key q) : p = q := by
  rcases h.eq_or_before q h'.readsAt with heq | hbefore
  · exact heq.symm
  · exact (h'.eq_or_before p h.readsAt).resolve_right (Std.Asymm.asymm _ _ hbefore)

/-! ## Readings -/

/-- What is read in a part of a choice, as it is read in the choice. -/
def within (part : Part) (r : Place × String) : Place × String := (part :: r.1, r.2)

/-- The references of an expression with their places. -/
def readings : Expr → List (Place × String)
  | .reference key => [([], key)]
  | .conditional flag dark light =>
    ([.flag], flag) :: (dark.readings.map (within .dark) ++ light.readings.map (within .light))
  | .color _ | .number _ | .pixels _ | .font _ _ _ => []

/-- The readings are those of the references. -/
theorem map_snd_readings (e : Expr) : e.readings.map Prod.snd = e.references := by
  have hwithin : ∀ {part : Part} {e : Expr},
      (e.readings.map (within part)).map Prod.snd = e.readings.map Prod.snd := List.map_map
  induction e with
  | conditional flag dark light ihDark ihLight =>
    rw [readings, references, List.map_cons, List.map_append, hwithin, hwithin, ihDark, ihLight]
  | _ => rfl

/-- A choice reads its flag and what either side reads. -/
theorem mem_readings_conditional : r ∈ (conditional flag dark light).readings ↔
    r = ([.flag], flag) ∨ (∃ r' ∈ dark.readings, within .dark r' = r) ∨
      ∃ r' ∈ light.readings, within .light r' = r := by
  rw [readings, List.mem_cons, List.mem_append, List.mem_map, List.mem_map]

theorem readsAt_of_mem_readings (h : (place, key) ∈ e.readings) : e.ReadsAt key place := by
  induction e generalizing place with
  | reference key' =>
    cases List.mem_singleton.1 h
    exact .reference
  | conditional flag dark light ihDark ihLight =>
    rcases mem_readings_conditional.1 h with h | ⟨r, hr, h⟩ | ⟨r, hr, h⟩
    · cases h
      exact .flag
    · cases h
      exact .dark (ihDark hr)
    · cases h
      exact .light (ihLight hr)
  | _ => cases h

theorem ReadsAt.mem_readings (h : e.ReadsAt key place) : (place, key) ∈ e.readings := by
  induction h with
  | reference => exact List.mem_singleton_self _
  | flag => exact mem_readings_conditional.2 (Or.inl rfl)
  | dark _ ih => exact mem_readings_conditional.2 (Or.inr (Or.inl ⟨_, ih, rfl⟩))
  | light _ ih => exact mem_readings_conditional.2 (Or.inr (Or.inr ⟨_, ih, rfl⟩))

/-- **The readings are what is read at some place.** -/
theorem mem_readings_iff : (place, key) ∈ e.readings ↔ e.ReadsAt key place :=
  ⟨readsAt_of_mem_readings, ReadsAt.mem_readings⟩

/-- What is read in a part comes behind every place in an earlier part. -/
theorem before_of_mem_map_within {part part' : Part} {rs : List (Place × String)}
    (hpart : part.Before part') (hr : r ∈ rs.map (within part')) :
    Place.Before (part :: place) r.1 := by
  obtain ⟨r, -, rfl⟩ := List.mem_map.1 hr
  exact .rel hpart

/-- **The readings come in the order of their places.** -/
theorem pairwise_readings (e : Expr) : e.readings.Pairwise fun r r' => Place.Before r.1 r'.1 := by
  induction e with
  | reference key => exact List.pairwise_singleton _ _
  | conditional flag dark light ihDark ihLight =>
    refine List.pairwise_cons.2 ⟨fun r hr => ?_, List.pairwise_append.2 ⟨?_, ?_, ?_⟩⟩
    · rcases List.mem_append.1 hr with hr | hr
      · exact before_of_mem_map_within .flag_dark hr
      · exact before_of_mem_map_within .flag_light hr
    · exact List.pairwise_map.2 (ihDark.imp .cons)
    · exact List.pairwise_map.2 (ihLight.imp .cons)
    · intro r hr r' hr'
      obtain ⟨r, -, rfl⟩ := List.mem_map.1 hr
      exact before_of_mem_map_within .dark_light hr'
  | _ => exact .nil

/-- An earlier reading is at an earlier place. -/
theorem before_of_lt {i j : Nat} (hi : e.readings[i]? = some r) (hj : e.readings[j]? = some r')
    (hlt : i < j) : Place.Before r.1 r'.1 := by
  obtain ⟨hilt, rfl⟩ := List.getElem?_eq_some_iff.1 hi
  obtain ⟨hjlt, rfl⟩ := List.getElem?_eq_some_iff.1 hj
  exact List.pairwise_iff_getElem.1 e.pairwise_readings i j hilt hjlt hlt

/-! ## First readings -/

/-- **A key is read first where it is listed first.** -/
theorem exists_readsFirstAt (h : key ∈ e.references) : ∃ place,
    e.readings[e.references.idxOf key]? = some (place, key) ∧ e.ReadsFirstAt key place := by
  have hsnd : ∀ i, (e.readings[i]?).map Prod.snd = e.references[i]? := fun i => by
    rw [← List.getElem?_map, map_snd_readings]
  obtain ⟨⟨place, key⟩, hfirst, rfl⟩ :=
    Option.map_eq_some_iff.1 ((hsnd _).trans (List.getElem?_idxOf h))
  refine ⟨place, hfirst, mem_readings_iff.1 (List.mem_of_getElem? hfirst), fun place' h' => ?_⟩
  obtain ⟨i, hi⟩ := List.mem_iff_getElem?.1 (mem_readings_iff.2 h')
  have hle : e.references.idxOf key ≤ i := idxOf_le_of_getElem? (by rw [← hsnd, hi]; rfl)
  rcases Nat.eq_or_lt_of_le hle with rfl | hlt
  · cases hi.symm.trans hfirst
    exact Or.inl rfl
  · exact Or.inr (before_of_lt hfirst hi hlt)

/-- **Of two keys one is listed first** where its first place comes before that of the other. -/
theorem idxOf_references_lt_iff (ha : a ∈ e.references) (hb : b ∈ e.references) :
    e.references.idxOf a < e.references.idxOf b ↔
      ∃ p q, e.ReadsFirstAt a p ∧ e.ReadsFirstAt b q ∧ Place.Before p q := by
  obtain ⟨p, hp, hpfirst⟩ := exists_readsFirstAt ha
  obtain ⟨q, hq, hqfirst⟩ := exists_readsFirstAt hb
  constructor
  · intro hlt
    exact ⟨p, q, hpfirst, hqfirst, before_of_lt hp hq hlt⟩
  · rintro ⟨p', q', hp', hq', hbefore⟩
    obtain rfl := hpfirst.eq hp'
    obtain rfl := hqfirst.eq hq'
    rcases Nat.lt_trichotomy (e.references.idxOf a) (e.references.idxOf b) with hlt | heq | hgt
    · exact hlt
    · rw [heq] at hp
      cases hp.symm.trans hq
      exact absurd hbefore (Std.Asymm.asymm _ _ hbefore)
    · exact absurd hbefore (Std.Asymm.asymm _ _ (before_of_lt hq hp hgt))

/-- What is listed is read at some place. -/
theorem mem_references_iff : key ∈ e.references ↔ ∃ place, e.ReadsAt key place := by
  simp only [← map_snd_readings, List.mem_map, Prod.exists, exists_eq_right, mem_readings_iff]

/-! ## Dependencies -/

/-- The dependencies stand in the order in which they are listed first. -/
theorem pairwise_dependencies (flag : String) (e : Expr) :
    (e.dependencies flag).Pairwise fun a b => e.references.idxOf a < e.references.idxOf b := by
  rw [dependencies, eraseDups_filter]
  exact (pairwise_idxOf_eraseDups e.references).filter _

/-- **Which keys an expression depends on, and in which order.**  No key is among its dependencies
twice; the keys among them are those that it refers to somewhere, but for the flag of the runtime;
and of two of them one stands first where its first place comes before that of the other. -/
theorem dependencies_exact (flag : String) (e : Expr) :
    (e.dependencies flag).Nodup ∧
    (∀ key, key ∈ e.dependencies flag ↔ key ≠ flag ∧ ∃ place, e.ReadsAt key place) ∧
    ∀ a ∈ e.dependencies flag, ∀ b ∈ e.dependencies flag,
      ((e.dependencies flag).idxOf a < (e.dependencies flag).idxOf b ↔
        ∃ p q, e.ReadsFirstAt a p ∧ e.ReadsFirstAt b q ∧ Place.Before p q) := by
  have hpairwise := pairwise_dependencies flag e
  refine ⟨hpairwise.imp fun hlt heq => ?_, fun key => ?_, fun a ha b hb => ?_⟩
  · exact Nat.lt_irrefl _ (heq ▸ hlt)
  · rw [mem_dependencies, mem_references_iff, and_comm]
  · rw [idxOf_lt_iff_of_pairwise hpairwise ha hb]
    exact idxOf_references_lt_iff (mem_dependencies.1 ha).1 (mem_dependencies.1 hb).1

/-- A choice between choices with flags of their own: `night` is the flag of the runtime wherever it
stands, `dusk` is read first as a flag, and `ink` as the flag of the light side. -/
def duskOrNight : Expr :=
  .conditional "night" (.conditional "dusk" (.reference "coal") (.reference "night"))
    (.conditional "ink" (.reference "coal") (.reference "dusk"))

theorem dependencies_exact_duskOrNight :
    "coal" ∈ duskOrNight.dependencies "night" ∧ "ink" ∈ duskOrNight.dependencies "night" ∧
      duskOrNight.dependencies "night" = ["dusk", "coal", "ink"] ∧
      ∃ p q, duskOrNight.ReadsFirstAt "coal" p ∧ duskOrNight.ReadsFirstAt "ink" q ∧
        Place.Before p q := by
  have hlist : duskOrNight.dependencies "night" = ["dusk", "coal", "ink"] := by decide
  have hcoal : "coal" ∈ duskOrNight.dependencies "night" := by decide
  have hink : "ink" ∈ duskOrNight.dependencies "night" := by decide
  obtain ⟨-, -, horder⟩ := dependencies_exact "night" duskOrNight
  exact ⟨hcoal, hink, hlist, (horder "coal" hcoal "ink" hink).1 (by decide)⟩

end Expr

end DesignTokens
