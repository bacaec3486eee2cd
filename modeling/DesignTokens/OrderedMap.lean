/-!
# OrderedMap — finite maps that remember when a key first came

A map from keys to values whose entries stand in the order in which their keys first came.
Writing a key that is already there replaces its value and keeps its place, so **the last write
decides the value and the first one the position**.  The keys of a map are pairwise distinct, and
the type carries the proof.

* `get?_insert` — an insertion is seen at its key and nowhere else.
* `get?_eq_some_iff` — the value at a key is that of its entry.
* `keys_insert_of_mem`, `keys_insert_of_not_mem` — where an insertion leaves the keys.
-/

namespace DesignTokens

variable {α β γ : Type}

/-! ## Entries: the same operations on bare lists of pairs -/

namespace Entries

variable [DecidableEq α]

/-- Writes `v` at `k`: in place when `k` is there, at the end when it is not. -/
def put (k : α) (v : β) : List (α × β) → List (α × β)
  | [] => [(k, v)]
  | (k', v') :: rest => if k' = k then (k, v) :: rest else (k', v') :: put k v rest

/-- The value at `k`. -/
def get? (k : α) : List (α × β) → Option β
  | [] => none
  | (k', v') :: rest => if k' = k then some v' else get? k rest

/-- The pairs written one after the other into an empty list. -/
def ofList (pairs : List (α × β)) : List (α × β) :=
  pairs.foldl (fun es p => put p.1 p.2 es) []

theorem map_fst_put_of_mem {k : α} {v : β} {es : List (α × β)} (h : k ∈ es.map Prod.fst) :
    (put k v es).map Prod.fst = es.map Prod.fst := by
  induction es with
  | nil => simp at h
  | cons e rest ih =>
    by_cases hk : e.1 = k
    · simp [put, hk]
    · have : k ∈ rest.map Prod.fst := by
        rcases List.mem_cons.1 h with h | h
        · exact absurd h.symm hk
        · exact h
      simp [put, hk, ih this]

/-- A key that is not there is written at the end. -/
theorem put_of_not_mem {k : α} {v : β} {es : List (α × β)} (h : k ∉ es.map Prod.fst) :
    put k v es = es ++ [(k, v)] := by
  induction es with
  | nil => rfl
  | cons e rest ih =>
    obtain ⟨hk, hr⟩ := not_or.1 (fun h' => h (List.mem_cons.2 h'))
    have hk' : ¬ e.1 = k := fun h' => hk h'.symm
    simp [put, hk', ih hr]

theorem map_fst_put_of_not_mem {k : α} {v : β} {es : List (α × β)} (h : k ∉ es.map Prod.fst) :
    (put k v es).map Prod.fst = es.map Prod.fst ++ [k] := by
  rw [put_of_not_mem h, List.map_append, List.map_singleton]

/-- **Distinct keys stay distinct.** -/
theorem nodup_put {k : α} {v : β} {es : List (α × β)} (h : (es.map Prod.fst).Nodup) :
    ((put k v es).map Prod.fst).Nodup := by
  by_cases hk : k ∈ es.map Prod.fst
  · rw [map_fst_put_of_mem hk]; exact h
  · rw [map_fst_put_of_not_mem hk, List.nodup_append]
    refine ⟨h, by simp, ?_⟩
    intro a ha b hb hab
    rw [List.mem_singleton] at hb
    exact hk (hb ▸ hab ▸ ha)

theorem get?_put (k k' : α) (v : β) (es : List (α × β)) :
    get? k' (put k v es) = if k' = k then some v else get? k' es := by
  induction es with
  | nil =>
    by_cases h : k' = k
    · simp [put, get?, h]
    · simp [put, get?, h, Ne.symm h]
  | cons e rest ih =>
    by_cases hk : e.1 = k
    · by_cases h : k' = k
      · simp [put, get?, hk, h]
      · simp [put, get?, hk, h, Ne.symm h]
    · by_cases h : k' = k
      · subst h; simp [put, get?, hk, ih]
      · simp [put, get?, hk, ih, h]

theorem get?_eq_none_iff {k : α} {es : List (α × β)} :
    get? k es = none ↔ k ∉ es.map Prod.fst := by
  induction es with
  | nil => simp [get?]
  | cons e rest ih =>
    by_cases hk : e.1 = k
    · simp [get?, hk]
    · simp [get?, hk, Ne.symm hk, ih]

/-- Where no key has two entries, the value at a key is that of its entry. -/
theorem get?_eq_some_iff {k : α} {v : β} {es : List (α × β)} (h : (es.map Prod.fst).Nodup) :
    get? k es = some v ↔ (k, v) ∈ es := by
  induction es with
  | nil => simp [get?]
  | cons e rest ih =>
    obtain ⟨k', v'⟩ := e
    obtain ⟨hk', hrest⟩ := List.nodup_cons.1 h
    by_cases hk : k' = k
    · subst hk
      have hnot : (k', v) ∉ rest := fun hm => hk' (List.mem_map.2 ⟨_, hm, rfl⟩)
      simp [get?, hnot, eq_comm]
    · simp [get?, hk, Ne.symm hk, ih hrest]

theorem get?_map (f : β → γ) (k : α) (es : List (α × β)) :
    get? k (es.map fun e => (e.1, f e.2)) = (get? k es).map f := by
  induction es with
  | nil => rfl
  | cons e rest ih => by_cases hk : e.1 = k <;> simp [get?, hk, ih]

theorem map_put (f : β → γ) (k : α) (v : β) (es : List (α × β)) :
    (put k v es).map (fun e => (e.1, f e.2)) = put k (f v) (es.map fun e => (e.1, f e.2)) := by
  induction es with
  | nil => rfl
  | cons e rest ih => by_cases hk : e.1 = k <;> simp [put, hk, ih]

end Entries

/-! ## Maps -/

/-- A finite map with its entries in the order in which their keys first came. -/
structure OrderedMap (α β : Type) where
  /-- The entries, oldest key first. -/
  entries : List (α × β)
  /-- No key has two entries. -/
  nodup_keys : (entries.map Prod.fst).Nodup

namespace OrderedMap

/-- The map without entries. -/
def empty : OrderedMap α β := ⟨[], List.nodup_nil⟩

instance : Inhabited (OrderedMap α β) := ⟨empty⟩

/-- The keys, oldest first. -/
def keys (m : OrderedMap α β) : List α := m.entries.map Prod.fst

/-- The values, in the order of their keys. -/
def values (m : OrderedMap α β) : List β := m.entries.map Prod.snd

/-- How many keys there are. -/
def size (m : OrderedMap α β) : Nat := m.entries.length

/-- The map with every value replaced by its image. -/
def mapValues (f : β → γ) (m : OrderedMap α β) : OrderedMap α γ :=
  ⟨m.entries.map fun e => (e.1, f e.2), by
    have : (m.entries.map fun e => (e.1, f e.2)).map Prod.fst = m.entries.map Prod.fst := by
      simp [Function.comp_def]
    rw [this]; exact m.nodup_keys⟩

@[simp] theorem keys_mapValues (f : β → γ) (m : OrderedMap α β) :
    (m.mapValues f).keys = m.keys := by
  simp [keys, mapValues, Function.comp_def]

theorem mapValues_mapValues {δ : Type} (f : β → γ) (g : γ → δ) (m : OrderedMap α β) :
    (m.mapValues f).mapValues g = m.mapValues (g ∘ f) := by
  simp [mapValues, Function.comp_def]

variable [DecidableEq α]

/-- The value at a key. -/
def get? (m : OrderedMap α β) (k : α) : Option β := Entries.get? k m.entries

/-- Whether a key is there. -/
def contains (m : OrderedMap α β) (k : α) : Bool := (m.get? k).isSome

/-- Writes `v` at `k`, in place when `k` is there and at the end when it is not. -/
def insert (m : OrderedMap α β) (k : α) (v : β) : OrderedMap α β :=
  ⟨Entries.put k v m.entries, Entries.nodup_put m.nodup_keys⟩

/-- The pairs written one after the other into the empty map. -/
def ofList (pairs : List (α × β)) : OrderedMap α β :=
  pairs.foldl (fun m p => m.insert p.1 p.2) empty

theorem get?_insert (m : OrderedMap α β) (k k' : α) (v : β) :
    (m.insert k v).get? k' = if k' = k then some v else m.get? k' :=
  Entries.get?_put k k' v m.entries

theorem get?_eq_none_iff {m : OrderedMap α β} {k : α} : m.get? k = none ↔ k ∉ m.keys :=
  Entries.get?_eq_none_iff

theorem get?_eq_some_iff {m : OrderedMap α β} {k : α} {v : β} :
    m.get? k = some v ↔ (k, v) ∈ m.entries :=
  Entries.get?_eq_some_iff m.nodup_keys

theorem mem_keys_iff {m : OrderedMap α β} {k : α} : k ∈ m.keys ↔ ∃ v, m.get? k = some v := by
  rw [← Option.ne_none_iff_exists', ne_eq, get?_eq_none_iff, Decidable.not_not]

theorem mem_keys_of_get? {m : OrderedMap α β} {k : α} {v : β} (h : m.get? k = some v) :
    k ∈ m.keys :=
  mem_keys_iff.2 ⟨v, h⟩

theorem contains_iff {m : OrderedMap α β} {k : α} : m.contains k = true ↔ k ∈ m.keys := by
  rw [contains, Option.isSome_iff_exists, mem_keys_iff]

@[simp] theorem get?_mapValues (f : β → γ) (m : OrderedMap α β) (k : α) :
    (m.mapValues f).get? k = (m.get? k).map f :=
  Entries.get?_map f k m.entries

/-- A value may be replaced before it is written as well as afterwards. -/
theorem mapValues_insert (f : β → γ) (m : OrderedMap α β) (k : α) (v : β) :
    (m.insert k v).mapValues f = (m.mapValues f).insert k (f v) := by
  rw [insert, insert, mapValues, mk.injEq]
  exact Entries.map_put f k v m.entries

theorem entries_insert_of_not_mem {m : OrderedMap α β} {k : α} (v : β) (h : k ∉ m.keys) :
    (m.insert k v).entries = m.entries ++ [(k, v)] :=
  Entries.put_of_not_mem h

theorem keys_insert_of_mem {m : OrderedMap α β} {k : α} (v : β) (h : k ∈ m.keys) :
    (m.insert k v).keys = m.keys :=
  Entries.map_fst_put_of_mem h

theorem keys_insert_of_not_mem {m : OrderedMap α β} {k : α} (v : β) (h : k ∉ m.keys) :
    (m.insert k v).keys = m.keys ++ [k] :=
  Entries.map_fst_put_of_not_mem h

theorem mem_keys_insert {m : OrderedMap α β} {k k' : α} {v : β} :
    k' ∈ (m.insert k v).keys ↔ k' = k ∨ k' ∈ m.keys := by
  by_cases hk : k' = k <;> simp [mem_keys_iff, get?_insert, hk]

end OrderedMap

end DesignTokens
