import DesignTokens.Proofs.Schedule.Outcome

/-!
# Proofs/Table — a table of tokens and the schedule of its graph

The tokens of a table are listed under their own keys, so that the tokens in the order of a schedule
have the keys of the schedule.  Where each token depends on what its value reads, **a token stands
behind what it reads**, cycles excepted.

* `map_key_sorted` — the scheduled tokens, key by key.
* `Derived.idxOf_lt_or_dependsOn` — where the keys stand that a scheduled token reads.
-/

namespace DesignTokens

variable {flag k d : String}

theorem Expr.mem_dependencies {e : Expr} :
    k ∈ e.dependencies flag ↔ k ∈ e.references ∧ k ≠ flag := by
  simp [dependencies]

namespace TokenTable

variable {t : TokenTable} {token : Token}

theorem key_of_get? (h : t.get? k = some token) : token.key = k :=
  t.key_eq (k, token) (OrderedMap.get?_eq_some_iff.1 h)

theorem mem_tokens_iff : token ∈ t.tokens ↔ t.get? token.key = some token := by
  unfold tokens get? OrderedMap.values
  rw [OrderedMap.get?_eq_some_iff, List.mem_map]
  constructor
  · rintro ⟨⟨key, token'⟩, he, rfl⟩
    exact (t.key_eq _ he).symm ▸ he
  · intro he
    exact ⟨_, he, rfl⟩

theorem keys_graph (t : TokenTable) : t.graph.keys = t.keys := OrderedMap.keys_mapValues _ _

theorem edge_iff : t.graph.Edge k d ↔ ∃ token, t.get? k = some token ∧ d ∈ token.dependencies := by
  unfold Graph.Edge graph get?
  rw [OrderedMap.get?_mapValues]
  cases t.byKey.get? k with
  | none => simp
  | some token => simp

/-! ## The scheduled tokens -/

theorem map_key_filterMap_get? (keys : List String) (h : ∀ k ∈ keys, k ∈ t.keys) :
    (keys.filterMap t.get?).map Token.key = keys := by
  induction keys with
  | nil => rfl
  | cons key keys ih =>
    obtain ⟨token, htoken : t.get? key = some token⟩ :=
      OrderedMap.mem_keys_iff.1 (h key List.mem_cons_self)
    rw [List.filterMap_cons_some htoken, List.map_cons, key_of_get? htoken,
      ih fun k hk => h k (List.mem_cons_of_mem _ hk)]

/-- **The scheduled tokens have the keys of the schedule**, in its order. -/
theorem map_key_sorted (t : TokenTable) : t.sorted.map Token.key = t.graph.schedule.order := by
  refine map_key_filterMap_get? _ fun k hk => ?_
  have hmem := (Graph.mem_order_schedule_iff.1 hk).1
  rwa [keys_graph] at hmem

theorem get?_of_mem_sorted (h : token ∈ t.sorted) : t.get? token.key = some token := by
  obtain ⟨key, -, hkey⟩ := List.mem_filterMap.1 h
  exact (key_of_get? hkey).symm ▸ hkey

theorem mem_order_of_mem_sorted (h : token ∈ t.sorted) : token.key ∈ t.graph.schedule.order :=
  t.map_key_sorted ▸ List.mem_map_of_mem h

/-- Each token depends on what its value reads, the flag of the runtime excepted. -/
def Derived (flag : String) (t : TokenTable) : Prop :=
  ∀ token ∈ t.tokens, token.dependencies = token.value.dependencies flag

theorem Derived.edge (h : t.Derived flag) (htoken : t.get? token.key = some token)
    (hk : k ∈ token.value.references) (hflag : k ≠ flag) : t.graph.Edge token.key k := by
  refine edge_iff.2 ⟨token, htoken, ?_⟩
  rw [h token (mem_tokens_iff.2 htoken)]
  exact Expr.mem_dependencies.2 ⟨hk, hflag⟩

/-- **A scheduled token reads scheduled keys**, and stands behind them unless they depend on it. -/
theorem Derived.idxOf_lt_or_dependsOn (h : t.Derived flag) (htoken : token ∈ t.sorted)
    (hk : k ∈ token.value.references) (hflag : k ≠ flag) :
    k ∈ t.graph.schedule.order ∧
      (t.graph.schedule.order.idxOf k < t.graph.schedule.order.idxOf token.key ∨
        t.graph.DependsOn k token.key) := by
  obtain ⟨hfinished, hgraph⟩ := finished_schedule t.graph
  have hedge := h.edge (get?_of_mem_sorted htoken) hk hflag
  have hlisted := mem_order_of_mem_sorted htoken
  rw [← hgraph] at hedge
  have hbefore := hfinished.idxOf_lt_or_dependsOn hlisted hedge
  rw [hgraph] at hbefore
  exact ⟨hfinished.mem_order_of_edge hlisted hedge, hbefore⟩

theorem nodup_order (t : TokenTable) : t.graph.schedule.order.Nodup :=
  t.graph.nodup_order_schedule

/-- A scheduled key has one place in the schedule. -/
theorem getElem?_order_iff {i : Nat} (hk : k ∈ t.graph.schedule.order) :
    t.graph.schedule.order[i]? = some k ↔ i = t.graph.schedule.order.idxOf k := by
  constructor
  · intro hi
    obtain ⟨hlt, rfl⟩ := List.getElem?_eq_some_iff.1 hi
    exact (t.nodup_order.idxOf_getElem i hlt).symm
  · rintro rfl
    exact List.getElem?_idxOf hk

/-- The keys before a scheduled token are other ones. -/
theorem not_mem_before {before after : List Token} (h : t.sorted = before ++ token :: after) :
    token.key ∉ before.map Token.key := by
  have hnodup := t.nodup_order
  rw [← map_key_sorted, h, List.map_append, List.map_cons] at hnodup
  exact fun hm => List.disjoint_of_nodup_append hnodup hm List.mem_cons_self

/-- The keys behind a scheduled token are other ones. -/
theorem not_mem_after {before after : List Token} (h : t.sorted = before ++ token :: after) :
    token.key ∉ after.map Token.key := by
  have hnodup := t.nodup_order
  rw [← map_key_sorted, h, List.map_append, List.map_cons] at hnodup
  exact (List.nodup_cons.1 (List.nodup_append.1 hnodup).2.1).1

/-- The keys that stand before the key of a scheduled token are those of the tokens before it. -/
theorem mem_before_of_idxOf_lt {before after : List Token} (h : t.sorted = before ++ token :: after)
    (hlt : t.graph.schedule.order.idxOf k < t.graph.schedule.order.idxOf token.key) :
    k ∈ before.map Token.key := by
  rw [← map_key_sorted, h, List.map_append, List.map_cons] at hlt
  exact mem_of_idxOf_lt hlt

/-! ## Tables that were built by adding tokens -/

theorem Derived.add (h : t.Derived flag)
    (htoken : token.dependencies = token.value.dependencies flag) : (t.add token).Derived flag := by
  intro token' h'
  rw [mem_tokens_iff] at h'
  change (t.byKey.insert token.key token).get? token'.key = some token' at h'
  rw [OrderedMap.get?_insert] at h'
  split at h'
  · cases h'
    exact htoken
  · exact h token' (mem_tokens_iff.2 h')

theorem Derived.foldl_add {tokens : List Token} (h : t.Derived flag)
    (htokens : ∀ token ∈ tokens, token.dependencies = token.value.dependencies flag) :
    (tokens.foldl TokenTable.add t).Derived flag := by
  induction tokens generalizing t with
  | nil => exact h
  | cons token tokens ih =>
    exact ih (h.add (htokens token List.mem_cons_self))
      fun token' h' => htokens token' (List.mem_cons_of_mem _ h')

theorem derived_ofList {tokens : List Token}
    (h : ∀ token ∈ tokens, token.dependencies = token.value.dependencies flag) :
    (ofList tokens).Derived flag :=
  Derived.foldl_add (fun _ h' => absurd h' List.not_mem_nil) h

end TokenTable

end DesignTokens
