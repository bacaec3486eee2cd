import DesignTokens.Proofs.Position
import DesignTokens.Proofs.Schedule.Lookup

/-!
# Proofs/Schedule/Fixpoint — which keys settling drops

Settling may be asked of any search, whatever came before.  A listed key is **doomed** when a path
that runs through listed keys leads from it to a skipped one.  Each drop follows one edge of such a
path backwards, and a search without a further drop has none left, so that in whatever order the
passes meet the keys **the doomed ones are dropped and no others**.

* `Trimmed.drop`, `trimmed_settle` — what drops of some keys, one after the other, leave behind.
* `Trimmed.doomed`, `Trimmed.not_doomed` — the dropped keys are doomed, and the others are not.
* `settle_exact` — what settling comes to.
-/

namespace DesignTokens

open Relation

namespace Search

variable {s t u : Search} {k d : String} {removed keys : List String}

/-! ## Doomed keys -/

/-- `d` is among the dependencies of the listed key `k`. -/
def ListedEdge (s : Search) (k d : String) : Prop := k ∈ s.order ∧ s.graph.Edge k d

/-- A path that runs through listed keys leads to a skipped key. -/
def Doomed (s : Search) (k : String) : Prop :=
  ∃ d, TransGen s.ListedEdge k d ∧ s.marks.get? d = some .skipped

theorem Doomed.mem_order (h : s.Doomed k) : k ∈ s.order := by
  obtain ⟨d, hpath, -⟩ := h
  obtain ⟨_, hfirst, -⟩ := TransGen.head'_iff.1 hpath
  exact hfirst.1

theorem ListedEdge.doomed (h : s.ListedEdge k d) (hd : s.marks.get? d = some .skipped ∨ s.Doomed d) :
    s.Doomed k := by
  rcases hd with hd | ⟨e, hpath, he⟩
  · exact ⟨d, TransGen.single h, hd⟩
  · exact ⟨e, TransGen.head h hpath, he⟩

/-! ## Drops, one after the other -/

/-- What is left of the search `s` when some keys were dropped, in the order given. -/
structure Trimmed (s : Search) (removed : List String) (t : Search) : Prop where
  graph_eq : t.graph = s.graph
  nodup : removed.Nodup
  subset : ∀ k ∈ removed, k ∈ s.order
  order_eq : t.order = s.order.filter (· ∉ removed)
  get?_marks : ∀ k, t.marks.get? k = if k ∈ removed then some .skipped else s.marks.get? k
  get?_skipped : ∀ k, k ∉ removed → t.skipped.get? k = s.skipped.get? k
  /-- A key is dropped for a dependency that was skipped earlier. -/
  explained : ∀ before k after, removed = before ++ k :: after → ∃ d,
    t.skipped.get? k = some d ∧ s.graph.Edge k d ∧
      (s.marks.get? d = some .skipped ∨ d ∈ before)

theorem Trimmed.refl (s : Search) : Trimmed s [] s where
  graph_eq := rfl
  nodup := List.nodup_nil
  subset := fun _ hk => absurd hk List.not_mem_nil
  order_eq := by simp
  get?_marks := fun k => by simp
  get?_skipped := fun _ _ => rfl
  explained := fun before k after heq =>
    absurd heq.symm (List.append_ne_nil_of_right_ne_nil before (List.cons_ne_nil k after))

theorem Trimmed.skipped_iff (h : Trimmed s removed t) :
    t.marks.get? k = some .skipped ↔ k ∈ removed ∨ s.marks.get? k = some .skipped := by
  rw [h.get?_marks]
  by_cases hk : k ∈ removed
  · simp [hk]
  · simp [hk]

/-- To leave a key out of a list that has it once is to filter it out. -/
theorem filter_ne_of_nodup {before after : List String} {key : String}
    (hnodup : (before ++ key :: after).Nodup) :
    (before ++ key :: after).filter (· ≠ key) = before ++ after := by
  obtain ⟨hnot, -⟩ := List.nodup_cons.1 (List.nodup_middle.1 hnodup)
  obtain ⟨hbefore, hafter⟩ := not_or.1 (mt List.mem_append.2 hnot)
  have hkeep : ∀ {l : List String}, key ∉ l → l.filter (· ≠ key) = l := fun hl =>
    List.filter_eq_self.2 fun a ha => decide_eq_true fun he => hl (he ▸ ha)
  rw [List.filter_append, List.filter_cons_of_neg (by simp), hkeep hbefore, hkeep hafter]

/-- The reason of one more drop does not touch those of the earlier ones. -/
theorem Trimmed.explained_append {key dep : String} (h : Trimmed s removed t)
    (hnew : key ∉ removed) (hedge : s.graph.Edge key dep)
    (hskipped : s.marks.get? dep = some .skipped ∨ dep ∈ removed) (before : List String)
    (k : String) (after : List String) (heq : removed ++ [key] = before ++ k :: after) :
    ∃ d, (t.skipped.insert key dep).get? k = some d ∧ s.graph.Edge k d ∧
      (s.marks.get? d = some .skipped ∨ d ∈ before) := by
  rcases split_append_singleton heq with ⟨rfl, rfl⟩ | ⟨after', hfront⟩
  · exact ⟨dep, by rw [OrderedMap.get?_insert, if_pos rfl], hedge, hskipped⟩
  · obtain ⟨d, hd, hreason⟩ := h.explained before k after' hfront
    have hne : k ≠ key := fun he => hnew (he ▸ hfront ▸ List.mem_append_right _ List.mem_cons_self)
    exact ⟨d, by rw [OrderedMap.get?_insert, if_neg hne, hd], hreason⟩

/-- **One more drop** is written behind those before it. -/
theorem Trimmed.drop (h : Trimmed s removed t) (hnodup : s.order.Nodup) (hd : Drop t u) :
    ∃ key, Trimmed s (removed ++ [key]) u := by
  cases hd with | @intro key dep before after horder hdep => ?_
  have hlisted : key ∈ s.order.filter (· ∉ removed) :=
    h.order_eq ▸ horder ▸ List.mem_append_right _ List.mem_cons_self
  obtain ⟨hmem, hnew⟩ : key ∈ s.order ∧ key ∉ removed := by simpa using List.mem_filter.1 hlisted
  have hedge : s.graph.Edge key dep :=
    h.graph_eq ▸ mem_dependencies.1 (List.mem_of_find?_eq_some hdep)
  have hskipped : s.marks.get? dep = some .skipped ∨ dep ∈ removed :=
    (h.skipped_iff.1 (isSkipped_iff.1 (List.find?_some hdep))).symm
  refine ⟨key,
    { graph_eq := h.graph_eq
      nodup := List.nodup_append.2 ⟨h.nodup, List.nodup_singleton key, fun a ha b hb hab =>
        hnew (List.mem_singleton.1 hb ▸ hab ▸ ha)⟩
      subset := List.forall_mem_append.2 ⟨h.subset, List.forall_mem_singleton.2 hmem⟩
      order_eq := ?_
      get?_marks := fun k => ?_
      get?_skipped := fun k hk => ?_
      explained := h.explained_append hnew hedge hskipped }⟩
  · have hsplit : (before ++ key :: after).Nodup := horder ▸ h.order_eq ▸ hnodup.filter _
    calc before ++ after
        = (s.order.filter (· ∉ removed)).filter (· ≠ key) := by
          rw [← filter_ne_of_nodup hsplit, ← horder, h.order_eq]
      _ = s.order.filter (· ∉ removed ++ [key]) := by
          rw [List.filter_filter]
          refine List.filter_congr fun a _ => ?_
          simp [and_comm]
  · rw [get?_marks_unlist, h.get?_marks]
    by_cases hk : k = key
    · simp [hk]
    · simp [hk]
  · obtain ⟨hk, hne⟩ : k ∉ removed ∧ k ≠ key := by simpa using hk
    change (t.skipped.insert key dep).get? k = _
    rw [OrderedMap.get?_insert, if_neg hne, h.get?_skipped k hk]

/-- **Any number of drops** is one list of dropped keys. -/
theorem exists_trimmed (h : Drops s t) (hnodup : s.order.Nodup) :
    ∃ removed, Trimmed s removed t := by
  induction h with
  | refl => exact ⟨[], .refl s⟩
  | tail _ hd ih =>
    obtain ⟨removed, htrimmed⟩ := ih
    obtain ⟨key, hnext⟩ := htrimmed.drop hnodup hd
    exact ⟨_, hnext⟩

/-! ## What is dropped -/

/-- **A dropped key is doomed.**  The induction is on the number of keys dropped before it. -/
theorem Trimmed.doomed (h : Trimmed s removed t) (before : List String) (k : String)
    (after : List String) (heq : removed = before ++ k :: after) : s.Doomed k := by
  obtain ⟨d, -, hedge, hd⟩ := h.explained before k after heq
  have hk : k ∈ s.order := h.subset k (heq ▸ List.mem_append_right _ List.mem_cons_self)
  refine ListedEdge.doomed ⟨hk, hedge⟩ (hd.imp_right fun hd => ?_)
  obtain ⟨front, between, hbefore⟩ := List.append_of_mem hd
  have hlt : front.length < before.length := by
    rw [hbefore, List.length_append, List.length_cons]
    omega
  refine h.doomed front d (between ++ k :: after) ?_
  rw [heq, hbefore, List.append_assoc, List.cons_append]
  termination_by before.length

/-- **Where nothing is left to drop, a kept key is not doomed**: along a path that starts at a kept
key every listed key is kept. -/
theorem Trimmed.not_doomed (h : Trimmed s removed t) (hsettled : t.Settled) (hk : k ∉ removed) :
    ¬ s.Doomed k := by
  rintro ⟨e, hpath, he⟩
  have hkept : ∀ {a b}, a ∉ removed → s.ListedEdge a b → t.marks.get? b ≠ some .skipped := by
    intro a b ha hab
    have ha' : a ∈ t.order := by
      rw [h.order_eq]
      exact List.mem_filter.2 ⟨hab.1, decide_eq_true ha⟩
    exact hsettled a ha' b (h.graph_eq ▸ hab.2)
  induction hpath using TransGen.head_induction_on with
  | single hab => exact hkept hk hab (h.skipped_iff.2 (Or.inr he))
  | head hab _ ih => exact ih fun hmem => hkept hk hab (h.skipped_iff.2 (Or.inl hmem))

/-! ## Settling -/

theorem trimmed_settle (hnodup : s.order.Nodup) : ∃ removed, Trimmed s removed s.settle ∧
    ∀ k, k ∈ removed ↔ s.Doomed k := by
  obtain ⟨hdrops, hsettled⟩ := settle_drops s
  obtain ⟨removed, htrimmed⟩ := exists_trimmed hdrops hnodup
  refine ⟨removed, htrimmed, fun k => ⟨fun hk => ?_, fun hk => ?_⟩⟩
  · obtain ⟨before, after, heq⟩ := List.append_of_mem hk
    exact htrimmed.doomed before k after heq
  · exact not_not.1 fun hn => htrimmed.not_doomed hsettled hn hk

/-- A pass that does not break off has looked up each of its keys. -/
theorem mem_keys_of_trySweep {r : Search × List String} (h : s.trySweep keys = .ok r) :
    ∀ k ∈ keys, k ∈ s.graph.keys := by
  induction keys generalizing s r with
  | nil => exact fun k hk => absurd hk List.not_mem_nil
  | cons key keys ih =>
    obtain ⟨deps, hdeps, h⟩ := bind_eq_ok h
    obtain ⟨found, -, h⟩ := bind_eq_ok h
    have hkey : key ∈ s.graph.keys := by
      unfold dependenciesOf at hdeps
      split at hdeps
      · rename_i hget
        exact OrderedMap.mem_keys_of_get? hget
      · cases hdeps
    have hrest : ∀ k ∈ keys, k ∈ s.graph.keys := by
      cases found with
      | some dep => exact ih (s := s.skip key dep) h
      | none =>
        obtain ⟨r', hr', -⟩ := bind_eq_ok h
        exact ih hr'
    exact List.forall_mem_cons.2 ⟨hkey, hrest⟩

/-- **Settling breaks off only at a listed name that is no key**, where the dependencies of the
listed keys have marks. -/
theorem trySettle_eq_iff (hdeps : ∀ k ∈ s.order, ∀ d, s.graph.Edge k d → d ∈ s.marks.keys) :
    s.trySettle = .ok s.settle ↔ ∀ k ∈ s.order, k ∈ s.graph.keys := by
  constructor
  · intro h
    rw [trySettle] at h
    split at h
    · cases h
    · rename_i r hr
      exact mem_keys_of_trySweep hr
  · exact fun hkeys => trySettle_eq s fun k hk => ⟨hkeys k hk, hdeps k hk⟩

/-- **What settling does** to a search whose list names no key twice and no skipped one, and in
which the dependencies of the listed keys have marks.  It comes to its end, unless it breaks off at
a listed name that is no key.  The doomed keys are dropped, and the others stay listed in the order
in which they were.  The dropped keys are those that become skipped, and nothing else changes its
mark; each of them is kept with one of its own dependencies, which was skipped before it. -/
theorem settle_exact (s : Search) (hnodup : s.order.Nodup)
    (hlisted : ∀ k ∈ s.order, s.marks.get? k ≠ some .skipped)
    (hdeps : ∀ k ∈ s.order, ∀ d, s.graph.Edge k d → d ∈ s.marks.keys) :
    (s.trySettle = .ok s.settle ↔ ∀ k ∈ s.order, k ∈ s.graph.keys) ∧
      ∃ removed : List String, removed.Nodup ∧
        (∀ k, k ∈ removed ↔ k ∈ s.order ∧ s.Doomed k) ∧
        s.settle.order = s.order.filter (· ∉ removed) ∧
        (∀ k, k ∈ removed ↔
          s.marks.get? k ≠ some .skipped ∧ s.settle.marks.get? k = some .skipped) ∧
        (∀ k, k ∉ removed → s.settle.marks.get? k = s.marks.get? k ∧
          s.settle.skipped.get? k = s.skipped.get? k) ∧
        ∀ before k after, removed = before ++ k :: after → ∃ d,
          s.settle.skipped.get? k = some d ∧ s.graph.Edge k d ∧
            (s.marks.get? d = some .skipped ∨ d ∈ before) := by
  obtain ⟨removed, htrimmed, hdoomed⟩ := trimmed_settle hnodup
  refine ⟨trySettle_eq_iff hdeps, removed, htrimmed.nodup, fun k => ?_, htrimmed.order_eq,
    fun k => ⟨fun hk => ?_, fun hk => ?_⟩, fun k hk => ⟨?_, htrimmed.get?_skipped k hk⟩,
    htrimmed.explained⟩
  · rw [hdoomed]
    exact ⟨fun hk => ⟨hk.mem_order, hk⟩, fun hk => hk.2⟩
  · exact ⟨hlisted k (htrimmed.subset k hk), htrimmed.skipped_iff.2 (Or.inl hk)⟩
  · exact (htrimmed.skipped_iff.1 hk.2).resolve_right hk.1
  · rw [htrimmed.get?_marks, if_neg hk]

/-- Keys that stand before what they depend on, down to a name that is skipped and no key, and a key
that depends on itself. -/
def chain : Search :=
  { graph := .ofList [("a", ["b"]), ("b", ["c", "a"]), ("c", ["c", "x"]), ("d", ["d"])]
    marks := .ofList [("a", .visited), ("b", .visited), ("c", .visited), ("d", .visited),
      ("x", .skipped)]
    order := ["a", "d", "b", "c"]
    skipped := .ofList [("x", "y")] }

/-- Every pass drops the last key that is left of the chain, and the key that depends on itself
stays. -/
theorem settle_exact_chain :
    (chain.order.Nodup ∧ (∀ k ∈ chain.order, chain.marks.get? k ≠ some .skipped) ∧
      (∀ k ∈ chain.order, ∀ d, chain.graph.Edge k d → d ∈ chain.marks.keys) ∧
      ∀ k ∈ chain.order, k ∈ chain.graph.keys) ∧
    chain.trySettle = .ok chain.settle ∧ chain.settle.order = ["d"] ∧
      chain.Doomed "a" ∧ ¬ chain.Doomed "d" ∧
      (∀ k ∈ chain.order, chain.Doomed k ↔ chain.settle.marks.get? k = some .skipped) := by
  have hnodup : chain.order.Nodup := by decide
  have hlisted : ∀ k ∈ chain.order, chain.marks.get? k ≠ some .skipped := by decide
  have hdeps : ∀ k ∈ chain.order, ∀ d, chain.graph.Edge k d → d ∈ chain.marks.keys := by
    have hall : ∀ k ∈ chain.order, ∀ d ∈ chain.dependencies k, d ∈ chain.marks.keys := by decide
    exact fun k hk d hd => hall k hk d (mem_dependencies.2 hd)
  have hkeys : ∀ k ∈ chain.order, k ∈ chain.graph.keys := by decide
  have horder : chain.settle.order = ["d"] := by decide +kernel
  obtain ⟨htry, removed, -, hdoomed, hkept, hskipped, -⟩ :=
    settle_exact chain hnodup hlisted hdeps
  have hremoved : ∀ k ∈ chain.order, chain.Doomed k ↔ k ∉ chain.settle.order := by
    intro k hk
    rw [hkept, List.mem_filter, decide_eq_true_eq, hdoomed]
    exact ⟨fun h hn => hn.2 ⟨hk, h⟩, fun h => not_not.1 fun hn => h ⟨hk, fun hd => hn hd.2⟩⟩
  refine ⟨⟨hnodup, hlisted, hdeps, hkeys⟩, htry.2 hkeys, horder, ?_, ?_, fun k hk => ?_⟩
  · exact (hremoved "a" (by decide)).2 (by rw [horder]; decide)
  · exact fun hd => (hremoved "d" (by decide)).1 hd (by rw [horder]; decide)
  · have hk' := (hdoomed k).symm.trans (hskipped k)
    rwa [and_iff_right hk, and_iff_right (hlisted k hk)] at hk'

end Search

end DesignTokens
