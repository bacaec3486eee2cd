import DesignTokens.Proofs.Schedule.Outcome

/-!
# Proofs/Schedule/Acyclic — graphs in which no key leads back to itself

Where there is no cycle, a dependency that was visited is **listed** by the time it is looked at
again: an open one would lead to the key in hand, which depends on it.  So a listed key has listed
dependencies only, nothing is left for settling to drop, and what a key is skipped for is the first
of its dependencies that is not listed in the end.

* `Direct.of_moves` — what every sequence of moves keeps in such a graph.
* `schedule_acyclic` — settling changes nothing, and which dependency a key is skipped for.
-/

namespace DesignTokens

open Relation

variable {g : Graph} {k d : String}

namespace Graph

/-- No key leads back to itself. -/
def Acyclic (g : Graph) : Prop := ∀ k ∈ g.keys, ¬ g.DependsOn k k

/-- A dependency does not lead to what depends on it. -/
theorem Acyclic.not_leads (h : g.Acyclic) (he : g.Edge k d) : ¬ g.Leads d k := fun hl =>
  h k he.mem_keys (TransGen.head' he hl)

end Graph

namespace Search

variable {s t : Search} {key dep : String}

/-! ## The invariant -/

/-- What holds between any two moves of a search in a graph without cycles. -/
structure Direct (s : Search) : Prop where
  listed_of_edge : ∀ k ∈ s.order, ∀ d, s.graph.Edge k d → d ∈ s.order
  /-- The dependencies in front of the one that a key is skipped for are listed. -/
  first_unmet : ∀ k d, s.skipped.get? k = some d →
    s.Unmet d ∧ ∃ done rest, s.dependencies k = done ++ d :: rest ∧ ∀ e ∈ done, e ∈ s.order

/-- A dependency that cannot be met cannot be met later either. -/
theorem Move.unmet_of_unmet (h : Move s t) (hd : s.Unmet d) : t.Unmet d := by
  rw [Unmet, h.graph_eq, isSkipped_iff]
  exact hd.imp_right fun hs => h.skipped_of_skipped (isSkipped_iff.1 hs)

theorem Coherent.not_unmet_of_listed (h : Coherent s) (hd : d ∈ s.order) : ¬ s.Unmet d := by
  have hv := h.visited_of_listed d hd
  rintro (hn | hs)
  · exact hn (h.mem_keys hv)
  · exact not_skipped_of_visited hv hs

/-- The skipped keys tell which keys are marked as skipped. -/
theorem Coherent.contains_skipped (h : Coherent s) (d : String) :
    s.skipped.contains d = s.isSkipped d := by
  rw [Bool.eq_iff_iff, OrderedMap.contains_iff, h.mem_keys_skipped, isSkipped_iff]

/-- **A visited dependency of the key in hand is listed**: an open one would lead to the key. -/
theorem listed_of_visited (ha : s.graph.Acyclic) (hedge : s.graph.Edge key d)
    (hv : s.marks.get? d = some .visited) (hopen : ∀ p, s.Open p → s.graph.Leads p key) :
    d ∈ s.order := by
  by_contra hn
  exact ha.not_leads hedge (hopen d ⟨hv, hn⟩)

namespace Direct

/-- A key is skipped behind dependencies that are visited, and so listed. -/
theorem block {done rest : List String} (hs : Direct s) (ha : s.graph.Acyclic)
    (hdeps : s.dependencies key = done ++ dep :: rest)
    (hdone : ∀ d ∈ done, s.marks.get? d = some .visited)
    (hopen : ∀ p, s.Open p → s.graph.Leads p key) (hdep : s.Unmet dep)
    (hunmet : ∀ d, s.Unmet d → (s.skip key dep).Unmet d) : Direct (s.skip key dep) := by
  refine ⟨hs.listed_of_edge, fun k d hk => ?_⟩
  change (s.skipped.insert key dep).get? k = some d at hk
  rw [OrderedMap.get?_insert] at hk
  split at hk
  · rename_i he
    obtain rfl : dep = d := Option.some.inj hk
    refine ⟨hunmet dep hdep, done, rest, he ▸ hdeps, fun e hmem => ?_⟩
    have hedge : s.graph.Edge key e := mem_dependencies.1 (hdeps ▸ List.mem_append_left _ hmem)
    exact listed_of_visited (s := s) ha hedge (hdone e hmem) hopen
  · exact (hs.first_unmet k d hk).imp_left (hunmet d)

/-- A key is listed behind its dependencies, which are visited, and so listed. -/
theorem list (hs : Direct s) (ha : s.graph.Acyclic)
    (hdone : ∀ d ∈ s.dependencies key, s.marks.get? d = some .visited)
    (hopen : ∀ p, s.Open p → s.graph.Leads p key)
    (hunmet : ∀ d, s.Unmet d → (s.list key).Unmet d) : Direct (s.list key) := by
  refine ⟨List.forall_mem_append.2 ⟨fun k hk d hd => ?_, List.forall_mem_singleton.2 fun d hd => ?_⟩,
    fun k d hk => ?_⟩
  · exact List.mem_append_left _ (hs.listed_of_edge k hk d hd)
  · have hv := hdone d (mem_dependencies.2 hd)
    exact List.mem_append_left _ (listed_of_visited (s := s) ha hd hv hopen)
  · obtain ⟨hd, done, rest, hdeps, hlisted⟩ := hs.first_unmet k d hk
    exact ⟨hunmet d hd, done, rest, hdeps, fun e he => List.mem_append_left _ (hlisted e he)⟩

/-- **No key is dropped**: what it would be dropped for is listed, and so not skipped. -/
theorem not_drop (hs : Direct s) (h : Coherent s) : ¬ Drop s t := by
  rintro ⟨horder, hdep⟩
  rename_i key dep before after
  have hkey : key ∈ s.order := horder ▸ List.mem_append_right _ List.mem_cons_self
  have hedge := mem_dependencies.1 (List.mem_of_find?_eq_some hdep)
  have hlisted := hs.listed_of_edge key hkey dep hedge
  exact h.not_unmet_of_listed hlisted (Or.inr (List.find?_some hdep))

theorem of_move (hs : Direct s) (h : Coherent s) (ha : s.graph.Acyclic) (hm : Move s t) :
    Direct t := by
  have hunmet : ∀ d, s.Unmet d → t.Unmet d := fun d => hm.unmet_of_unmet
  cases hm with
  | enter hkey =>
    exact ⟨hs.listed_of_edge, fun k d hk => (hs.first_unmet k d hk).imp_left (hunmet d)⟩
  | block hkey hdeps hdone hdep hopen => exact hs.block ha hdeps hdone hopen hdep hunmet
  | list hkey hdone hopen => exact hs.list ha hdone hopen hunmet
  | drop hdrop => exact absurd hdrop (hs.not_drop h)

/-- **Every sequence of moves keeps the invariant**, in a graph without cycles. -/
theorem of_moves (hs : Direct s) (h : Coherent s) (ha : s.graph.Acyclic) (hm : Moves s t) :
    Direct t := by
  induction hm with
  | refl => exact hs
  | tail hbefore hm ih =>
    exact ih.of_move (h.of_moves hbefore) ((Moves.graph_eq hbefore).symm ▸ ha) hm

theorem start (g : Graph) : Direct (Search.start g) := by
  refine ⟨fun k hk => absurd hk List.not_mem_nil, fun k d hk => ?_⟩
  have hnone : (Search.start g).skipped.get? k = none := rfl
  rw [hnone] at hk
  cases hk

/-- **In the end a key is skipped for its first dependency that cannot be met**, if it has one. -/
theorem get?_skipped_eq {deps : List String} (hs : Direct s) (h : Finished s)
    (hdeps : s.graph.get? k = some deps) :
    s.skipped.get? k = deps.find? fun d => !s.graph.contains d || s.skipped.contains d := by
  simp only [h.coherent.contains_skipped]
  have heq : s.dependencies k = deps := by rw [dependencies, hdeps, Option.getD_some]
  have hmet : ∀ d ∈ s.order, ¬ (!s.graph.contains d || s.isSkipped d) = true := fun d hd =>
    mt unmet_iff.1 (h.coherent.not_unmet_of_listed hd)
  cases hreason : s.skipped.get? k with
  | some d =>
    obtain ⟨hd, done, rest, hsplit, hdone⟩ := hs.first_unmet k d hreason
    rw [eq_comm, List.find?_eq_some_iff_append]
    refine ⟨unmet_iff.2 hd, done, rest, heq ▸ hsplit, fun e he => ?_⟩
    rw [Bool.eq_false_iff.2 (hmet e (hdone e he))]
    rfl
  | none =>
    -- a key that was not skipped is listed, and so are its dependencies
    have hskipped : s.marks.get? k ≠ some .skipped := by
      rw [ne_eq, ← h.coherent.mem_keys_skipped, ← OrderedMap.get?_eq_none_iff]
      exact hreason
    have hkey : k ∈ s.graph.keys := OrderedMap.mem_keys_of_get? hdeps
    have hlisted : k ∈ s.order := (h.mem_order_or_skipped hkey).resolve_right hskipped
    refine (List.find?_eq_none.2 fun d hd => hmet d ?_).symm
    exact hs.listed_of_edge k hlisted d ⟨deps, hdeps, hd⟩

/-- Nothing is left for settling to drop. -/
theorem settled (hs : Direct s) (h : Coherent s) : s.Settled := fun k hk d hd hskipped =>
  h.not_unmet_of_listed (hs.listed_of_edge k hk d hd) (Or.inr (isSkipped_iff.2 hskipped))

end Direct

end Search

/-! ## Schedules -/

/-- **In a graph without cycles settling changes nothing**: marks, list and reasons are final once
the last key was visited.  A key is skipped for the first of its dependencies that is no key or is
skipped in the end, and listed where there is none. -/
theorem schedule_acyclic (h : g.Acyclic) :
    (Search.start g).run = (Search.start g).visitAll.settle ∧
      (Search.start g).visitAll.settle = (Search.start g).visitAll ∧
      ∀ k deps, g.get? k = some deps → g.schedule.skipped.get? k =
        deps.find? fun d => !g.contains d || g.schedule.skipped.contains d := by
  obtain ⟨hmoves, -, -⟩ :=
    Search.foldl_explore_moves g.keys (Search.start g) (.start g) (Search.atRest_start g)
  have hsettle : (Search.start g).visitAll.settle = (Search.start g).visitAll := by
    have hdirect := (Search.Direct.start g).of_moves (.start g) h hmoves
    rw [Search.visitAll_eq]
    exact (hdirect.settled ((Search.Coherent.start g).of_moves hmoves)).settle_eq
  refine ⟨rfl, hsettle, fun k deps hdeps => ?_⟩
  obtain ⟨hfinished, hgraph⟩ := finished_schedule g
  have hrun : Search.Direct (Search.start g).run :=
    (Search.Direct.start g).of_moves (.start g) h
      (Search.run_moves (.start g) (Search.atRest_start g))
  have hreason := hrun.get?_skipped_eq hfinished (hgraph.symm ▸ hdeps)
  rwa [hgraph] at hreason

/-- Three keys in layers; `a` is missing two names, and `c` depends on `a` as well as on one of
these names. -/
def layeredGraph : Graph := .ofList [("a", ["b", "x", "y"]), ("b", []), ("c", ["b", "a", "x"])]

/-- `c` is skipped for `a`, which is skipped in its turn and stands in front of the missing name. -/
theorem schedule_acyclic_layered :
    layeredGraph.Acyclic ∧
      (Search.start layeredGraph).visitAll.settle = (Search.start layeredGraph).visitAll ∧
      layeredGraph.schedule.skipped.keys = ["a", "c"] ∧
      layeredGraph.schedule.skipped.get? "a" = some "x" ∧
      layeredGraph.schedule.skipped.get? "c" = some "a" := by
  have hacyclic : layeredGraph.Acyclic := fun k _ =>
    Graph.not_dependsOn_self (fun name => if name = "c" then 2 else if name = "a" then 1 else 0)
      (by decide)
  obtain ⟨-, hsettle, hreason⟩ := schedule_acyclic hacyclic
  have hskipped : layeredGraph.schedule.skipped.keys = ["a", "c"] := by decide +kernel
  refine ⟨hacyclic, hsettle, hskipped, ?_, ?_⟩
  · rw [hreason "a" ["b", "x", "y"] rfl]
    decide +kernel
  · rw [hreason "c" ["b", "a", "x"] rfl]
    decide +kernel

end DesignTokens
