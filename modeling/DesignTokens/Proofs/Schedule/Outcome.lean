import DesignTokens.Proofs.Position
import DesignTokens.Proofs.Schedule.Lookup
import DesignTokens.Schedule.Order

/-!
# Proofs/Schedule/Outcome — what a run ends with

When a run has ended no key is open or pending and the search is settled.  Then the listed keys are
closed under dependencies, so that **listed means not broken**, and a listed key that stands before
one of its dependencies lies on a cycle with it.

* `schedule_exact` — a schedule lists exactly the keys that are not broken, and skips the others.
* `Finished.idxOf_lt_or_dependsOn` — where the dependencies of a listed key stand.
-/

namespace DesignTokens

namespace Search

variable {s t : Search} {k d : String}

/-- The situation at the end of a run. -/
structure Finished (s : Search) : Prop where
  coherent : Coherent s
  atRest : s.AtRest
  not_pending : ∀ k, s.marks.get? k ≠ some .pending
  settled : s.Settled

theorem run_eq_settle (s : Search) : s.run = (s.graph.keys.foldl explorePending s).settle :=
  congrArg settle s.visitAll_eq

theorem visitAll_moves (h : Coherent s) (hrest : s.AtRest) : Moves s s.visitAll := by
  rw [visitAll_eq]
  exact (foldl_explore_moves s.graph.keys s h hrest).1

/-- **A run is a sequence of moves.** -/
theorem run_moves (h : Coherent s) (hrest : s.AtRest) : Moves s s.run :=
  (visitAll_moves h hrest).trans (settle_drops s.visitAll).1.moves

/-- **A run comes to its end**, from any coherent search in which no key is open. -/
theorem finished_run (h : Coherent s) (hrest : s.AtRest) : Finished s.run := by
  obtain ⟨hmoves, hrest', hkeys⟩ := foldl_explore_moves s.graph.keys s h hrest
  obtain ⟨hdrops, hsettled⟩ := settle_drops (s.graph.keys.foldl explorePending s)
  rw [run_eq_settle]
  refine ⟨(h.of_moves hmoves).of_moves hdrops.moves, hdrops.atRest hrest', fun k hk => ?_, hsettled⟩
  have hk' := hdrops.moves.pending_of_pending hk
  have hmem := (h.of_moves hmoves).mem_keys hk'
  rw [hmoves.graph_eq] at hmem
  exact hkeys k hmem hk'

/-- Before a search begins, the keys of its graph are pending. -/
theorem get?_marks_start {g : Graph} (hk : k ∈ g.keys) :
    (start g).marks.get? k = some .pending := by
  obtain ⟨deps, hdeps⟩ := OrderedMap.mem_keys_iff.1 hk
  rw [start, OrderedMap.get?_mapValues, hdeps, Option.map_some]

/-- Before it begins, a search has no open key. -/
theorem atRest_start (g : Graph) : (start g).AtRest := by
  intro k ho
  have hv := ho.1
  rw [start, OrderedMap.get?_mapValues, Option.map_eq_some_iff] at hv
  obtain ⟨deps, -, hm⟩ := hv
  cases hm

namespace Finished

/-- The listed keys are the visited ones. -/
theorem mem_order_iff_visited (h : Finished s) : k ∈ s.order ↔ s.marks.get? k = some .visited :=
  ⟨h.coherent.visited_of_listed k, fun hv => not_not.1 fun hn => h.atRest k ⟨hv, hn⟩⟩

/-- **The listed keys are closed under dependencies.** -/
theorem mem_order_of_edge (h : Finished s) (hk : k ∈ s.order) (he : s.graph.Edge k d) :
    d ∈ s.order := by
  obtain ⟨hmem, hp⟩ := h.coherent.entered_of_listed k hk d he
  refine h.mem_order_iff_visited.2 (h.coherent.visited_of_met ?_ hp)
  rintro (hn | hs)
  · exact hn hmem
  · exact h.settled k hk d he (isSkipped_iff.1 hs)

theorem not_broken_of_mem_order (h : Finished s) (hk : k ∈ s.order) : ¬ s.graph.Broken k :=
  Graph.not_broken_of_closed (S := fun k => k ∈ s.order)
    (fun _ hk => h.coherent.mem_keys (h.coherent.visited_of_listed _ hk))
    (fun _ _ hk he => h.mem_order_of_edge hk he) hk

/-- A key of the graph is listed or skipped. -/
theorem mem_order_or_skipped (h : Finished s) (hk : k ∈ s.graph.keys) :
    k ∈ s.order ∨ s.marks.get? k = some .skipped := by
  obtain ⟨m, hm⟩ := h.coherent.exists_mark hk
  cases m with
  | pending => exact absurd hm (h.not_pending k)
  | visited => exact Or.inl (h.mem_order_iff_visited.2 hm)
  | skipped => exact Or.inr hm

/-- **The listed keys are those that are not broken.** -/
theorem mem_order_iff (h : Finished s) : k ∈ s.order ↔ k ∈ s.graph.keys ∧ ¬ s.graph.Broken k := by
  constructor
  · intro hk
    exact ⟨h.coherent.mem_keys (h.coherent.visited_of_listed k hk), h.not_broken_of_mem_order hk⟩
  · rintro ⟨hk, hn⟩
    exact (h.mem_order_or_skipped hk).resolve_right fun hs => hn (h.coherent.broken_of_skipped k hs)

/-- **The skipped keys are those that are broken.** -/
theorem mem_skipped_iff (h : Finished s) :
    k ∈ s.skipped.keys ↔ k ∈ s.graph.keys ∧ s.graph.Broken k := by
  rw [h.coherent.mem_keys_skipped]
  constructor
  · intro hs
    exact ⟨h.coherent.mem_keys hs, h.coherent.broken_of_skipped k hs⟩
  · rintro ⟨hk, hb⟩
    exact (h.mem_order_or_skipped hk).resolve_left fun ho => h.not_broken_of_mem_order ho hb

/-- **A dependency of a listed key stands before it**, or a path leads back from the dependency. -/
theorem idxOf_lt_or_dependsOn (h : Finished s) (hk : k ∈ s.order) (he : s.graph.Edge k d) :
    s.order.idxOf d < s.order.idxOf k ∨ s.graph.DependsOn d k := by
  have hd := h.mem_order_of_edge hk he
  rw [or_iff_not_imp_right]
  intro hback
  have hne : d ≠ k := by
    rintro rfl
    exact hback he.dependsOn
  exact idxOf_lt_of_pairwise h.coherent.pairwise_order hd hk hne fun hpair => hback (hpair he)

end Finished

end Search

/-! ## Schedules -/

variable {g : Graph}

/-- The search that a schedule is read off. -/
theorem finished_schedule (g : Graph) :
    Search.Finished (Search.start g).run ∧ (Search.start g).run.graph = g :=
  ⟨Search.finished_run (.start g) (Search.atRest_start g),
    (Search.run_moves (.start g) (Search.atRest_start g)).graph_eq⟩

namespace Graph

variable {k : String}

/-- **The scheduled keys are those that are not broken.** -/
theorem mem_order_schedule_iff : k ∈ g.schedule.order ↔ k ∈ g.keys ∧ ¬ g.Broken k := by
  obtain ⟨hfinished, hgraph⟩ := finished_schedule g
  have horder := hfinished.mem_order_iff (k := k)
  rwa [hgraph] at horder

/-- **A schedule skips the keys that are broken.** -/
theorem mem_skipped_schedule_iff : k ∈ g.schedule.skipped.keys ↔ k ∈ g.keys ∧ g.Broken k := by
  obtain ⟨hfinished, hgraph⟩ := finished_schedule g
  have hskipped := hfinished.mem_skipped_iff (k := k)
  rwa [hgraph] at hskipped

theorem nodup_order_schedule (g : Graph) : g.schedule.order.Nodup :=
  (finished_schedule g).1.coherent.nodup_order

end Graph

/-- **A schedule is exact.**  No look-up of the run misses; the keys from which no path of
dependencies leads to a name that is no key are listed, each of them once; and the other keys are
those that are skipped. -/
theorem schedule_exact (g : Graph) :
    (Search.start g).tryRun = .ok (Search.start g).run ∧
      g.schedule.order.Nodup ∧
      (∀ k, k ∈ g.schedule.order ↔ k ∈ g.keys ∧ ¬ g.Broken k) ∧
      ∀ k, k ∈ g.schedule.skipped.keys ↔ k ∈ g.keys ∧ g.Broken k := by
  obtain ⟨hfinished, hgraph⟩ := finished_schedule g
  refine ⟨Search.tryRun_eq (.start g) (Search.atRest_start g), hfinished.coherent.nodup_order,
    fun k => ?_, fun k => ?_⟩
  · have := hfinished.mem_order_iff (k := k)
    rwa [hgraph] at this
  · have := hfinished.mem_skipped_iff (k := k)
    rwa [hgraph] at this

end DesignTokens
