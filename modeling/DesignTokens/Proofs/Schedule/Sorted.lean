import DesignTokens.Proofs.Schedule.Acyclic

/-!
# Proofs/Schedule/Sorted — graphs that are in order already

In a graph whose keys stand behind what they depend on, **no visit descends**: when the turn of a
key comes, all that it depends on is listed, so that the key is listed at once and nothing is
skipped.  The schedule of a graph without cycles is such an order of its keys, so scheduling once
more changes nothing.

* `Graph.Sorted.schedule_eq` — the schedule of a graph that is in order.
* `Graph.Acyclic.sorted_scheduled` — a schedule without cycles is in order.
* `schedule_sorted` — both, as one law.
-/

namespace DesignTokens

open Relation

namespace Graph

/-- Every dependency of a key is a key that stands before it. -/
def Sorted (g : Graph) : Prop :=
  ∀ before k deps after, g.entries = before ++ (k, deps) :: after →
    ∀ d ∈ deps, d ∈ before.map Prod.fst

/-- The scheduled keys of a graph, in the order of the schedule and with the dependencies that they
have in the graph. -/
def scheduled (g : Graph) : Graph where
  entries := g.schedule.order.map fun k => (k, (g.get? k).getD [])
  nodup_keys := by
    rw [List.map_map]
    exact (List.map_id _).symm ▸ g.nodup_order_schedule

end Graph

namespace Search

variable {s : Search} {key d : String} {deps names : List String} {g : Graph}

/-! ## Visits that do not descend -/

/-- The situation between two visits: some keys are listed one after the other, nothing is skipped
and the other keys are pending. -/
structure ListedSoFar (s : Search) (names : List String) : Prop where
  order_eq : s.order = names
  skipped_eq : s.skipped = .empty
  visited : ∀ k ∈ names, s.marks.get? k = some .visited
  pending : ∀ k ∈ s.graph.keys, k ∉ names → s.marks.get? k = some .pending

/-- **A call whose dependencies are visited lists its key.** -/
theorem scan_of_visited (hkeys : ∀ d ∈ deps, d ∈ s.graph.keys)
    (hdeps : ∀ d ∈ deps, s.marks.get? d = some .visited) : s.scan key deps = s.list key := by
  induction deps with
  | nil => exact scan_nil s key
  | cons dep deps ih =>
    have hv := hdeps dep List.mem_cons_self
    have hmet : ¬ s.Unmet dep := by
      rintro (hn | hs)
      · exact hn (hkeys dep List.mem_cons_self)
      · exact not_skipped_of_visited hv hs
    have hp : ¬ s.isPending dep = true := by
      rw [isPending_iff, hv]
      simp
    rw [scan_passed hmet hp]
    exact ih (fun d hd => hkeys d (List.mem_cons_of_mem _ hd))
      fun d hd => hdeps d (List.mem_cons_of_mem _ hd)

/-- **A key that stands behind what it depends on is listed at once.** -/
theorem ListedSoFar.explorePending (h : ListedSoFar s names) (hkey : key ∈ s.graph.keys)
    (hnew : key ∉ names) (hdeps : ∀ d ∈ s.dependencies key, d ∈ names ∧ d ∈ s.graph.keys) :
    ListedSoFar (s.explorePending key) (names ++ [key]) := by
  have hp := h.pending key hkey hnew
  have hmarks : ∀ k ∈ names, (s.mark key .visited).marks.get? k = some .visited := by
    intro k hk
    rw [get?_marks_mark, if_neg (ne_of_mem_of_not_mem hk hnew)]
    exact h.visited k hk
  have hexplore : s.explorePending key = (s.mark key .visited).list key := by
    rw [Search.explorePending, if_pos (isPending_iff.2 hp), explore]
    exact scan_of_visited (fun d hd => (hdeps d hd).2) fun d hd => hmarks d (hdeps d hd).1
  rw [hexplore]
  refine ⟨congrArg (· ++ [key]) h.order_eq, h.skipped_eq, fun k hk => ?_, fun k hk hn => ?_⟩
  · rcases List.mem_append.1 hk with hk | hk
    · exact hmarks k hk
    · rw [List.mem_singleton.1 hk]
      exact (get?_marks_mark s key key .visited).trans (if_pos rfl)
  · rw [List.mem_append, List.mem_singleton, not_or] at hn
    exact (get?_marks_mark s key k .visited).trans ((if_neg hn.2).trans (h.pending k hk hn.1))

/-- **The next entry of a graph in order is listed at once**: what it depends on stands before
it. -/
theorem ListedSoFar.next {before rest : List (String × List String)} (hg : g.Sorted)
    (hsplit : g.entries = before ++ (key, deps) :: rest) (h : ListedSoFar s (before.map Prod.fst))
    (hgraph : s.graph = g) :
    ListedSoFar (s.explorePending key) ((before ++ [(key, deps)]).map Prod.fst) := by
  have hmem : ∀ k, k ∈ before.map Prod.fst → k ∈ g.keys := fun k hk => by
    rw [OrderedMap.keys, hsplit, List.map_append]
    exact List.mem_append_left _ hk
  have hentry : g.get? key = some deps := by
    rw [OrderedMap.get?_eq_some_iff, hsplit]
    exact List.mem_append_right _ List.mem_cons_self
  have hnew : key ∉ before.map Prod.fst := by
    have hnodup := g.nodup_keys
    rw [hsplit, List.map_append, List.map_cons] at hnodup
    exact fun hk => List.disjoint_of_nodup_append hnodup hk List.mem_cons_self
  rw [List.map_append]
  refine h.explorePending (hgraph ▸ OrderedMap.mem_keys_of_get? hentry) hnew fun d hd => ?_
  rw [dependencies, hgraph, hentry, Option.getD_some] at hd
  have hd' := hg before key deps rest hsplit d hd
  exact ⟨hd', hgraph ▸ hmem d hd'⟩

/-- **Visits in order list their keys in order.** -/
theorem ListedSoFar.foldl (hg : g.Sorted) (before rest : List (String × List String))
    (hsplit : g.entries = before ++ rest) (h : ListedSoFar s (before.map Prod.fst))
    (hgraph : s.graph = g) :
    ListedSoFar ((rest.map Prod.fst).foldl Search.explorePending s) g.keys := by
  induction rest generalizing before s with
  | nil =>
    rw [List.append_nil] at hsplit
    rwa [OrderedMap.keys, hsplit]
  | cons e rest ih =>
    rw [List.map_cons, List.foldl_cons]
    refine ih (before ++ [e]) ?_ (h.next hg hsplit hgraph) ?_
    · rw [hsplit, List.append_assoc, List.singleton_append]
    · rw [graph_explorePending, hgraph]

theorem ListedSoFar.start (g : Graph) : ListedSoFar (start g) [] :=
  ⟨rfl, rfl, fun _ hk => absurd hk List.not_mem_nil, fun _ hk _ => get?_marks_start hk⟩

/-- Where all keys are listed and none is skipped, nothing is left for settling to drop. -/
theorem ListedSoFar.settled (h : ListedSoFar s s.graph.keys)
    (hclosed : ∀ k d, s.graph.Edge k d → d ∈ s.graph.keys) : s.Settled := by
  intro k _ d hd hs
  rw [h.visited d (hclosed k d hd)] at hs
  cases hs

end Search

/-! ## Schedules -/

namespace Graph

variable {g : Graph} {k d : String}

theorem Sorted.mem_keys_of_edge (h : g.Sorted) (he : g.Edge k d) : d ∈ g.keys := by
  obtain ⟨deps, hdeps, hd⟩ := he
  obtain ⟨before, after, hsplit⟩ := List.append_of_mem (OrderedMap.get?_eq_some_iff.1 hdeps)
  rw [OrderedMap.keys, hsplit, List.map_append]
  exact List.mem_append_left _ (h before k deps after hsplit d hd)

/-- **The schedule of a graph that is in order lists its keys as they are**, and skips none. -/
theorem Sorted.schedule_eq (h : g.Sorted) : g.schedule = ⟨g.keys, .empty⟩ := by
  have hlisted : Search.ListedSoFar (Search.start g).visitAll g.keys := by
    rw [Search.visitAll_eq]
    exact (Search.ListedSoFar.start g).foldl h [] g.entries rfl rfl
  have hgraph : (Search.start g).visitAll.graph = g :=
    (Search.visitAll_moves (.start g) (Search.atRest_start g)).graph_eq
  have hsettled : (Search.start g).visitAll.Settled := by
    refine Search.ListedSoFar.settled (hgraph.symm ▸ hlisted) fun k d he => ?_
    rw [hgraph] at he ⊢
    exact h.mem_keys_of_edge he
  have hrun : (Search.start g).run = (Search.start g).visitAll := hsettled.settle_eq
  rw [schedule, hrun, hlisted.order_eq, hlisted.skipped_eq]

theorem keys_scheduled (g : Graph) : g.scheduled.keys = g.schedule.order := by
  rw [OrderedMap.keys, scheduled, List.map_map]
  exact List.map_id _

/-- **A schedule without cycles is in order.** -/
theorem Acyclic.sorted_scheduled (h : g.Acyclic) : g.scheduled.Sorted := by
  intro before k deps after hsplit d hd
  obtain ⟨front, rest, horder, rfl, hrest⟩ := List.map_eq_append_iff.1 hsplit
  obtain ⟨k, back, rfl, ⟨⟩, -⟩ := List.map_eq_cons_iff.1 hrest
  obtain ⟨hfinished, hgraph⟩ := finished_schedule g
  have hedge : (Search.start g).run.graph.Edge k d :=
    hgraph.symm ▸ Search.mem_dependencies (s := Search.start g).1 hd
  have hlisted : k ∈ g.schedule.order := horder ▸ List.mem_append_right _ List.mem_cons_self
  rcases hfinished.idxOf_lt_or_dependsOn hlisted hedge with hlt | hback
  · change g.schedule.order.idxOf d < g.schedule.order.idxOf k at hlt
    rw [horder] at hlt
    rw [List.map_map]
    exact List.mem_map.2 ⟨d, mem_of_idxOf_lt hlt, rfl⟩
  · rw [hgraph] at hedge hback
    exact absurd (hback.head hedge) (h k hedge.mem_keys)

end Graph

/-- **A graph that is in order is scheduled as it is**, and nothing of it is skipped; so scheduling
the scheduled keys of a graph without cycles once more, with the dependencies they had, gives the
same schedule and skips nothing. -/
theorem schedule_sorted :
    (∀ g : Graph, g.Sorted → g.schedule.order = g.keys ∧ g.schedule.skipped = .empty) ∧
      ∀ g : Graph, g.Acyclic →
        g.scheduled.schedule.order = g.schedule.order ∧ g.scheduled.schedule.skipped = .empty := by
  have hsorted : ∀ g : Graph, g.Sorted →
      g.schedule.order = g.keys ∧ g.schedule.skipped = .empty := by
    intro g hg
    rw [hg.schedule_eq]
    exact ⟨rfl, rfl⟩
  refine ⟨hsorted, fun g hg => ?_⟩
  rw [← g.keys_scheduled]
  exact hsorted g.scheduled hg.sorted_scheduled

/-- A graph that is not in order, with a dependency that comes twice and keys that are skipped. -/
def mixedGraph : Graph :=
  .ofList [("b", ["a", "a", "c"]), ("lost", ["gone"]), ("a", []), ("c", ["a"]),
    ("late", ["b", "lost"])]

/-- Its scheduled keys are a graph that is in order. -/
theorem schedule_sorted_mixed :
    mixedGraph.Acyclic ∧ mixedGraph.scheduled.Sorted ∧
      mixedGraph.scheduled.keys = ["a", "c", "b"] ∧
      mixedGraph.scheduled.schedule.order = mixedGraph.scheduled.keys ∧
      mixedGraph.scheduled.schedule.order = mixedGraph.schedule.order ∧
      mixedGraph.scheduled.schedule.skipped = .empty := by
  have hacyclic : mixedGraph.Acyclic := fun k _ =>
    Graph.not_dependsOn_self (fun name => if name = "late" then 3 else if name = "b" then 2
      else if name = "c" ∨ name = "lost" then 1 else 0) (by decide)
  have hsorted := hacyclic.sorted_scheduled
  have hkeys : mixedGraph.scheduled.keys = ["a", "c", "b"] := by
    rw [mixedGraph.keys_scheduled]
    decide +kernel
  obtain ⟨hfixed, hagain⟩ := schedule_sorted
  exact ⟨hacyclic, hsorted, hkeys, (hfixed _ hsorted).1, hagain _ hacyclic⟩

end DesignTokens
