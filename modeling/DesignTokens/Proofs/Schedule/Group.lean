import DesignTokens.Proofs.Schedule.Outcome
import Mathlib.Data.Set.Subsingleton

/-!
# Proofs/Schedule/Group — keys that lead to one another

A visit marks nothing but what its key leads to, and lists its key **behind everything else that it
lists**.  So a key that no key found earlier leads to is pending when its turn comes, whatever was
skipped until then; its visit lists what it leads to, and then the key.  In a group of keys that
lead to one another this happens to the key that was found first.

* `Graph.idxOf_lt_of_leads` — a key that no key found earlier leads to stands behind what it leads
  to.
* `first_of_group_last` — the key of a group that was found first is listed last.
-/

namespace DesignTokens

open Relation

namespace Graph

variable {g : Graph} {a b k : String}

theorem ne_of_not_leads (h : ¬ g.Leads a k) : k ≠ a := by
  rintro rfl
  exact h ReflTransGen.refl

/-- What a key does not lead to its dependencies do not lead to. -/
theorem Edge.not_leads (he : g.Edge a b) (h : ¬ g.Leads a k) : ¬ g.Leads b k := fun hl =>
  h (ReflTransGen.head he hl)

/-- **Nothing leads out of names that are closed under dependencies.** -/
theorem not_leads_of_closed (names : List String)
    (h : ∀ e ∈ g.entries, e.1 ∈ names → ∀ d ∈ e.2, d ∈ names) (ha : a ∈ names) (hb : b ∉ names) :
    ¬ g.Leads a b := by
  refine fun hl => hb (hl.mem_of_closed (S := (· ∈ names)) ?_ ha)
  rintro k d hk ⟨deps, hdeps, hd⟩
  exact h (k, deps) (OrderedMap.get?_eq_some_iff.1 hdeps) hk d hd

end Graph

namespace Search

variable {s t : Search} {key dep k d : String}

/-! ## What a visit marks -/

/-- **A call marks nothing but what its key leads to.** -/
theorem get?_marks_scan_of_not_leads (s : Search) (key : String) (deps : List String)
    (hdeps : ∀ d ∈ deps, s.graph.Edge key d) (hk : ¬ s.graph.Leads key k) :
    (s.scan key deps).marks.get? k = s.marks.get? k := by
  induction s, key, deps using scan_induction with
  | listed s key => rfl
  | unmet s key dep rest hu => rw [get?_marks_skip, if_neg (Graph.ne_of_not_leads hk)]
  | passed s key dep rest hu hp ih =>
    exact ih (fun d hd => hdeps d (List.mem_cons_of_mem _ hd)) hk
  | failed s key dep rest hu hp hs hdep =>
    have hleads := (hdeps dep List.mem_cons_self).not_leads hk
    rw [get?_marks_skip, if_neg (Graph.ne_of_not_leads hk),
      hdep (fun d hd => mem_dependencies.1 hd) hleads, get?_marks_mark,
      if_neg (Graph.ne_of_not_leads hleads)]
  | explored s key dep rest hu hp hs hdep hrest =>
    have hleads := (hdeps dep List.mem_cons_self).not_leads hk
    rw [graph_explore] at hrest
    rw [hrest (fun d hd => hdeps d (List.mem_cons_of_mem _ hd)) hk,
      hdep (fun d hd => mem_dependencies.1 hd) hleads, get?_marks_mark,
      if_neg (Graph.ne_of_not_leads hleads)]

theorem get?_marks_explore_of_not_leads (hk : ¬ s.graph.Leads key k) :
    (s.explore key).marks.get? k = s.marks.get? k := by
  have hscan := get?_marks_scan_of_not_leads (s.mark key .visited) key (s.dependencies key)
    (fun d hd => mem_dependencies.1 hd) hk
  rw [explore, hscan, get?_marks_mark, if_neg (Graph.ne_of_not_leads hk)]

/-- Visits of keys none of which leads to a name leave its mark alone. -/
theorem get?_marks_foldl_of_not_leads {keys : List String}
    (hk : ∀ key ∈ keys, ¬ s.graph.Leads key k) :
    (keys.foldl explorePending s).marks.get? k = s.marks.get? k := by
  induction keys generalizing s with
  | nil => rfl
  | cons key keys ih =>
    have hkey : (s.explorePending key).marks.get? k = s.marks.get? k := by
      unfold explorePending
      split
      · exact get?_marks_explore_of_not_leads (hk key List.mem_cons_self)
      · rfl
    rw [List.foldl_cons, ih, hkey]
    intro key' hkey'
    rw [graph_explorePending]
    exact hk key' (List.mem_cons_of_mem _ hkey')

/-! ## What a visit lists -/

/-- **What is listed stays in front** of what a call lists. -/
theorem prefix_order_scan (s : Search) (key : String) (deps : List String) :
    s.order <+: (s.scan key deps).order := by
  induction s, key, deps using scan_induction with
  | listed s key => exact List.prefix_append _ _
  | unmet s key dep rest hu => exact List.prefix_rfl
  | passed s key dep rest hu hp ih => exact ih
  | failed s key dep rest hu hp hs hdep => exact hdep
  | explored s key dep rest hu hp hs hdep hrest => exact hdep.trans hrest

theorem prefix_order_foldl (s : Search) (keys : List String) :
    s.order <+: (keys.foldl explorePending s).order := by
  induction keys generalizing s with
  | nil => exact List.prefix_rfl
  | cons key keys ih =>
    have hkey : s.order <+: (s.explorePending key).order := by
      unfold explorePending
      split
      · exact prefix_order_scan (s.mark key .visited) key _
      · exact List.prefix_rfl
    exact hkey.trans (ih _)

/-- **A call lists its key last of all**, or skips it. -/
theorem isSkipped_or_order_scan (s : Search) (key : String) (deps : List String) :
    (s.scan key deps).isSkipped key = true ∨ ∃ front, (s.scan key deps).order = front ++ [key] := by
  induction s, key, deps using scan_induction with
  | listed s key => exact Or.inr ⟨s.order, rfl⟩
  | unmet s key dep rest hu => exact Or.inl (isSkipped_skip s key dep)
  | passed s key dep rest hu hp ih => exact ih
  | failed s key dep rest hu hp hs hdep => exact Or.inl (isSkipped_skip _ key dep)
  | explored s key dep rest hu hp hs hdep hrest => exact hrest

/-- **Where no key is open, a listed key that is not broken has what it leads to listed.** -/
theorem Coherent.mem_order_of_leads (h : Coherent s) (hrest : s.AtRest) (hk : k ∈ s.order)
    (hb : ¬ s.graph.Broken k) (hl : s.graph.Leads k d) : d ∈ s.order := by
  refine (hl.mem_of_closed (S := fun k => k ∈ s.order ∧ ¬ s.graph.Broken k) ?_ ⟨hk, hb⟩).1
  rintro k d ⟨hk, hb⟩ he
  have hd : ¬ s.graph.Broken d := mt he.broken hb
  obtain ⟨hmem, hp⟩ := h.entered_of_listed k hk d he
  have hv : s.marks.get? d = some .visited := by
    refine h.visited_of_met ?_ hp
    rintro (hn | hs)
    · exact hn hmem
    · exact hd (h.broken_of_skipped d (isSkipped_iff.1 hs))
  exact ⟨not_not.1 fun hn => hrest d ⟨hv, hn⟩, hd⟩

/-- A visit of a pending key that is not broken lists what the key leads to, and the key behind
it. -/
theorem order_explore (h : Coherent s) (hrest : s.AtRest) (hp : s.isPending key = true)
    (hb : ¬ s.graph.Broken key) :
    ∃ front, (s.explore key).order = front ++ [key] ∧
      ∀ d, s.graph.Leads key d → d ≠ key → d ∈ front := by
  obtain ⟨hmoves, hrest', -⟩ := explore_moves h hrest hp
  have hcoherent := h.of_moves hmoves
  have hgraph := hmoves.graph_eq
  rcases isSkipped_or_order_scan (s.mark key .visited) key (s.dependencies key) with hs | hfront
  · have hbroken := hcoherent.broken_of_skipped key (isSkipped_iff.1 hs)
    exact absurd (hgraph ▸ hbroken) hb
  · obtain ⟨front, hfront⟩ := hfront
    refine ⟨front, hfront, fun d hl hne => ?_⟩
    have hkey : key ∈ (s.explore key).order := hfront ▸ List.mem_append_right _ List.mem_cons_self
    have hd := hcoherent.mem_order_of_leads hrest' hkey (hgraph.symm ▸ hb) (hgraph.symm ▸ hl)
    rw [explore, hfront] at hd
    exact (List.mem_append.1 hd).resolve_right fun hm => hne (List.mem_singleton.1 hm)

/-! ## What settling leaves -/

theorem Drops.order_sublist (h : Drops s t) : t.order.Sublist s.order := by
  induction h with
  | refl => exact List.Sublist.refl _
  | tail _ hd ih =>
    cases hd with
    | intro horder _ =>
      refine List.Sublist.trans ?_ ih
      rw [horder]
      exact List.Sublist.append_left (List.sublist_cons_self _ _) _

end Search

/-! ## Schedules -/

namespace Graph

variable {g : Graph} {r d : String} {before after : List String}

/-- **What a scheduled key leads to is scheduled.** -/
theorem mem_order_schedule_of_leads (hr : r ∈ g.schedule.order) (hl : g.Leads r d) :
    d ∈ g.schedule.order := by
  obtain ⟨hfinished, hgraph⟩ := finished_schedule g
  refine hl.mem_of_closed (S := fun k => k ∈ g.schedule.order) (fun k d hk he => ?_) hr
  exact hfinished.mem_order_of_edge hk (hgraph.symm ▸ he)

/-- Settling leaves some of the keys that all visits together have listed, in their order. -/
theorem order_schedule_sublist (g : Graph) :
    g.schedule.order.Sublist (Search.start g).visitAll.order :=
  (Search.settle_drops (Search.start g).visitAll).1.order_sublist

theorem nodup_order_visitAll (g : Graph) : (Search.start g).visitAll.order.Nodup :=
  ((Search.Coherent.start g).of_moves
    (Search.visitAll_moves (.start g) (Search.atRest_start g))).nodup_order

/-- A key that no key found earlier leads to is pending when its turn comes. -/
theorem isPending_foldl (hr : r ∈ g.keys) (hbefore : ∀ k ∈ before, ¬ g.Leads k r) :
    (before.foldl Search.explorePending (Search.start g)).isPending r = true := by
  rw [Search.isPending_iff, Search.get?_marks_foldl_of_not_leads hbefore]
  exact Search.get?_marks_start hr

/-- **All visits together list such a key behind what it leads to**, if it is not broken. -/
theorem order_visitAll (hkeys : g.keys = before ++ r :: after) (hb : ¬ g.Broken r)
    (hbefore : ∀ k ∈ before, ¬ g.Leads k r) :
    ∃ front back, (Search.start g).visitAll.order = front ++ r :: back ∧
      ∀ d, g.Leads r d → d ≠ r → d ∈ front := by
  have hr : r ∈ g.keys := hkeys ▸ List.mem_append_right _ List.mem_cons_self
  have hp := isPending_foldl hr hbefore
  obtain ⟨hmoves, hrest, -⟩ :=
    Search.foldl_explore_moves before (Search.start g) (.start g) (Search.atRest_start g)
  have hcoherent := (Search.Coherent.start g).of_moves hmoves
  have hgraph := hmoves.graph_eq
  obtain ⟨front, hfront, hleads⟩ := Search.order_explore hcoherent hrest hp (hgraph.symm ▸ hb)
  rw [hgraph] at hleads
  -- the visits after that of `r` list further keys behind it
  obtain ⟨back, hback⟩ := Search.prefix_order_foldl _ after
  refine ⟨front, back, ?_, hleads⟩
  rw [Search.visitAll_eq]
  change (g.keys.foldl Search.explorePending (Search.start g)).order = _
  rw [hkeys, List.foldl_append, List.foldl_cons, Search.explorePending, if_pos hp, ← hback, hfront,
    List.append_assoc, List.singleton_append]

/-- **A key that no key found earlier leads to stands behind what it leads to**, cycles or not. -/
theorem idxOf_lt_of_leads (hkeys : g.keys = before ++ r :: after) (hr : r ∈ g.schedule.order)
    (hbefore : ∀ k ∈ before, ¬ g.Leads k r) (hl : g.Leads r d) (hne : d ≠ r) :
    g.schedule.order.idxOf d < g.schedule.order.idxOf r := by
  obtain ⟨-, hb⟩ := mem_order_schedule_iff.1 hr
  obtain ⟨front, back, horder, hfront⟩ := order_visitAll hkeys hb hbefore
  have hsub := g.order_schedule_sublist
  have hnodup := g.nodup_order_visitAll
  rw [horder] at hsub hnodup
  exact idxOf_lt_of_sublist hsub hnodup (hfront d hl hne)
    (mem_order_schedule_of_leads hr hl) hr

/-- A group: scheduled keys that lead to one another, two at least and all there are. -/
structure IsGroup (g : Graph) (C : Set String) : Prop where
  scheduled : ∀ k ∈ C, k ∈ g.schedule.order
  leads : ∀ a ∈ C, ∀ b ∈ C, g.Leads a b
  maximal : ∀ k ∈ g.schedule.order, ∀ c ∈ C, g.Leads c k → g.Leads k c → k ∈ C
  nontrivial : C.Nontrivial

end Graph

/-- **The key of a group that was found first is listed last**, if no key that was found before it
leads to the group: every other key of the group stands before it in the schedule. -/
theorem first_of_group_last {g : Graph} {C : Set String} {r : String} {before after : List String}
    (hC : g.IsGroup C) (hkeys : g.keys = before ++ r :: after) (hr : r ∈ C)
    (hfirst : ∀ k ∈ before, k ∉ C) (hbefore : ∀ k ∈ before, ∀ c ∈ C, ¬ g.DependsOn k c) :
    ∀ c ∈ C, c ≠ r → g.schedule.order.idxOf c < g.schedule.order.idxOf r := by
  intro c hc hne
  refine Graph.idxOf_lt_of_leads hkeys (hC.scheduled r hr) (fun k hk hl => ?_)
    (hC.leads r hr c hc) hne
  rcases reflTransGen_iff_eq_or_transGen.1 hl with he | hl
  · exact hfirst k hk (he ▸ hr)
  · exact hbefore k hk r hr hl

/-- Three keys that lead to one another, between two that are skipped; `leaf` is not of the group,
as it does not lead back. -/
def ringGraph : Graph :=
  .ofList [("lost", ["gone"]), ("a", ["b", "c"]), ("b", ["leaf", "c"]), ("c", ["a"]),
    ("leaf", []), ("late", ["a", "lost"])]

theorem isGroup_ringGraph : ringGraph.IsGroup {"a", "b", "c"} := by
  have horder : ringGraph.schedule.order = ["leaf", "c", "b", "a"] := by decide +kernel
  have hab : ringGraph.Leads "a" "b" := ReflTransGen.single ⟨["b", "c"], rfl, by decide⟩
  have hbc : ringGraph.Leads "b" "c" := ReflTransGen.single ⟨["leaf", "c"], rfl, by decide⟩
  have hca : ringGraph.Leads "c" "a" := ReflTransGen.single ⟨["a"], rfl, by decide⟩
  have hround : ∀ k ∈ ({"a", "b", "c"} : Set String),
      ringGraph.Leads k "a" ∧ ringGraph.Leads "a" k := by
    rintro k (rfl | rfl | rfl)
    · exact ⟨ReflTransGen.refl, ReflTransGen.refl⟩
    · exact ⟨hbc.trans hca, hab⟩
    · exact ⟨hca, hab.trans hbc⟩
  refine ⟨fun k hk => ?_, fun a ha b hb => (hround a ha).1.trans (hround b hb).2,
    fun k hk c hc hck hkc => ?_, "a", by simp, "b", by simp, by decide⟩
  · rw [horder]
    rcases hk with rfl | rfl | rfl <;> decide
  · rw [horder] at hk
    simp only [List.mem_cons, List.not_mem_nil, or_false] at hk
    rcases hk with rfl | rfl | rfl | rfl
    · have hleaf : ¬ ringGraph.Leads "leaf" "a" :=
        Graph.not_leads_of_closed ["leaf"] (by decide) (by decide) (by decide)
      exact absurd (hkc.trans (hround c hc).1) hleaf
    all_goals simp

/-- `a` was found first; `lost`, found before it, is skipped. -/
theorem first_of_group_last_ring :
    ringGraph.IsGroup {"a", "b", "c"} ∧
      ringGraph.keys = ["lost"] ++ "a" :: ["b", "c", "leaf", "late"] ∧
      (∀ k ∈ ["lost"], k ∉ ({"a", "b", "c"} : Set String)) ∧
      (∀ k ∈ ["lost"], ∀ c ∈ ({"a", "b", "c"} : Set String), ¬ ringGraph.DependsOn k c) ∧
      ∀ c ∈ ({"a", "b", "c"} : Set String), c ≠ "a" →
        ringGraph.schedule.order.idxOf c < ringGraph.schedule.order.idxOf "a" := by
  have hkeys : ringGraph.keys = ["lost"] ++ "a" :: ["b", "c", "leaf", "late"] := rfl
  have hfirst : ∀ k ∈ ["lost"], k ∉ ({"a", "b", "c"} : Set String) := by simp
  have hbefore : ∀ k ∈ ["lost"], ∀ c ∈ ({"a", "b", "c"} : Set String),
      ¬ ringGraph.DependsOn k c := by
    intro k hk c hc hd
    have hnames : c ∉ ["lost", "gone"] := by rcases hc with rfl | rfl | rfl <;> decide
    refine Graph.not_leads_of_closed ["lost", "gone"] (by decide) ?_ hnames
      hd.to_reflTransGen
    rw [List.mem_singleton.1 hk]
    decide
  exact ⟨isGroup_ringGraph, hkeys, hfirst, hbefore,
    first_of_group_last isGroup_ringGraph hkeys (by simp) hfirst hbefore⟩

end DesignTokens
