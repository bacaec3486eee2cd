import DesignTokens.Proofs.Schedule.Outcome

/-!
# Proofs/Schedule/Reason — what a skipped key is missing for

A skipped key is kept with the dependency that it was skipped for.  A key is skipped **once**, at a
moment when that dependency is no key or has been skipped itself; so the reasons stand in an order
in which each of them rests on an earlier one, and none goes round in a circle.

* `Coherent.explained_of_moves` — every sequence of moves keeps that order.
* `skipped_explained` — what the reason of a skipped key is, and that following it leads out of the
  graph.
-/

namespace DesignTokens

namespace Search

variable {g : Graph} {s t : Search} {k d : String} {reasons : List (String × String)}

/-! ## Reasons that rest on earlier ones -/

/-- Every reason is a dependency of its key, and one that is no key or has a reason that stands
earlier. -/
def Explained (g : Graph) (reasons : List (String × String)) : Prop :=
  ∀ before k d after, reasons = before ++ (k, d) :: after →
    g.Edge k d ∧ (d ∉ g.keys ∨ d ∈ before.map Prod.fst)

theorem Explained.snoc (h : Explained g reasons) (hedge : g.Edge k d)
    (hd : d ∉ g.keys ∨ d ∈ reasons.map Prod.fst) : Explained g (reasons ++ [(k, d)]) := by
  intro before k' d' after heq
  rcases split_append_singleton heq with ⟨rfl, hlast⟩ | ⟨after', hfront⟩
  · cases hlast
    exact ⟨hedge, hd⟩
  · exact h before k' d' after' hfront

/-- **A visited key that is skipped takes its place behind the reasons so far.** -/
theorem Coherent.explained_insert (h : Coherent s) (hs : Explained s.graph s.skipped.entries)
    (hk : s.marks.get? k = some .visited) (hedge : s.graph.Edge k d) (hd : s.Unmet d) :
    Explained s.graph (s.skipped.insert k d).entries := by
  have hnew : k ∉ s.skipped.keys := by
    rw [h.mem_keys_skipped, hk]
    simp
  rw [OrderedMap.entries_insert_of_not_mem d hnew]
  exact hs.snoc hedge (hd.imp_right fun hd => (h.mem_keys_skipped d).2 (isSkipped_iff.1 hd))

theorem Coherent.explained_of_move (h : Coherent s) (hs : Explained s.graph s.skipped.entries)
    (hm : Move s t) : Explained t.graph t.skipped.entries := by
  cases hm with
  | enter hkey => exact hs
  | block hkey hdeps _ hdep _ =>
    refine h.explained_insert hs hkey.1 (mem_dependencies.1 ?_) hdep
    rw [hdeps]
    exact List.mem_append_right _ List.mem_cons_self
  | list hkey hdone hopen => exact hs
  | drop hdrop =>
    cases hdrop with
    | @intro key dep before after horder hdep =>
      have hlisted : key ∈ s.order := horder ▸ List.mem_append_right _ List.mem_cons_self
      exact h.explained_insert hs (h.visited_of_listed key hlisted)
        (mem_dependencies.1 (List.mem_of_find?_eq_some hdep)) (Or.inr (List.find?_some hdep))

/-- **Every sequence of moves keeps the order of the reasons.** -/
theorem Coherent.explained_of_moves (h : Coherent s) (hs : Explained s.graph s.skipped.entries)
    (hm : Moves s t) : Explained t.graph t.skipped.entries := by
  induction hm with
  | refl => exact hs
  | tail hbefore hm ih => exact (h.of_moves hbefore).explained_of_move ih hm

/-- The reasons at the end of a run. -/
theorem explained_run (g : Graph) : Explained g (start g).run.skipped.entries := by
  have hmoves := run_moves (.start g) (atRest_start g)
  have hstart : Explained g (start g).skipped.entries := fun before k d after heq =>
    absurd heq.symm (List.append_ne_nil_of_right_ne_nil before (List.cons_ne_nil _ after))
  have hend := (Coherent.start g).explained_of_moves hstart hmoves
  rwa [hmoves.graph_eq] at hend

end Search

/-! ## Following the reasons -/

namespace Schedule

/-- The name that is come to from a key when reasons are followed a number of times. -/
def follow (s : Schedule) : Nat → String → Option String
  | 0, k => some k
  | n + 1, k => (s.skipped.get? k).bind (s.follow n)

variable {g : Graph} {s : Schedule}

theorem follow_succ {k d : String} (h : s.skipped.get? k = some d) (n : Nat) :
    s.follow (n + 1) k = s.follow n d := by
  rw [follow, h, Option.bind_some]

/-- **Reasons that rest on earlier ones lead out of the graph.**  The induction is on the number of
reasons in front of that of the key. -/
theorem exists_follow (h : Search.Explained g s.skipped.entries)
    (before after : List (String × String)) (k d : String)
    (heq : s.skipped.entries = before ++ (k, d) :: after) :
    ∃ n ≤ before.length + 1, ∃ name, s.follow n k = some name ∧ name ∉ g.keys := by
  have hreason : s.skipped.get? k = some d :=
    OrderedMap.get?_eq_some_iff.2 (heq ▸ List.mem_append_right _ List.mem_cons_self)
  rcases (h before k d after heq).2 with hd | hd
  · exact ⟨1, by omega, d, follow_succ hreason 0, hd⟩
  · obtain ⟨⟨k', d'⟩, hmem, rfl⟩ := List.mem_map.1 hd
    obtain ⟨front, between, hbefore⟩ := List.append_of_mem hmem
    have hlt : front.length < before.length := by
      rw [hbefore, List.length_append, List.length_cons]
      omega
    rw [hbefore, List.append_assoc, List.cons_append] at heq
    obtain ⟨n, hn, hname⟩ := exists_follow h front _ k' d' heq
    refine ⟨n + 1, by omega, ?_⟩
    rwa [follow_succ hreason]
  termination_by before.length

end Schedule

/-- **The reasons of a schedule explain what is skipped.**  The keys from which a path leads to a
name that is no key are skipped, each of them for one of its dependencies, which is no key of the
graph or is skipped itself, and earlier.  So following the reasons from a skipped key comes, after
no more steps than there are skipped keys, to a name that is no key. -/
theorem skipped_explained (g : Graph) :
    (∀ k, k ∈ g.schedule.skipped.keys ↔ k ∈ g.keys ∧ g.Broken k) ∧
      (∀ before k dep after, g.schedule.skipped.entries = before ++ (k, dep) :: after →
        g.Edge k dep ∧ (dep ∉ g.keys ∨ dep ∈ before.map Prod.fst)) ∧
      ∀ k ∈ g.schedule.skipped.keys, ∃ n ≤ g.schedule.skipped.size, ∃ name,
        g.schedule.follow n k = some name ∧ name ∉ g.keys := by
  have hexplained : Search.Explained g g.schedule.skipped.entries := Search.explained_run g
  refine ⟨fun k => Graph.mem_skipped_schedule_iff, hexplained, fun k hk => ?_⟩
  obtain ⟨⟨k, d⟩, hmem, rfl⟩ := List.mem_map.1 hk
  obtain ⟨before, after, heq⟩ := List.append_of_mem hmem
  obtain ⟨n, hn, hname⟩ := Schedule.exists_follow hexplained before after k d heq
  refine ⟨n, ?_, hname⟩
  rw [OrderedMap.size, heq, List.length_append, List.length_cons]
  omega

end DesignTokens
