import DesignTokens.Proofs.Schedule.Reach
import DesignTokens.Proofs.Schedule.Recursion
import Mathlib.Data.List.Nodup

/-!
# Proofs/Schedule/Move — the moves of a search, and what each of them keeps

Whatever a search does is made of four moves: a pending key is **entered**, an open key is
**blocked** by a dependency or **listed**, and a listed key is **dropped** again.  A move says all
that is known when it is made, so that an invariant is a matter of four short cases.

* `Coherent` — the invariant: marks, listed keys and skipped keys agree with each other, skipped
  keys are broken, and an edge against the order of the list lies on a cycle.
* `Coherent.of_moves` — every sequence of moves keeps it.
-/

namespace DesignTokens

open Relation

namespace Search

variable {s t : Search} {key dep k d : String}

/-! ## Moves -/

/-- A key is open when it was entered and nothing has come of it yet. -/
def Open (s : Search) (key : String) : Prop :=
  s.marks.get? key = some .visited ∧ key ∉ s.order

theorem mem_dependencies : d ∈ s.dependencies k ↔ s.graph.Edge k d := by
  rw [dependencies, Graph.Edge]
  cases s.graph.get? k with
  | none => simp
  | some deps => simp

/-- Skips a listed key and leaves the given keys listed. -/
def unlist (s : Search) (key dep : String) (order : List String) : Search :=
  { s.skip key dep with order := order }

@[simp] theorem get?_marks_unlist (s : Search) (key dep k : String) (order : List String) :
    (s.unlist key dep order).marks.get? k =
      if k = key then some .skipped else s.marks.get? k :=
  get?_marks_skip s key dep k

/-- A listed key is dropped for the first of its dependencies that is skipped. -/
inductive Drop : Search → Search → Prop
  | intro {s : Search} {key dep : String} {before after : List String}
      (horder : s.order = before ++ key :: after)
      (hdep : (s.dependencies key).find? s.isSkipped = some dep) :
      Drop s (s.unlist key dep (before ++ after))

/-- The moves of a search. -/
inductive Move : Search → Search → Prop
  /-- A pending key becomes open. -/
  | enter {s : Search} {key : String} (hkey : s.isPending key = true) :
      Move s (s.mark key .visited)
  /-- An open key is skipped for its first dependency that cannot be met; every other open key leads
  to it. -/
  | block {s : Search} {key dep : String} {done rest : List String} (hkey : s.Open key)
      (hdeps : s.dependencies key = done ++ dep :: rest)
      (hdone : ∀ d ∈ done, s.marks.get? d = some .visited) (hdep : s.Unmet dep)
      (hopen : ∀ p, s.Open p → s.graph.Leads p key) : Move s (s.skip key dep)
  /-- An open key whose dependencies are visited is listed; every other open key leads to it. -/
  | list {s : Search} {key : String} (hkey : s.Open key)
      (hdone : ∀ d ∈ s.dependencies key, s.marks.get? d = some .visited)
      (hopen : ∀ p, s.Open p → s.graph.Leads p key) : Move s (s.list key)
  /-- A listed key is dropped. -/
  | drop {s t : Search} (h : Drop s t) : Move s t

/-- Any number of moves. -/
abbrev Moves : Search → Search → Prop := ReflTransGen Move

theorem Drop.graph_eq (h : Drop s t) : t.graph = s.graph := by
  cases h
  rfl

theorem Move.graph_eq (h : Move s t) : t.graph = s.graph := by
  cases h with
  | drop h => exact h.graph_eq
  | _ => rfl

theorem Moves.graph_eq (h : Moves s t) : t.graph = s.graph := by
  induction h with
  | refl => rfl
  | tail _ hm ih => exact hm.graph_eq.trans ih

/-- **What a move does to a mark**: it stays, or a pending key becomes visited, or the key is
skipped. -/
theorem Move.get?_marks (h : Move s t) (k : String) :
    t.marks.get? k = s.marks.get? k ∨
      (s.marks.get? k = some .pending ∧ t.marks.get? k = some .visited) ∨
      t.marks.get? k = some .skipped := by
  cases h with
  | enter hkey =>
    rw [get?_marks_mark]
    split
    · rename_i he
      exact Or.inr (Or.inl ⟨he ▸ isPending_iff.1 hkey, rfl⟩)
    · exact Or.inl rfl
  | block =>
    rw [get?_marks_skip]
    split
    · exact Or.inr (Or.inr rfl)
    · exact Or.inl rfl
  | list => exact Or.inl rfl
  | drop h =>
    obtain ⟨-, -⟩ := h
    rw [get?_marks_unlist]
    split
    · exact Or.inr (Or.inr rfl)
    · exact Or.inl rfl

/-- **No key becomes pending.** -/
theorem Move.pending_of_pending (h : Move s t) (hk : t.marks.get? k = some .pending) :
    s.marks.get? k = some .pending := by
  rcases h.get?_marks k with he | ⟨-, hv⟩ | hs
  · exact he ▸ hk
  · rw [hv] at hk
    cases hk
  · rw [hs] at hk
    cases hk

theorem Moves.pending_of_pending (h : Moves s t) (hk : t.marks.get? k = some .pending) :
    s.marks.get? k = some .pending := by
  induction h with
  | refl => exact hk
  | tail _ hm ih => exact ih (hm.pending_of_pending hk)

/-- A key that is skipped stays skipped. -/
theorem Move.skipped_of_skipped (h : Move s t) (hk : s.marks.get? k = some .skipped) :
    t.marks.get? k = some .skipped := by
  rcases h.get?_marks k with he | ⟨hp, -⟩ | hs
  · exact he.trans hk
  · rw [hk] at hp
    cases hp
  · exact hs

theorem Moves.skipped_of_skipped (h : Moves s t) (hk : s.marks.get? k = some .skipped) :
    t.marks.get? k = some .skipped := by
  induction h with
  | refl => exact hk
  | tail _ hm ih => exact hm.skipped_of_skipped ih

/-- A key that was entered does not become pending again. -/
theorem Moves.not_pending_of_entered (h : Moves (s.mark key .visited) t) :
    t.marks.get? key ≠ some .pending := by
  intro hp
  have hp' := h.pending_of_pending hp
  rw [get?_marks_mark, if_pos rfl] at hp'
  cases hp'

/-! ## The invariant -/

/-- What holds of a search between any two moves. -/
structure Coherent (s : Search) : Prop where
  /-- The keys of the graph have marks, and no other names do. -/
  keys_marks : s.marks.keys = s.graph.keys
  nodup_order : s.order.Nodup
  visited_of_listed : ∀ k ∈ s.order, s.marks.get? k = some .visited
  mem_keys_skipped : ∀ k, k ∈ s.skipped.keys ↔ s.marks.get? k = some .skipped
  /-- The dependencies of a listed key are keys of the graph that are no longer pending. -/
  entered_of_listed : ∀ k ∈ s.order, ∀ d, s.graph.Edge k d →
    d ∈ s.graph.keys ∧ s.marks.get? d ≠ some .pending
  broken_of_skipped : ∀ k, s.marks.get? k = some .skipped → s.graph.Broken k
  /-- A listed key depends on an open one only where that one depends on it. -/
  dependsOn_of_open : ∀ k ∈ s.order, ∀ d, s.graph.Edge k d → s.Open d → s.graph.DependsOn d k
  /-- A listed key depends on a later one only where that one depends on it. -/
  pairwise_order : s.order.Pairwise fun a b => s.graph.Edge a b → s.graph.DependsOn b a

namespace Coherent

/-- A marked key is a key of the graph. -/
theorem mem_keys (h : Coherent s) {m : Mark} (hk : s.marks.get? k = some m) : k ∈ s.graph.keys :=
  h.keys_marks ▸ OrderedMap.mem_keys_of_get? hk

/-- A key of the graph is marked. -/
theorem exists_mark (h : Coherent s) (hk : k ∈ s.graph.keys) : ∃ m, s.marks.get? k = some m :=
  OrderedMap.mem_keys_iff.1 (h.keys_marks ▸ hk)

/-- To mark a key anew adds no name. -/
theorem keys_insert (h : Coherent s) {m : Mark} (hkey : s.marks.get? key = some m) (m' : Mark) :
    (s.marks.insert key m').keys = s.graph.keys :=
  (OrderedMap.keys_insert_of_mem _ (OrderedMap.mem_keys_of_get? hkey)).trans h.keys_marks

/-- Where a key is marked, and not as pending, no dependency of a listed key becomes pending. -/
theorem entered_insert (h : Coherent s) {m : Mark} (hm : m ≠ .pending) (hk : k ∈ s.order)
    (hd : s.graph.Edge k d) :
    d ∈ s.graph.keys ∧ (s.marks.insert key m).get? d ≠ some .pending := by
  obtain ⟨hg, hp⟩ := h.entered_of_listed k hk d hd
  refine ⟨hg, ?_⟩
  rw [OrderedMap.get?_insert]
  split
  · exact fun he => hm (Option.some.inj he)
  · exact hp

theorem enter (h : Coherent s) (hkey : s.isPending key = true) :
    Coherent (s.mark key .visited) := by
  rw [isPending_iff] at hkey
  have hlisted : ∀ k ∈ s.order, k ≠ key := fun k hk he => by
    have := h.visited_of_listed k hk
    rw [he, hkey] at this
    cases this
  refine
    { keys_marks := h.keys_insert hkey .visited
      nodup_order := h.nodup_order
      visited_of_listed := fun k hk => ?_
      mem_keys_skipped := fun k => ?_
      entered_of_listed := fun k hk d hd => h.entered_insert (by decide) hk hd
      broken_of_skipped := fun k hk => ?_
      dependsOn_of_open := fun k hk d hd ho => ?_
      pairwise_order := h.pairwise_order }
  · rw [get?_marks_mark, if_neg (hlisted k hk)]
    exact h.visited_of_listed k hk
  · rw [get?_marks_mark]
    refine (h.mem_keys_skipped k).trans ?_
    split
    · rename_i he
      rw [he, hkey]
      simp
    · rfl
  · rw [get?_marks_mark] at hk
    split at hk
    · cases hk
    · exact h.broken_of_skipped k hk
  · -- the entered key was pending, and a listed key has no pending dependency
    have hne : d ≠ key := fun he => (h.entered_of_listed k hk d hd).2 (he ▸ hkey)
    obtain ⟨hv, hn⟩ := ho
    rw [get?_marks_mark, if_neg hne] at hv
    exact h.dependsOn_of_open k hk d hd ⟨hv, hn⟩

theorem broken_of_unmet (h : Coherent s) (hedge : s.graph.Edge key dep) (hdep : s.Unmet dep) :
    s.graph.Broken key := by
  rcases hdep with hn | hs
  · exact hedge.broken (Graph.broken_of_not_mem hn)
  · exact hedge.broken (h.broken_of_skipped dep (isSkipped_iff.1 hs))

/-- **A visited key is skipped**, and all the other listed keys stay: what blocking an open key and
dropping a listed one have in common. -/
theorem unlist {order : List String} (h : Coherent s) (hkey : s.marks.get? key = some .visited)
    (hedge : s.graph.Edge key dep) (hdep : s.Unmet dep) (hsub : order.Sublist s.order)
    (hnot : key ∉ order) (hrest : ∀ k ∈ s.order, k ≠ key → k ∈ order) :
    Coherent (s.unlist key dep order) := by
  refine
    { keys_marks := h.keys_insert hkey .skipped
      nodup_order := h.nodup_order.sublist hsub
      visited_of_listed := fun k hk => ?_
      mem_keys_skipped := fun k => ?_
      entered_of_listed := fun k hk d hd => h.entered_insert (by decide) (hsub.subset hk) hd
      broken_of_skipped := fun k hk => ?_
      dependsOn_of_open := fun k hk d hd ho => ?_
      pairwise_order := h.pairwise_order.sublist hsub }
  · have hne : k ≠ key := fun he => hnot (he ▸ hk)
    rw [get?_marks_unlist, if_neg hne]
    exact h.visited_of_listed k (hsub.subset hk)
  · rw [get?_marks_unlist]
    refine OrderedMap.mem_keys_insert.trans ?_
    split
    · rename_i he
      simp [he]
    · rename_i hne
      rw [h.mem_keys_skipped k, or_iff_right hne]
  · rw [get?_marks_unlist] at hk
    split at hk
    · rename_i he
      subst he
      exact h.broken_of_unmet hedge hdep
    · exact h.broken_of_skipped k hk
  · obtain ⟨hv, hn⟩ := ho
    rw [get?_marks_unlist] at hv
    split at hv
    · cases hv
    · rename_i hne
      exact h.dependsOn_of_open k (hsub.subset hk) d hd ⟨hv, fun hd' => hn (hrest d hd' hne)⟩

theorem block (h : Coherent s) (hkey : s.Open key) (hedge : s.graph.Edge key dep)
    (hdep : s.Unmet dep) : Coherent (s.skip key dep) :=
  h.unlist hkey.1 hedge hdep (List.Sublist.refl _) hkey.2 fun _ hk _ => hk

theorem drop (h : Coherent s) (hd : Drop s t) : Coherent t := by
  cases hd with
  | @intro key dep before after horder hdep =>
    have hmem : key ∈ s.order := horder ▸ List.mem_append_right _ List.mem_cons_self
    have hnodup := h.nodup_order
    rw [horder, List.nodup_middle, List.nodup_cons] at hnodup
    refine h.unlist (h.visited_of_listed key hmem)
      (mem_dependencies.1 (List.mem_of_find?_eq_some hdep))
      (Or.inr (List.find?_some hdep)) ?_ hnodup.1 fun k hk hne => ?_
    · rw [horder]
      exact List.Sublist.append_left (List.sublist_cons_self key after) before
    · rw [horder, List.mem_append, List.mem_cons] at hk
      rcases hk with hk | hk | hk
      · exact List.mem_append_left _ hk
      · exact absurd hk hne
      · exact List.mem_append_right _ hk

theorem list (h : Coherent s) (hkey : s.Open key)
    (hdone : ∀ d ∈ s.dependencies key, s.marks.get? d = some .visited)
    (hopen : ∀ p, s.Open p → s.graph.Leads p key) : Coherent (s.list key) := by
  have hbefore : ∀ {d}, (s.list key).Open d → s.Open d := fun ho =>
    ⟨ho.1, fun hd => ho.2 (List.mem_append_left _ hd)⟩
  refine
    { keys_marks := h.keys_marks
      nodup_order := ?_
      visited_of_listed :=
        List.forall_mem_append.2 ⟨h.visited_of_listed, List.forall_mem_singleton.2 hkey.1⟩
      mem_keys_skipped := h.mem_keys_skipped
      entered_of_listed := List.forall_mem_append.2
        ⟨h.entered_of_listed, List.forall_mem_singleton.2 fun d hd => ?_⟩
      broken_of_skipped := h.broken_of_skipped
      dependsOn_of_open := List.forall_mem_append.2
        ⟨fun k hk d hd ho => h.dependsOn_of_open k hk d hd (hbefore ho),
          List.forall_mem_singleton.2 fun d hd ho => hd.dependsOn_of_leads (hopen d (hbefore ho))⟩
      pairwise_order := ?_ }
  · rw [Search.list, List.nodup_append]
    refine ⟨h.nodup_order, List.pairwise_singleton _ key, fun a ha b hb he => ?_⟩
    exact hkey.2 (List.mem_singleton.1 hb ▸ he ▸ ha)
  · have hv := hdone d (mem_dependencies.2 hd)
    exact ⟨h.mem_keys hv, fun hp => absurd (hv.symm.trans hp) (by simp)⟩
  · -- an earlier key that depends on the new one: the new one is open until now
    refine List.pairwise_append.2 ⟨h.pairwise_order, List.pairwise_singleton _ _, ?_⟩
    intro a ha b hb hab
    rw [List.mem_singleton.1 hb] at hab ⊢
    exact h.dependsOn_of_open a ha key hab hkey

/-- **Every move keeps the invariant.** -/
theorem of_move (h : Coherent s) (hm : Move s t) : Coherent t := by
  cases hm with
  | enter hkey => exact h.enter hkey
  | block hkey hdeps _ hdep _ =>
    refine h.block hkey (mem_dependencies.1 ?_) hdep
    rw [hdeps]
    exact List.mem_append_right _ List.mem_cons_self
  | list hkey hdone hopen => exact h.list hkey hdone hopen
  | drop hd => exact h.drop hd

/-- **Every sequence of moves keeps the invariant.** -/
theorem of_moves (h : Coherent s) (hm : Moves s t) : Coherent t := by
  induction hm with
  | refl => exact h
  | tail _ hm ih => exact ih.of_move hm

/-- The invariant holds before the search begins. -/
theorem start (g : Graph) : Coherent (Search.start g) := by
  have hpending : ∀ k m, (Search.start g).marks.get? k = some m → m = .pending := fun k m hk => by
    rw [Search.start, OrderedMap.get?_mapValues, Option.map_eq_some_iff] at hk
    obtain ⟨-, -, hm⟩ := hk
    exact hm.symm
  exact
    { keys_marks := OrderedMap.keys_mapValues _ g
      nodup_order := List.nodup_nil
      visited_of_listed := fun k hk => absurd hk List.not_mem_nil
      mem_keys_skipped := fun k =>
        ⟨fun hk => absurd hk List.not_mem_nil, fun hk => absurd (hpending k _ hk) (by simp)⟩
      entered_of_listed := fun k hk => absurd hk List.not_mem_nil
      broken_of_skipped := fun k hk => absurd (hpending k _ hk) (by simp)
      dependsOn_of_open := fun k hk => absurd hk List.not_mem_nil
      pairwise_order := List.Pairwise.nil }

end Coherent

end Search

end DesignTokens
