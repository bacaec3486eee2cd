import DesignTokens.Proofs.Schedule.Walk

/-!
# Proofs/Schedule/Settle — what settling drops

A pass over the listed keys is a sequence of drops, and settling is a sequence of passes that ends
with one that drops nothing: **no listed key depends on a skipped one**.
-/

namespace DesignTokens

open Relation

namespace Search

variable {s t : Search} {k : String}

/-- No listed key depends on a skipped one. -/
def Settled (s : Search) : Prop :=
  ∀ k ∈ s.order, ∀ d, s.graph.Edge k d → s.marks.get? d ≠ some .skipped

/-- Any number of drops. -/
abbrev Drops : Search → Search → Prop := ReflTransGen Drop

theorem Drops.moves (h : Drops s t) : Moves s t := h.lift id fun _ _ => Move.drop

/-- A drop opens no key. -/
theorem Drop.open_of_open (h : Drop s t) (ho : t.Open k) : s.Open k := by
  cases h with
  | intro horder hdep =>
    obtain ⟨hv, hn⟩ := ho
    rw [get?_marks_unlist] at hv
    split at hv
    · cases hv
    · rename_i hne
      refine ⟨hv, fun hk => hn ?_⟩
      rw [horder, List.mem_append, List.mem_cons] at hk
      exact List.mem_append.2 (hk.imp_right fun hk => hk.resolve_left hne)

theorem Drops.atRest (h : Drops s t) (hrest : s.AtRest) : t.AtRest := by
  induction h with
  | refl => exact hrest
  | tail _ hd ih => exact fun k ho => ih k (hd.open_of_open ho)

/-! ## A pass -/

/-- **A pass is a sequence of drops**, whatever was kept in front of the keys it goes over. -/
theorem sweep_drops (s : Search) (kept keys : List String) :
    Drops { s with order := kept ++ keys }
      { (s.sweep keys).1 with order := kept ++ (s.sweep keys).2 } := by
  induction keys generalizing s kept with
  | nil => exact ReflTransGen.refl
  | cons key keys ih =>
    rw [sweep]
    split
    · rename_i dep hdep
      have hdrop : Drop { s with order := kept ++ key :: keys }
          { s.skip key dep with order := kept ++ keys } := Drop.intro rfl hdep
      exact (ih (s.skip key dep) kept).head hdrop
    · have := ih s (kept ++ [key])
      rwa [List.append_assoc, List.append_assoc] at this

/-- A pass that drops no key changes nothing, and none of its keys depends on a skipped one. -/
theorem sweep_of_length_eq (s : Search) (keys : List String)
    (h : ¬ (s.sweep keys).2.length < keys.length) :
    s.sweep keys = (s, keys) ∧ ∀ k ∈ keys, (s.dependencies k).find? s.isSkipped = none := by
  induction keys with
  | nil => exact ⟨rfl, fun k hk => absurd hk List.not_mem_nil⟩
  | cons key keys ih =>
    rw [sweep] at h ⊢
    split at h
    · rename_i dep hdep
      exact absurd (Nat.lt_succ_of_le (length_sweep_le (s.skip key dep) keys)) h
    · rename_i hnone
      obtain ⟨hsweep, hkeys⟩ := ih (mt Nat.succ_lt_succ h)
      refine ⟨by rw [hsweep], fun k hk => ?_⟩
      rcases List.mem_cons.1 hk with he | hk
      · exact he ▸ hnone
      · exact hkeys k hk

/-! ## Settling -/

/-- **Settling is a sequence of drops, and leaves the search settled.** -/
theorem settle_drops (s : Search) : Drops s s.settle ∧ s.settle.Settled := by
  have hpass : Drops s { (s.sweep s.order).1 with order := (s.sweep s.order).2 } :=
    sweep_drops s [] s.order
  rw [settle]
  split
  · rename_i hlt
    obtain ⟨hdrops, hsettled⟩ :=
      settle_drops { (s.sweep s.order).1 with order := (s.sweep s.order).2 }
    exact ⟨hpass.trans hdrops, hsettled⟩
  · rename_i hlt
    refine ⟨hpass, ?_⟩
    obtain ⟨hsweep, hkeys⟩ := sweep_of_length_eq s s.order hlt
    rw [hsweep]
    intro k hk d hd hs
    exact List.find?_eq_none.1 (hkeys k hk) d (mem_dependencies.2 hd) (isSkipped_iff.2 hs)
  termination_by s.order.length

/-- Where no listed key depends on a skipped one, a pass changes nothing. -/
theorem sweep_of_none {keys : List String}
    (h : ∀ k ∈ keys, (s.dependencies k).find? s.isSkipped = none) : s.sweep keys = (s, keys) := by
  induction keys with
  | nil => rfl
  | cons key keys ih =>
    rw [sweep, h key List.mem_cons_self]
    simp only [ih fun k hk => h k (List.mem_cons_of_mem _ hk)]

theorem Settled.settle_eq (h : s.Settled) : s.settle = s := by
  have hnone : ∀ k ∈ s.order, (s.dependencies k).find? s.isSkipped = none := by
    intro k hk
    rw [List.find?_eq_none]
    intro d hd hs
    exact h k hk d (mem_dependencies.1 hd) (isSkipped_iff.1 hs)
  rw [settle]
  simp only [sweep_of_none hnone, Nat.lt_irrefl, if_false]

end Search

end DesignTokens
