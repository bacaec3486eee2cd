import Mathlib.Data.List.Induction
import Mathlib.Data.List.Nodup

/-!
# Proofs/Position — where the members of a list stand

* `idxOf_lt_of_pairwise` — of two members one stands first where the other order is ruled out.
* `pairwise_idxOf_eraseDups` — with each member listed once, they stand as they stood first.
* `mem_of_idxOf_lt` — what stands before a member is in front of it.
* `idxOf_lt_of_sublist` — leaving members out keeps the others in order.
* `split_append_singleton` — a member is the last one or stands in front of it.
-/

namespace DesignTokens

/-- **Where a list is split that has one more member at its end**: at that member, or at an earlier
one. -/
theorem split_append_singleton {α : Type} {l before after : List α} {last a : α}
    (h : l ++ [last] = before ++ a :: after) : (before = l ∧ a = last) ∨
      ∃ after', l = before ++ a :: after' := by
  rcases List.eq_nil_or_concat after with rfl | ⟨after', last', rfl⟩
  · obtain ⟨hl, hlast⟩ := List.append_inj' h rfl
    exact Or.inl ⟨hl.symm, (List.singleton_inj.1 hlast).symm⟩
  · rw [List.concat_eq_append, ← List.cons_append, ← List.append_assoc] at h
    exact Or.inr ⟨after', (List.append_inj' h rfl).1⟩

variable {α : Type} [DecidableEq α] {R : α → α → Prop} {l front back : List α} {a b : α}

/-- Members stand in the order in which a list has them. -/
theorem rel_of_idxOf_lt (h : l.Pairwise R) (ha : a ∈ l) (hb : b ∈ l)
    (hlt : l.idxOf a < l.idxOf b) : R a b := by
  have hpair := List.pairwise_iff_getElem.1 h _ _ (List.idxOf_lt_length_of_mem ha)
    (List.idxOf_lt_length_of_mem hb) hlt
  rwa [List.getElem_idxOf, List.getElem_idxOf] at hpair

theorem idxOf_lt_of_pairwise (h : l.Pairwise R) (ha : a ∈ l) (hb : b ∈ l) (hne : a ≠ b)
    (hR : ¬ R b a) : l.idxOf a < l.idxOf b := by
  rcases Nat.lt_trichotomy (l.idxOf a) (l.idxOf b) with hlt | heq | hgt
  · exact hlt
  · exact absurd ((List.idxOf_inj ha).1 heq) hne
  · exact absurd (rel_of_idxOf_lt h hb ha hgt) hR

/-- Where members are listed by a number, one stands first where its number is less. -/
theorem idxOf_lt_iff_of_pairwise {f : α → Nat} (h : l.Pairwise fun a b => f a < f b) (ha : a ∈ l)
    (hb : b ∈ l) : l.idxOf a < l.idxOf b ↔ f a < f b := by
  constructor
  · exact rel_of_idxOf_lt h ha hb
  · intro hlt
    refine idxOf_lt_of_pairwise h ha hb ?_ (Nat.lt_asymm hlt)
    rintro rfl
    exact Nat.lt_irrefl _ hlt

theorem idxOf_le_of_getElem? {i : Nat} (h : l[i]? = some a) : l.idxOf a ≤ i := by
  obtain ⟨hi, rfl⟩ := List.getElem?_eq_some_iff.1 h
  refine Nat.le_of_not_lt fun hlt => ?_
  have hne := List.not_of_lt_findIdx hlt
  simp at hne

theorem mem_of_idxOf_lt (h : (front ++ b :: back).idxOf a < (front ++ b :: back).idxOf b) :
    a ∈ front := by
  by_contra ha
  have hb : (front ++ b :: back).idxOf b ≤ front.length := by
    by_cases hmem : b ∈ front
    · rw [List.idxOf_append_of_mem hmem]
      exact List.idxOf_le_length
    · rw [List.idxOf_append_of_notMem hmem, List.idxOf_cons_self]
      exact Nat.le_refl _
  rw [List.idxOf_append_of_notMem ha] at h
  omega

theorem idxOf_lt_of_sublist (h : l.Sublist (front ++ b :: back))
    (hnodup : (front ++ b :: back).Nodup) (hfront : a ∈ front) (ha : a ∈ l) (hb : b ∈ l) :
    l.idxOf a < l.idxOf b := by
  obtain ⟨-, -, hapart⟩ := List.nodup_append.1 hnodup
  obtain ⟨l₁, l₂, rfl, h₁, h₂⟩ := List.sublist_append_iff.1 h
  have ha₁ : a ∈ l₁ := (List.mem_append.1 ha).resolve_right fun hm =>
    hapart a hfront a (h₂.subset hm) rfl
  have hb₁ : b ∉ l₁ := fun hm => hapart b (h₁.subset hm) b List.mem_cons_self rfl
  rw [List.idxOf_append_of_mem ha₁, List.idxOf_append_of_notMem hb₁]
  exact Nat.lt_add_right _ (List.idxOf_lt_length_of_mem ha₁)

/-! ## Each member once -/

/-- A further member is listed at the end, unless it is listed already. -/
theorem eraseDups_append_singleton (l : List α) (a : α) :
    (l ++ [a]).eraseDups = if a ∈ l then l.eraseDups else l.eraseDups ++ [a] := by
  rw [List.eraseDups_append]
  split
  · rename_i ha
    simp [List.removeAll, ha]
  · rename_i ha
    simp [List.removeAll, ha, List.eraseDups_cons]

/-- **Each member once, in the order in which they stood first.** -/
theorem pairwise_idxOf_eraseDups (l : List α) :
    l.eraseDups.Pairwise fun a b => l.idxOf a < l.idxOf b := by
  induction l using List.reverseRecOn with
  | nil => exact .nil
  | append_singleton l c ih =>
    have hkept : l.eraseDups.Pairwise fun a b => (l ++ [c]).idxOf a < (l ++ [c]).idxOf b := by
      refine ih.imp_of_mem fun {a b} ha hb hlt => ?_
      rwa [List.idxOf_append_of_mem (List.mem_eraseDups.1 ha),
        List.idxOf_append_of_mem (List.mem_eraseDups.1 hb)]
    rw [eraseDups_append_singleton]
    split
    · exact hkept
    · rename_i hc
      refine List.pairwise_append.2 ⟨hkept, List.pairwise_singleton _ _, fun a ha b hb => ?_⟩
      obtain rfl := List.mem_singleton.1 hb
      have hmem := List.mem_eraseDups.1 ha
      rw [List.idxOf_append_of_mem hmem, List.idxOf_append_of_notMem hc]
      exact Nat.lt_add_right _ (List.idxOf_lt_length_of_mem hmem)

/-- Leaving members out and listing each member once do not depend on which is done first. -/
theorem eraseDups_filter (p : α → Bool) (l : List α) :
    (l.filter p).eraseDups = l.eraseDups.filter p := by
  induction l using List.reverseRecOn with
  | nil => rfl
  | append_singleton l a ih =>
    rw [List.filter_append, eraseDups_append_singleton]
    cases hp : p a with
    | false =>
      rw [List.filter_cons_of_neg (Bool.eq_false_iff.1 hp), List.filter_nil, List.append_nil, ih]
      split
      · rfl
      · simp [hp]
    | true =>
      rw [List.filter_cons_of_pos hp, List.filter_nil, eraseDups_append_singleton, ih]
      simp only [List.mem_filter, hp, and_true]
      split
      · rfl
      · simp [hp]

end DesignTokens
