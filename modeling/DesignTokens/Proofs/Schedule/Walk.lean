import DesignTokens.Proofs.Schedule.Move

/-!
# Proofs/Schedule/Walk — a walk is a sequence of moves

While a key is scanned, its dependencies so far are visited and **every open key leads to it**: the
open keys are the calls that wait, each for a dependency of its own.  This is what the moves of
`Schedule/Move` ask for, and what a call hands on to the calls it makes.

* `Scanning.moves` — a call makes moves only, and closes its own key and no other.
* `explore_moves` — a visit of a pending key, where no key is open, leaves no key open.
-/

namespace DesignTokens

open Relation

namespace Search

variable {s t : Search} {key dep k d : String} {rest : List String}

/-- The situation of a call: a coherent search in which `key` is open and the dependencies in front
of `rest` were looked at. -/
structure Scanning (s : Search) (key : String) (rest : List String) : Prop where
  coherent : Coherent s
  open_key : s.Open key
  looked_at : ∃ done, s.dependencies key = done ++ rest ∧
    ∀ d ∈ done, s.marks.get? d = some .visited
  leads : ∀ p, s.Open p → s.graph.Leads p key

/-- A dependency that can be met and is not pending is visited. -/
theorem Coherent.visited_of_met (h : Coherent s) (hmet : ¬ s.Unmet dep)
    (hp : s.marks.get? dep ≠ some .pending) : s.marks.get? dep = some .visited := by
  obtain ⟨hmem, hs⟩ := not_or.1 hmet
  obtain ⟨m, hm⟩ := h.exists_mark (not_not.1 hmem)
  rw [isSkipped_iff] at hs
  cases m with
  | pending => exact absurd hm hp
  | visited => exact hm
  | skipped => exact absurd hm hs

theorem Coherent.not_mem_order_of_pending (h : Coherent s) (hk : s.isPending k = true) :
    k ∉ s.order := by
  intro hmem
  rw [isPending_iff, h.visited_of_listed k hmem] at hk
  cases hk

/-- Entering a pending key opens it and no other. -/
theorem open_mark_iff (h : Coherent s) (hp : s.isPending dep = true) :
    (s.mark dep .visited).Open k ↔ k = dep ∨ s.Open k := by
  unfold Open
  rw [get?_marks_mark]
  by_cases he : k = dep
  · subst he
    have hnot : k ∉ (s.mark k .visited).order := h.not_mem_order_of_pending hp
    simp [hnot]
  · simp only [he, if_false, false_or]
    rfl

/-- Skipping a key closes it and no other. -/
theorem open_skip_iff : (s.skip key dep).Open k ↔ s.Open k ∧ k ≠ key := by
  unfold Open
  rw [get?_marks_skip]
  by_cases he : k = key
  · simp [he]
  · simp only [he, if_false, ne_eq, not_false_eq_true, and_true]
    rfl

/-- Listing a key closes it and no other. -/
theorem open_list_iff : (s.list key).Open k ↔ s.Open k ∧ k ≠ key := by
  simp only [Open, list, List.mem_append, List.mem_singleton, not_or, ne_eq, and_assoc]

/-- An open key is not pending. -/
theorem Open.ne_of_pending (h : s.Open k) (hp : s.isPending dep = true) :
    k ≠ dep := by
  rintro rfl
  rw [isPending_iff, h.1] at hp
  cases hp

namespace Scanning

theorem edge (h : Scanning s key (dep :: rest)) : s.graph.Edge key dep := by
  obtain ⟨done, hdeps, -⟩ := h.looked_at
  exact mem_dependencies.1 (hdeps ▸ List.mem_append_right _ List.mem_cons_self)

/-- A dependency that is visited is passed over. -/
theorem pass (h : Scanning s key (dep :: rest)) (hv : s.marks.get? dep = some .visited) :
    Scanning s key rest := by
  obtain ⟨done, hdeps, hdone⟩ := h.looked_at
  refine ⟨h.coherent, h.open_key, ⟨done ++ [dep], by simp [hdeps], fun d hd => ?_⟩, h.leads⟩
  rcases List.mem_append.1 hd with hd | hd
  · exact hdone d hd
  · exact List.mem_singleton.1 hd ▸ hv

theorem block (h : Scanning s key (dep :: rest)) (hu : s.Unmet dep) :
    Move s (s.skip key dep) := by
  obtain ⟨done, hdeps, hdone⟩ := h.looked_at
  exact .block h.open_key hdeps hdone hu h.leads

theorem list (h : Scanning s key []) : Move s (s.list key) := by
  obtain ⟨done, hdeps, hdone⟩ := h.looked_at
  rw [List.append_nil] at hdeps
  exact .list h.open_key (hdeps ▸ hdone) h.leads

/-- The situation of the call for a pending dependency. -/
theorem enter (h : Scanning s key (dep :: rest)) (hp : s.isPending dep = true) :
    Scanning (s.mark dep .visited) dep (s.dependencies dep) := by
  refine
    { coherent := h.coherent.enter hp
      open_key := (open_mark_iff h.coherent hp).2 (Or.inl rfl)
      looked_at := ⟨[], rfl, fun d hd => absurd hd List.not_mem_nil⟩
      leads := fun p ho => ?_ }
  rcases (open_mark_iff h.coherent hp).1 ho with he | ho
  · exact he ▸ ReflTransGen.refl
  · exact (h.leads p ho).tail h.edge

/-- What the call for a pending dependency leaves open is what was open before. -/
theorem open_explore_iff (h : Scanning s key (dep :: rest)) (hp : s.isPending dep = true)
    (hopen : ∀ k, (s.explore dep).Open k ↔ (s.mark dep .visited).Open k ∧ k ≠ dep) :
    (s.explore dep).Open k ↔ s.Open k := by
  rw [hopen, open_mark_iff h.coherent hp]
  constructor
  · rintro ⟨he | ho, hne⟩
    · exact absurd he hne
    · exact ho
  · intro ho
    exact ⟨Or.inr ho, ho.ne_of_pending hp⟩

/-- The situation after the call for a pending dependency, which is to be looked at once more. -/
theorem resume (h : Scanning s key (dep :: rest)) (hp : s.isPending dep = true)
    (hmoves : Moves (s.mark dep .visited) (s.explore dep))
    (hopen : ∀ k, (s.explore dep).Open k ↔ (s.mark dep .visited).Open k ∧ k ≠ dep) :
    Scanning (s.explore dep) key (dep :: rest) := by
  obtain ⟨done, hdeps, hdone⟩ := h.looked_at
  refine
    { coherent := (h.coherent.enter hp).of_moves hmoves
      open_key := (h.open_explore_iff hp hopen).2 h.open_key
      looked_at := ⟨done, ?_, fun d hd => visited_explore (hdone d hd) hp⟩
      leads := fun p ho => ?_ }
  · rw [dependencies, graph_explore]
    exact hdeps
  · rw [graph_explore]
    exact h.leads p ((h.open_explore_iff hp hopen).1 ho)

/-- A dependency that was entered and did not end up skipped is visited. -/
theorem visited_of_moves (h : Scanning s key (dep :: rest)) (hp : s.isPending dep = true)
    (hmoves : Moves (s.mark dep .visited) t) (hs : ¬ t.isSkipped dep = true) :
    t.marks.get? dep = some .visited := by
  have hcoherent : Coherent t := (h.coherent.enter hp).of_moves hmoves
  refine hcoherent.visited_of_met ?_ fun hpend => ?_
  · rintro (hn | hn)
    · exact hn (hmoves.graph_eq ▸ h.coherent.mem_keys (isPending_iff.1 hp))
    · exact hs hn
  · exact hmoves.not_pending_of_entered hpend

/-- **A call is a sequence of moves that closes its own key and no other.**  The induction is along
the recursion; `enter` and `resume` hand the situation on. -/
theorem moves (h : Scanning s key rest) :
    Moves s (s.scan key rest) ∧ ∀ k, (s.scan key rest).Open k ↔ s.Open k ∧ k ≠ key := by
  induction s, key, rest using scan_induction with
  | listed s key => exact ⟨ReflTransGen.single h.list, fun k => open_list_iff⟩
  | unmet s key dep rest hu => exact ⟨ReflTransGen.single (h.block hu), fun k => open_skip_iff⟩
  | passed s key dep rest hu hp ih =>
    exact ih (h.pass (h.coherent.visited_of_met hu (mt isPending_iff.2 hp)))
  | failed s key dep rest hu hp hs hdep =>
    obtain ⟨hmoves, hopen⟩ := hdep (h.enter hp)
    have hblock := (h.resume hp hmoves hopen).block (Or.inr hs)
    refine ⟨(hmoves.head (.enter hp)).tail hblock, fun k => ?_⟩
    rw [open_skip_iff, h.open_explore_iff hp hopen]
  | explored s key dep rest hu hp hs hdep hrest =>
    obtain ⟨hmoves, hopen⟩ := hdep (h.enter hp)
    have hnext := (h.resume hp hmoves hopen).pass (h.visited_of_moves hp hmoves hs)
    obtain ⟨hmoves', hopen'⟩ := hrest hnext
    refine ⟨(hmoves.head (.enter hp)).trans hmoves', fun k => ?_⟩
    rw [hopen', h.open_explore_iff hp hopen]

end Scanning

/-! ## Visits -/

/-- No key is open. -/
def AtRest (s : Search) : Prop := ∀ k, ¬ s.Open k

/-- **A visit of a pending key is a sequence of moves** that leaves no key open, where none was. -/
theorem explore_moves (h : Coherent s) (hrest : s.AtRest) (hp : s.isPending key = true) :
    Moves s (s.explore key) ∧ (s.explore key).AtRest ∧
      (s.explore key).marks.get? key ≠ some .pending := by
  have honly : ∀ p, (s.mark key .visited).Open p → p = key := fun p ho =>
    ((open_mark_iff h hp).1 ho).resolve_right (hrest p)
  have hscan : Scanning (s.mark key .visited) key (s.dependencies key) :=
    { coherent := h.enter hp
      open_key := (open_mark_iff h hp).2 (Or.inl rfl)
      looked_at := ⟨[], rfl, fun d hd => absurd hd List.not_mem_nil⟩
      leads := fun p ho => honly p ho ▸ ReflTransGen.refl }
  obtain ⟨hmoves, hopen⟩ := hscan.moves
  refine ⟨hmoves.head (.enter hp), fun k ho => ?_, hmoves.not_pending_of_entered⟩
  obtain ⟨ho, hne⟩ := (hopen k).1 ho
  exact hne (honly k ho)

theorem explorePending_moves (h : Coherent s) (hrest : s.AtRest) (key : String) :
    Moves s (s.explorePending key) ∧ (s.explorePending key).AtRest ∧
      (s.explorePending key).marks.get? key ≠ some .pending := by
  unfold explorePending
  split
  · rename_i hp
    exact explore_moves h hrest hp
  · rename_i hp
    exact ⟨ReflTransGen.refl, hrest, mt isPending_iff.2 hp⟩

/-- Visits of some keys, the pending ones in turn, leave none of them pending. -/
theorem foldl_explore_moves (keys : List String) (s : Search) (h : Coherent s) (hrest : s.AtRest) :
    Moves s (keys.foldl explorePending s) ∧ (keys.foldl explorePending s).AtRest ∧
      ∀ k ∈ keys, (keys.foldl explorePending s).marks.get? k ≠ some .pending := by
  induction keys generalizing s with
  | nil => exact ⟨ReflTransGen.refl, hrest, fun k hk => absurd hk List.not_mem_nil⟩
  | cons key keys ih =>
    rw [List.foldl_cons]
    obtain ⟨hmoves, hrest', hkey⟩ := explorePending_moves h hrest key
    obtain ⟨hmoves', hrest'', hkeys⟩ := ih _ (h.of_moves hmoves) hrest'
    refine ⟨hmoves.trans hmoves', hrest'', fun k hk => ?_⟩
    rcases List.mem_cons.1 hk with he | hk
    · exact fun hpend => hkey (he ▸ hmoves'.pending_of_pending hpend)
    · exact hkeys k hk

end Search

end DesignTokens
