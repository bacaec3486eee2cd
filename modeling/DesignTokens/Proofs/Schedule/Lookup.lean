import DesignTokens.Proofs.Except
import DesignTokens.Proofs.Schedule.Settle

/-!
# Proofs/Schedule/Lookup — no look-up of a search misses

The search of `Schedule/Search` answers every look-up: a name without a mark counts as neither
pending nor skipped, and a name that is no key counts as a key without dependencies.  Here the same
search **breaks off** at a look-up that misses, and it is shown that none does.

* `tryDrain_eq`, `trySettle_eq` — the parts of the machine, from any state whose names are marked.
* `tryVisit_eq`, `tryRun_eq` — visits and runs, from any coherent search in which no key is open.
-/

namespace DesignTokens

namespace Search

variable {s t : Search} {key dep k : String} {deps keys rest : List String} {frame : Frame}
  {stack : List Frame}

/-! ## Steps that break off -/

/-- A name that was looked up where it is not there. -/
structure Miss where
  name : String

/-- The mark of a name. -/
def markOf (s : Search) (name : String) : Except Miss Mark :=
  match s.marks.get? name with
  | some m => .ok m
  | none => .error ⟨name⟩

/-- The dependencies of a name. -/
def dependenciesOf (s : Search) (name : String) : Except Miss (List String) :=
  match s.graph.get? name with
  | some deps => .ok deps
  | none => .error ⟨name⟩

/-- Looks at dependencies up to the first that stops the key or has to be walked. -/
def tryAdvance (s : Search) : List String → Except Miss Advance
  | [] => .ok .done
  | dep :: rest =>
    if !s.graph.contains dep then .ok (.blocked dep)
    else do
      match ← s.markOf dep with
      | .skipped => return .blocked dep
      | .pending => return .descend dep rest
      | .visited => s.tryAdvance rest

/-- Takes a key off the stack: a skipped key has the key below it skipped, any other is listed. -/
def tryLeave (s : Search) (key : String) (stack : List Frame) :
    Except Miss (Search × List Frame) := do
  if (← s.markOf key) = .skipped then
    match stack with
    | [] => return (s, [])
    | parent :: _ => return (s.skip parent.key key, stack)
  else return (s.list key, stack)

/-- One step with `frame` on top of the stack. -/
def tryStep (s : Search) (frame : Frame) (stack : List Frame) :
    Except Miss (Search × List Frame) := do
  if (← s.markOf frame.key) = .skipped then s.tryLeave frame.key stack
  else
    match ← s.tryAdvance frame.rest with
    | .descend child rest =>
      let deps ← s.dependenciesOf child
      return (s.mark child .visited, ⟨child, deps⟩ :: ⟨frame.key, rest⟩ :: stack)
    | .blocked dep => (s.skip frame.key dep).tryLeave frame.key stack
    | .done => s.tryLeave frame.key stack

theorem markOf_eq_ok_iff {m : Mark} : s.markOf k = .ok m ↔ s.marks.get? k = some m := by
  unfold markOf
  cases s.marks.get? k with
  | none => simp
  | some m' => simp

theorem dependenciesOf_eq (h : k ∈ s.graph.keys) :
    s.dependenciesOf k = .ok (s.dependencies k) := by
  obtain ⟨deps, hdeps⟩ := OrderedMap.mem_keys_iff.1 h
  rw [dependenciesOf, dependencies, hdeps, Option.getD_some]

theorem eq_dependencies_of_dependenciesOf (h : s.dependenciesOf k = .ok deps) :
    deps = s.dependencies k := by
  unfold dependenciesOf at h
  split at h
  · rename_i deps' hdeps
    cases h
    rw [dependencies, hdeps, Option.getD_some]
  · cases h

/-! ### A step that does not break off is a step of the machine

Nothing has to be known about the marks for this, so that the machine that breaks off comes to rest
like the other one. -/

theorem eq_advance_of_tryAdvance {a : Advance} (h : s.tryAdvance deps = .ok a) :
    a = s.advance deps := by
  induction deps with
  | nil =>
    cases h
    rfl
  | cons dep rest ih =>
    rw [tryAdvance] at h
    split at h
    · rename_i hc
      cases h
      rw [advance, if_pos (by simp [hc])]
    · rename_i hc
      obtain ⟨m, hm, h⟩ := bind_eq_ok h
      rw [markOf_eq_ok_iff] at hm
      have hs : s.isSkipped dep = (m == .skipped) := by
        rw [isSkipped, hm]
        rfl
      have hp : s.isPending dep = (m == .pending) := by
        rw [isPending, hm]
        rfl
      rw [advance, hs, hp]
      cases m with
      | pending =>
        cases h
        simp [hc]
      | visited => simpa [hc] using ih h
      | skipped =>
        cases h
        simp

theorem tryLeave_eq (h : key ∈ s.marks.keys) : s.tryLeave key stack = .ok (s.leave key stack) := by
  obtain ⟨m, hm⟩ := OrderedMap.mem_keys_iff.1 h
  unfold tryLeave
  rw [markOf_eq_ok_iff.2 hm]
  by_cases hs : s.isSkipped key = true
  · obtain rfl : m = .skipped := Option.some.inj (hm.symm.trans (isSkipped_iff.1 hs))
    rw [leave_of_skipped hs]
    cases stack with
    | nil => rfl
    | cons parent stack =>
      rw [report, if_pos hs]
      rfl
  · have hne : ¬ m = .skipped := fun he => hs (isSkipped_iff.2 (he ▸ hm))
    rw [leave_of_not_skipped hs]
    exact if_neg hne

theorem eq_leave_of_tryLeave {r : Search × List Frame} (h : s.tryLeave key stack = .ok r) :
    r = s.leave key stack := by
  have hkey : key ∈ s.marks.keys := by
    unfold tryLeave at h
    obtain ⟨m, hm, -⟩ := bind_eq_ok h
    exact OrderedMap.mem_keys_of_get? (markOf_eq_ok_iff.1 hm)
  rw [tryLeave_eq hkey] at h
  exact (Except.ok.inj h).symm

theorem eq_step_of_tryStep {r : Search × List Frame} (h : s.tryStep frame stack = .ok r) :
    r = s.step frame stack := by
  obtain ⟨m, hm, h⟩ := bind_eq_ok h
  rw [markOf_eq_ok_iff] at hm
  rw [step]
  split at h
  · rename_i hs
    rw [if_pos (isSkipped_iff.2 (hs ▸ hm))]
    exact eq_leave_of_tryLeave h
  · rename_i hs
    rw [if_neg fun hs' => hs (Option.some.inj (hm.symm.trans (isSkipped_iff.1 hs')))]
    obtain ⟨a, ha, h⟩ := bind_eq_ok h
    rw [← eq_advance_of_tryAdvance ha]
    cases a with
    | descend child rest =>
      obtain ⟨deps, hdeps, h⟩ := bind_eq_ok h
      cases h
      rw [eq_dependencies_of_dependenciesOf hdeps]
    | blocked dep => exact eq_leave_of_tryLeave h
    | done => exact eq_leave_of_tryLeave h

/-! ### A step does not break off -/

/-- The keys of the graph have marks. -/
def Marked (s : Search) : Prop := ∀ k ∈ s.graph.keys, k ∈ s.marks.keys

theorem tryAdvance_eq (h : s.Marked) (deps : List String) :
    s.tryAdvance deps = .ok (s.advance deps) := by
  have hok : ∃ a, s.tryAdvance deps = .ok a := by
    induction deps with
    | nil => exact ⟨_, rfl⟩
    | cons dep rest ih =>
      rw [tryAdvance]
      split
      · exact ⟨_, rfl⟩
      · rename_i hc
        have hg : dep ∈ s.graph.keys := OrderedMap.contains_iff.1 (by simpa using hc)
        obtain ⟨m, hm⟩ := OrderedMap.mem_keys_iff.1 (h dep hg)
        rw [markOf_eq_ok_iff.2 hm]
        cases m with
        | pending => exact ⟨_, rfl⟩
        | visited => exact ih
        | skipped => exact ⟨_, rfl⟩
  obtain ⟨a, ha⟩ := hok
  rw [ha, eq_advance_of_tryAdvance ha]

/-- A dependency that is descended into is a key of the graph. -/
theorem mem_keys_of_advance {child : String} (h : s.advance deps = .descend child rest) :
    child ∈ s.graph.keys := by
  induction deps with
  | nil => cases h
  | cons dep deps ih =>
    rw [advance] at h
    split at h
    · cases h
    · rename_i hmet
      split at h
      · cases h
        exact not_not.1 (not_or.1 (mt unmet_iff.2 hmet)).1
      · exact ih h

theorem tryStep_eq (h : s.Marked) (hkey : frame.key ∈ s.marks.keys) :
    s.tryStep frame stack = .ok (s.step frame stack) := by
  have hok : ∃ r, s.tryStep frame stack = .ok r := by
    obtain ⟨m, hm⟩ := OrderedMap.mem_keys_iff.1 hkey
    rw [tryStep, markOf_eq_ok_iff.2 hm, tryAdvance_eq h]
    by_cases hs : m = .skipped
    · exact ⟨_, (if_pos hs).trans (tryLeave_eq hkey)⟩
    · cases ha : s.advance frame.rest with
      | descend child rest =>
        refine ⟨(s.mark child .visited,
          ⟨child, s.dependencies child⟩ :: ⟨frame.key, rest⟩ :: stack), (if_neg hs).trans ?_⟩
        change (s.dependenciesOf child >>= fun deps =>
          pure (s.mark child .visited, ⟨child, deps⟩ :: ⟨frame.key, rest⟩ :: stack)) = _
        rw [dependenciesOf_eq (mem_keys_of_advance ha)]
        rfl
      | blocked dep =>
        exact ⟨_, (if_neg hs).trans (tryLeave_eq (OrderedMap.mem_keys_insert.2 (Or.inl rfl)))⟩
      | done => exact ⟨_, (if_neg hs).trans (tryLeave_eq hkey)⟩
  obtain ⟨r, hr⟩ := hok
  rw [hr, eq_step_of_tryStep hr]

/-! ## The machine -/

/-- The names that the machine looks up are marked: the keys of the graph and those on the stack. -/
structure Guarded (s : Search) (stack : List Frame) : Prop where
  marked : s.Marked
  frames : ∀ f ∈ stack, f.key ∈ s.marks.keys

theorem Guarded.mono (h : Guarded s stack) (hgraph : t.graph = s.graph)
    (hmarks : ∀ k ∈ s.marks.keys, k ∈ t.marks.keys) : Guarded t stack :=
  ⟨fun k hk => hmarks k (h.marked k (hgraph ▸ hk)), fun f hf => hmarks _ (h.frames f hf)⟩

theorem Guarded.skip (h : Guarded s stack) (key dep : String) : Guarded (s.skip key dep) stack :=
  h.mono rfl fun _ hk => OrderedMap.mem_keys_insert.2 (Or.inr hk)

theorem Guarded.leave (h : Guarded s stack) (key : String) :
    Guarded (s.leave key stack).1 (s.leave key stack).2 := by
  by_cases hs : s.isSkipped key = true
  · rw [leave_of_skipped hs]
    cases stack with
    | nil => exact h
    | cons parent stack =>
      rw [report, if_pos hs]
      exact h.skip parent.key key
  · rw [leave_of_not_skipped hs]
    exact h.mono rfl fun _ hk => hk

/-- **A step keeps the names marked.** -/
theorem Guarded.step (h : Guarded s (frame :: stack)) :
    Guarded (s.step frame stack).1 (s.step frame stack).2 := by
  have htail : Guarded s stack := ⟨h.marked, fun f hf => h.frames f (List.mem_cons_of_mem _ hf)⟩
  unfold Search.step
  split
  · exact htail.leave frame.key
  · split
    · rename_i child rest ha
      have hmarks : ∀ k ∈ s.marks.keys, k ∈ (s.mark child .visited).marks.keys :=
        fun k hk => OrderedMap.mem_keys_insert.2 (Or.inr hk)
      refine ⟨(htail.mono (t := s.mark child .visited) rfl hmarks).marked, fun f hf => ?_⟩
      rcases List.mem_cons.1 hf with rfl | hf
      · exact OrderedMap.mem_keys_insert.2 (Or.inl rfl)
      · rcases List.mem_cons.1 hf with rfl | hf
        · exact hmarks _ (h.frames frame List.mem_cons_self)
        · exact hmarks _ (htail.frames f hf)
    · rename_i dep ha
      exact (htail.skip frame.key dep).leave frame.key
    · exact htail.leave frame.key

/-- The search when the stack has been worked off. -/
def tryDrain (s : Search) (stack : List Frame) : Except Miss Search :=
  match stack with
  | [] => .ok s
  | frame :: stack =>
    match _h : s.tryStep frame stack with
    | .error e => .error e
    | .ok r => tryDrain r.1 r.2
  termination_by measure s stack
  decreasing_by
    rw [eq_step_of_tryStep _h]
    exact measure_step_lt s frame stack

/-- **The machine does not break off.** -/
theorem tryDrain_eq (s : Search) (stack : List Frame) (h : Guarded s stack) :
    s.tryDrain stack = .ok (s.drain stack) := by
  match stack, h with
  | [], _ => rw [tryDrain, drain]
  | frame :: stack, h =>
    have hstep : s.tryStep frame stack = .ok (s.step frame stack) :=
      tryStep_eq h.marked (h.frames frame List.mem_cons_self)
    have hrest := tryDrain_eq (s.step frame stack).1 (s.step frame stack).2 h.step
    rw [tryDrain, drain, ← hrest]
    split
    · rename_i e he
      rw [hstep] at he
      cases he
    · rename_i r hr
      rw [hstep] at hr
      cases hr
      rfl
  termination_by measure s stack
  decreasing_by exact measure_step_lt s frame stack

/-! ## Settling -/

/-- The first of some dependencies that is skipped. -/
def tryFindSkipped (s : Search) : List String → Except Miss (Option String)
  | [] => .ok none
  | dep :: rest => do
    if (← s.markOf dep) = .skipped then return some dep
    else s.tryFindSkipped rest

/-- One pass over the listed keys. -/
def trySweep (s : Search) : List String → Except Miss (Search × List String)
  | [] => .ok (s, [])
  | key :: rest => do
    match ← s.tryFindSkipped (← s.dependenciesOf key) with
    | some dep => (s.skip key dep).trySweep rest
    | none =>
      let r ← s.trySweep rest
      return (r.1, key :: r.2)

/-- Passes over the listed keys until one drops none. -/
def trySettle (s : Search) : Except Miss Search :=
  match s.trySweep s.order with
  | .error e => .error e
  | .ok r =>
    if r.2.length < s.order.length then trySettle { r.1 with order := r.2 }
    else .ok { r.1 with order := r.2 }
  termination_by s.order.length

/-- Some keys are keys of the graph, and their dependencies have marks. -/
def Sweepable (s : Search) (keys : List String) : Prop :=
  ∀ k ∈ keys, k ∈ s.graph.keys ∧ ∀ d, s.graph.Edge k d → d ∈ s.marks.keys

theorem tryFindSkipped_eq (deps : List String) (h : ∀ d ∈ deps, d ∈ s.marks.keys) :
    s.tryFindSkipped deps = .ok (deps.find? s.isSkipped) := by
  induction deps with
  | nil => rfl
  | cons dep deps ih =>
    obtain ⟨m, hm⟩ := OrderedMap.mem_keys_iff.1 (h dep List.mem_cons_self)
    rw [tryFindSkipped, markOf_eq_ok_iff.2 hm]
    by_cases hs : s.isSkipped dep = true
    · obtain rfl : m = .skipped := Option.some.inj (hm.symm.trans (isSkipped_iff.1 hs))
      rw [List.find?_cons_of_pos hs]
      rfl
    · have hne : ¬ m = .skipped := fun he => hs (isSkipped_iff.2 (he ▸ hm))
      rw [List.find?_cons_of_neg hs, ← ih fun d hd => h d (List.mem_cons_of_mem _ hd)]
      exact if_neg hne

theorem Sweepable.skip (h : s.Sweepable keys) (key dep : String) :
    (s.skip key dep).Sweepable keys := fun k hk =>
  ⟨(h k hk).1, fun d hd => OrderedMap.mem_keys_insert.2 (Or.inr ((h k hk).2 d hd))⟩

theorem trySweep_eq (s : Search) (keys : List String) (h : s.Sweepable keys) :
    s.trySweep keys = .ok (s.sweep keys) := by
  induction keys generalizing s with
  | nil => rfl
  | cons key keys ih =>
    have hrest : s.Sweepable keys := fun k hk => h k (List.mem_cons_of_mem _ hk)
    obtain ⟨hg, hd⟩ := h key List.mem_cons_self
    rw [trySweep, dependenciesOf_eq hg, sweep]
    change (s.tryFindSkipped (s.dependencies key) >>= _) = _
    rw [tryFindSkipped_eq _ fun d hd' => hd d (mem_dependencies.1 hd')]
    cases (s.dependencies key).find? s.isSkipped with
    | some dep => exact ih (s.skip key dep) (hrest.skip key dep)
    | none =>
      change (s.trySweep keys >>= _) = _
      rw [ih s hrest]
      rfl

theorem Drop.sweepable (h : Drop s t) (hs : s.Sweepable s.order) : t.Sweepable t.order := by
  cases h with
  | @intro key dep before after horder hdep =>
    refine Sweepable.skip (fun k hk => hs k ?_) key dep
    rw [horder, List.mem_append, List.mem_cons]
    exact (List.mem_append.1 hk).imp_right Or.inr

theorem Drops.sweepable (h : Drops s t) (hs : s.Sweepable s.order) : t.Sweepable t.order := by
  induction h with
  | refl => exact hs
  | tail _ hd ih => exact hd.sweepable ih

/-- **Settling does not break off**, where the listed keys are sweepable. -/
theorem trySettle_eq (s : Search) (h : s.Sweepable s.order) : s.trySettle = .ok s.settle := by
  have hpass : Drops s { (s.sweep s.order).1 with order := (s.sweep s.order).2 } :=
    sweep_drops s [] s.order
  rw [trySettle, trySweep_eq s s.order h, settle]
  split
  · cases ‹Except.ok _ = Except.error _›
  · rename_i r hr
    cases hr
    split
    · exact trySettle_eq _ (hpass.sweepable h)
    · rfl
  termination_by s.order.length

/-! ## Visits and runs -/

/-- Visits a key of the graph. -/
def tryVisit (s : Search) (key : String) : Except Miss Search := do
  let deps ← s.dependenciesOf key
  (s.mark key .visited).tryDrain [⟨key, deps⟩]

/-- Visits a key that is pending. -/
def tryVisitPending (s : Search) (key : String) : Except Miss Search := do
  if (← s.markOf key) = .pending then s.tryVisit key else return s

/-- Visits every pending key, in the order of the graph, and settles. -/
def tryRun (s : Search) : Except Miss Search := do
  (← s.graph.keys.foldlM tryVisitPending s).trySettle

/-- **A visit does not break off**, where the marked names are the keys of the graph. -/
theorem tryVisit_eq (h : Coherent s) (hkey : key ∈ s.graph.keys) :
    s.tryVisit key = .ok (s.walk key (s.dependencies key)) := by
  have hguarded : Guarded (s.mark key .visited) [⟨key, s.dependencies key⟩] := by
    refine ⟨fun k hk => ?_, fun f hf => ?_⟩
    · exact OrderedMap.mem_keys_insert.2 (Or.inr (h.keys_marks ▸ hk))
    · rw [List.mem_singleton.1 hf]
      exact OrderedMap.mem_keys_insert.2 (Or.inl rfl)
  rw [tryVisit, dependenciesOf_eq hkey]
  exact tryDrain_eq _ _ hguarded

theorem tryVisitPending_eq (h : Coherent s) (hkey : key ∈ s.graph.keys) :
    s.tryVisitPending key = .ok (s.explorePending key) := by
  obtain ⟨m, hm⟩ := h.exists_mark hkey
  obtain ⟨deps, hdeps⟩ := OrderedMap.mem_keys_iff.1 hkey
  unfold tryVisitPending explorePending
  rw [markOf_eq_ok_iff.2 hm]
  by_cases hp : s.isPending key = true
  · obtain rfl : m = .pending := Option.some.inj (hm.symm.trans (isPending_iff.1 hp))
    have hvisit := tryVisit_eq h hkey
    rw [dependencies, hdeps, Option.getD_some, walk_eq_explore hdeps] at hvisit
    rw [if_pos hp]
    exact hvisit
  · have hne : ¬ m = .pending := fun he => hp (isPending_iff.2 (he ▸ hm))
    rw [if_neg hp]
    exact if_neg hne

/-- **Visits of keys of the graph do not break off.** -/
theorem foldlM_tryVisitPending_eq (keys : List String) (s : Search) (h : Coherent s)
    (hrest : s.AtRest) (hkeys : ∀ k ∈ keys, k ∈ s.graph.keys) :
    keys.foldlM tryVisitPending s = .ok (keys.foldl explorePending s) := by
  induction keys generalizing s with
  | nil => rfl
  | cons key keys ih =>
    obtain ⟨hmoves, hrest', -⟩ := explorePending_moves h hrest key
    rw [List.foldlM_cons, tryVisitPending_eq h (hkeys key List.mem_cons_self), List.foldl_cons]
    refine ih _ (h.of_moves hmoves) hrest' fun k hk => ?_
    rw [hmoves.graph_eq]
    exact hkeys k (List.mem_cons_of_mem _ hk)

/-- Listed keys are sweepable. -/
theorem Coherent.sweepable (h : Coherent s) : s.Sweepable s.order := fun k hk =>
  ⟨h.mem_keys (h.visited_of_listed k hk), fun d hd =>
    h.keys_marks.symm ▸ (h.entered_of_listed k hk d hd).1⟩

/-- **A run does not break off**, from any coherent search in which no key is open. -/
theorem tryRun_eq (h : Coherent s) (hrest : s.AtRest) : s.tryRun = .ok s.run := by
  obtain ⟨hmoves, -, -⟩ := foldl_explore_moves s.graph.keys s h hrest
  have hentries : ∀ e ∈ s.graph.entries, s.graph.get? e.1 = some e.2 := fun e he =>
    OrderedMap.get?_eq_some_iff.2 he
  rw [tryRun, foldlM_tryVisitPending_eq _ s h hrest fun _ hk => hk, run,
    foldl_walk_eq _ s hentries]
  exact trySettle_eq _ (h.of_moves hmoves).sweepable

end Search

end DesignTokens
