import DesignTokens.Schedule.Search

/-!
# Proofs/Schedule/Recursion — the walk without a stack

The walk of `Schedule/Search` is a machine with a stack of frames.  Here it is written as a
recursion on the dependencies of a key, and the two are shown to be **the same function**.

* `drain_cons` — a frame on top of the stack is one call of the recursion; the frames below it are
  the calls that wait for its answer.
* `run_eq_exploreAll` — a run of the machine is a run of the recursion.
-/

namespace DesignTokens

namespace Search

variable {s t : Search} {key dep : String} {deps rest : List String} {stack : List Frame}

/-! ## The recursion -/

/-- A dependency that cannot be met: it is no key of the graph, or it is skipped. -/
def Unmet (s : Search) (dep : String) : Prop := dep ∉ s.graph.keys ∨ s.isSkipped dep = true

theorem unmet_iff : (!s.graph.contains dep || s.isSkipped dep) = true ↔ s.Unmet dep := by
  rw [Bool.or_eq_true, Bool.not_eq_true', ← Bool.not_eq_true, OrderedMap.contains_iff, Unmet]

/-- Lists a key. -/
def list (s : Search) (key : String) : Search := { s with order := s.order ++ [key] }

/-- The recursion, with the bound on pending keys that brings it to an end. -/
def scanBounded (s : Search) (key : String) (deps : List String) :
    { t : Search // t.pendingCount ≤ s.pendingCount } :=
  match deps with
  | [] => ⟨s.list key, Nat.le_refl _⟩
  | dep :: rest =>
    if !s.graph.contains dep || s.isSkipped dep then
      ⟨s.skip key dep, pendingCount_skip_le s key dep⟩
    else if hp : s.isPending dep = true then
      have hlt : (s.mark dep .visited).pendingCount + 1 = s.pendingCount := pendingCount_mark hp
      match scanBounded (s.mark dep .visited) dep (s.dependencies dep) with
      | ⟨t, ht⟩ =>
        if t.isSkipped dep then
          ⟨t.skip key dep, Nat.le_trans (pendingCount_skip_le t key dep) (by omega)⟩
        else
          match scanBounded t key rest with
          | ⟨u, hu⟩ => ⟨u, Nat.le_trans hu (by omega)⟩
    else scanBounded s key rest
  termination_by (s.pendingCount, deps.length)
  decreasing_by
    · exact Prod.Lex.left _ _ (by omega)
    · exact Prod.Lex.left _ _ (by omega)
    · exact Prod.Lex.right _ (Nat.lt_succ_self _)

/-- Looks at the dependencies of a key one after the other.  One that cannot be met has the key
skipped.  A pending one is explored first, and has the key skipped when it ends up skipped itself.
Any other is passed over.  A key that gets through is listed. -/
def scan (s : Search) (key : String) (deps : List String) : Search := (s.scanBounded key deps).1

/-- Visits a key by recursion: marks it as visited **before** it looks at its dependencies. -/
def explore (s : Search) (key : String) : Search :=
  (s.mark key .visited).scan key (s.dependencies key)

/-- Explores a key if it is pending. -/
def explorePending (s : Search) (key : String) : Search :=
  if s.isPending key then s.explore key else s

/-- Explores every pending key, in the order of the graph, and settles. -/
def exploreAll (s : Search) : Search := (s.graph.keys.foldl explorePending s).settle

theorem scan_nil (s : Search) (key : String) : s.scan key [] = s.list key := by
  rw [scan, scanBounded]

theorem scan_unmet (h : s.Unmet dep) : s.scan key (dep :: rest) = s.skip key dep := by
  rw [scan, scanBounded, if_pos (unmet_iff.2 h)]

theorem scan_passed (h : ¬ s.Unmet dep) (hp : ¬ s.isPending dep = true) :
    s.scan key (dep :: rest) = s.scan key rest := by
  rw [scan, scanBounded, if_neg (mt unmet_iff.1 h), dif_neg hp, scan]

theorem scan_pending (h : ¬ s.Unmet dep) (hp : s.isPending dep = true) :
    s.scan key (dep :: rest) =
      if (s.explore dep).isSkipped dep then (s.explore dep).skip key dep
      else (s.explore dep).scan key rest := by
  rw [scan, scanBounded, if_neg (mt unmet_iff.1 h), dif_pos hp]
  change Subtype.val (if (s.explore dep).isSkipped dep = true then _ else _) = _
  split <;> rfl

/-- **Induction along the recursion**: one case for each way a dependency turns out, with the call
for the dependency and the call for the remaining ones as hypotheses. -/
theorem scan_induction {motive : Search → String → List String → Search → Prop}
    (listed : ∀ s key, motive s key [] (s.list key))
    (unmet : ∀ s key dep rest, s.Unmet dep → motive s key (dep :: rest) (s.skip key dep))
    (passed : ∀ s key dep rest, ¬ s.Unmet dep → ¬ s.isPending dep = true →
      motive s key rest (s.scan key rest) → motive s key (dep :: rest) (s.scan key rest))
    (failed : ∀ s key dep rest, ¬ s.Unmet dep → s.isPending dep = true →
      (s.explore dep).isSkipped dep = true →
      motive (s.mark dep .visited) dep (s.dependencies dep) (s.explore dep) →
      motive s key (dep :: rest) ((s.explore dep).skip key dep))
    (explored : ∀ s key dep rest, ¬ s.Unmet dep → s.isPending dep = true →
      ¬ (s.explore dep).isSkipped dep = true →
      motive (s.mark dep .visited) dep (s.dependencies dep) (s.explore dep) →
      motive (s.explore dep) key rest ((s.explore dep).scan key rest) →
      motive s key (dep :: rest) ((s.explore dep).scan key rest))
    (s : Search) (key : String) (deps : List String) : motive s key deps (s.scan key deps) := by
  match deps with
  | [] =>
    rw [scan_nil]
    exact listed s key
  | dep :: rest =>
    by_cases h : s.Unmet dep
    · rw [scan_unmet h]
      exact unmet s key dep rest h
    · by_cases hp : s.isPending dep = true
      · have hlt := pendingCount_mark hp
        have hle := (scanBounded (s.mark dep .visited) dep (s.dependencies dep)).2
        have hdep := scan_induction listed unmet passed failed explored
          (s.mark dep .visited) dep (s.dependencies dep)
        rw [scan_pending h hp]
        split
        · rename_i hs
          exact failed s key dep rest h hp hs hdep
        · rename_i hs
          have hrest := scan_induction listed unmet passed failed explored
            (s.explore dep) key rest
          exact explored s key dep rest h hp hs hdep hrest
      · rw [scan_passed h hp]
        exact passed s key dep rest h hp
          (scan_induction listed unmet passed failed explored s key rest)
  termination_by (s.pendingCount, deps.length)
  decreasing_by
    · exact Prod.Lex.left _ _ (by omega)
    · exact Prod.Lex.left _ _ (by change (scanBounded _ _ _).1.pendingCount < _; omega)
    · exact Prod.Lex.right _ (Nat.lt_succ_self _)

/-! ## What a call leaves alone -/

@[simp] theorem graph_scan (s : Search) (key : String) (deps : List String) :
    (s.scan key deps).graph = s.graph := by
  induction s, key, deps using scan_induction with
  | listed s key => rfl
  | unmet s key dep rest h => rfl
  | passed s key dep rest h hp ih => exact ih
  | failed s key dep rest h hp hs hdep => exact hdep
  | explored s key dep rest h hp hs hdep hrest => exact hrest.trans hdep

@[simp] theorem graph_explore (s : Search) (key : String) : (s.explore key).graph = s.graph :=
  graph_scan _ _ _

@[simp] theorem graph_explorePending (s : Search) (key : String) :
    (s.explorePending key).graph = s.graph := by
  unfold explorePending
  split
  · exact graph_explore s key
  · rfl

/-- **A call changes the marks of its own key and of pending keys only.** -/
theorem get?_marks_scan {k : String} (s : Search) (key : String) (deps : List String)
    (hk : k ≠ key) (hp : s.marks.get? k ≠ some .pending) :
    (s.scan key deps).marks.get? k = s.marks.get? k := by
  induction s, key, deps using scan_induction with
  | listed s key => rfl
  | unmet s key dep rest h => rw [get?_marks_skip, if_neg hk]
  | passed s key dep rest h hd ih => exact ih hk hp
  | failed s key dep rest h hd hs hdep =>
    have hne : k ≠ dep := fun he => hp (he ▸ isPending_iff.1 hd)
    rw [get?_marks_skip, if_neg hk, hdep hne (by rwa [get?_marks_mark, if_neg hne]),
      get?_marks_mark, if_neg hne]
  | explored s key dep rest h hd hs hdep hrest =>
    have hne : k ≠ dep := fun he => hp (he ▸ isPending_iff.1 hd)
    have hsame : (s.explore dep).marks.get? k = s.marks.get? k := by
      rw [hdep hne (by rwa [get?_marks_mark, if_neg hne]), get?_marks_mark, if_neg hne]
    rw [hrest hk (by rwa [hsame]), hsame]

theorem get?_marks_explore {k : String} (s : Search) (key : String) (hk : k ≠ key)
    (hp : s.marks.get? k ≠ some .pending) :
    (s.explore key).marks.get? k = s.marks.get? k := by
  have hm : (s.mark key .visited).marks.get? k = s.marks.get? k := by
    rw [get?_marks_mark, if_neg hk]
  rw [explore, get?_marks_scan _ _ _ hk (by rwa [hm]), hm]

/-! ## Frames are calls that wait -/

/-- Gives the outcome for a key to the frame below it. -/
def report (s : Search) (key : String) : List Frame → Search
  | [] => s
  | parent :: _ => if s.isSkipped key then s.skip parent.key key else s

theorem report_of_not_skipped (h : ¬ s.isSkipped key = true) : s.report key stack = s := by
  cases stack with
  | nil => rfl
  | cons parent stack => rw [report, if_neg h]

theorem leave_of_skipped (h : s.isSkipped key = true) :
    s.leave key stack = (s.report key stack, stack) := by
  cases stack with
  | nil => simp [leave, report, h]
  | cons parent stack => simp [leave, report, h]

theorem leave_of_not_skipped (h : ¬ s.isSkipped key = true) :
    s.leave key stack = (s.list key, stack) := by
  unfold leave
  rw [if_neg h, list]

theorem advance_unmet (h : s.Unmet dep) : s.advance (dep :: rest) = .blocked dep := by
  rw [advance, if_pos (unmet_iff.2 h)]

theorem advance_pending (h : ¬ s.Unmet dep) (hp : s.isPending dep = true) :
    s.advance (dep :: rest) = .descend dep rest := by
  rw [advance, if_neg (mt unmet_iff.1 h), if_pos hp]

theorem advance_passed (h : ¬ s.Unmet dep) (hp : ¬ s.isPending dep = true) :
    s.advance (dep :: rest) = s.advance rest := by
  rw [advance, if_neg (mt unmet_iff.1 h), if_neg hp]

theorem drain_nil (s : Search) : s.drain [] = s := by
  rw [drain]

theorem drain_of_skipped (h : s.isSkipped key = true) :
    s.drain (⟨key, rest⟩ :: stack) = (s.report key stack).drain stack := by
  rw [drain, step, if_pos h, leave_of_skipped h]

theorem not_skipped_of_visited (h : s.marks.get? key = some .visited) :
    ¬ s.isSkipped key = true := by
  rw [isSkipped_iff, h]
  simp

theorem isSkipped_skip (s : Search) (key dep : String) : (s.skip key dep).isSkipped key = true := by
  rw [isSkipped_iff, get?_marks_skip, if_pos rfl]

/-- The marks of a key that was just visited survive the exploration of a pending one. -/
theorem visited_explore (h : s.marks.get? key = some .visited) (hd : s.isPending dep = true) :
    (s.explore dep).marks.get? key = some .visited := by
  have hne : key ≠ dep := fun he => by
    rw [isPending_iff, ← he, h] at hd
    cases hd
  rw [get?_marks_explore s dep hne (by rw [h]; simp), h]

/-- **A frame on top of the stack is one call of the recursion.**  The induction is along the
recursion, for every stack below: the frames of a dependency come and go while the rest waits. -/
theorem drain_cons (h : s.marks.get? key = some .visited) :
    s.drain (⟨key, deps⟩ :: stack) = ((s.scan key deps).report key stack).drain stack := by
  induction s, key, deps using scan_induction generalizing stack with
  | listed s key =>
    have hn := not_skipped_of_visited h
    rw [drain, step, if_neg hn]
    simp only [advance, leave_of_not_skipped hn]
    rw [report_of_not_skipped (s := s.list key) hn]
  | unmet s key dep rest hu =>
    rw [drain, step, if_neg (not_skipped_of_visited h)]
    simp only [advance_unmet hu]
    rw [leave_of_skipped (isSkipped_skip s key dep)]
  | passed s key dep rest hu hp ih =>
    have hstep : s.step ⟨key, dep :: rest⟩ stack = s.step ⟨key, rest⟩ stack := by
      simp only [step, advance_passed hu hp]
    rw [← ih h, drain, drain, hstep]
  | failed s key dep rest hu hp hs hdep =>
    rw [drain, step, if_neg (not_skipped_of_visited h)]
    simp only [advance_pending hu hp]
    rw [hdep (by rw [get?_marks_mark, if_pos rfl]), report, if_pos hs,
      drain_of_skipped (isSkipped_skip _ key dep)]
  | explored s key dep rest hu hp hs hdep hrest =>
    rw [drain, step, if_neg (not_skipped_of_visited h)]
    simp only [advance_pending hu hp]
    rw [hdep (by rw [get?_marks_mark, if_pos rfl]), report_of_not_skipped hs,
      hrest (visited_explore h hp)]

/-- **Walking a key with the machine is exploring it.** -/
theorem walk_eq_explore (h : s.graph.get? key = some deps) : s.walk key deps = s.explore key := by
  rw [walk, drain_cons (by rw [get?_marks_mark, if_pos rfl]), report, drain_nil, explore,
    dependencies, h, Option.getD_some]

/-! ## Runs -/

/-- The walks over some entries of the graph are the explorations of their keys. -/
theorem foldl_walk_eq (es : List (String × List String)) (s : Search)
    (h : ∀ e ∈ es, s.graph.get? e.1 = some e.2) :
    es.foldl (fun s e => if s.isPending e.1 then s.walk e.1 e.2 else s) s
      = (es.map Prod.fst).foldl explorePending s := by
  induction es generalizing s with
  | nil => rfl
  | cons e es ih =>
    rw [List.map_cons, List.foldl_cons, List.foldl_cons, walk_eq_explore (h e List.mem_cons_self)]
    refine ih (s.explorePending e.1) fun e' he' => ?_
    rw [graph_explorePending]
    exact h e' (List.mem_cons_of_mem e he')

/-- Visits every pending key, in the order of the graph: a run up to its settling. -/
def visitAll (s : Search) : Search :=
  s.graph.entries.foldl (fun s e => if s.isPending e.1 then s.walk e.1 e.2 else s) s

theorem visitAll_eq (s : Search) : s.visitAll = s.graph.keys.foldl explorePending s := by
  rw [visitAll, foldl_walk_eq, OrderedMap.keys]
  exact fun e he => OrderedMap.get?_eq_some_iff.2 he

/-- **A run of the machine is a run of the recursion**, from the search of a graph that has not
begun and from any other: it ends with the same marks, the same listed keys, and the same skipped
keys with the same reasons, all in the same order. -/
theorem run_eq_exploreAll (s : Search) : s.run = s.exploreAll := by
  rw [run, exploreAll, foldl_walk_eq, OrderedMap.keys]
  exact fun e he => OrderedMap.get?_eq_some_iff.2 he

end Search

end DesignTokens
