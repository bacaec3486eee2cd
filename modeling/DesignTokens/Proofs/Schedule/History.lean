import DesignTokens.Proofs.Schedule.Outcome

/-!
# Proofs/Schedule/History — a search that is driven by hand

A search need not be run at one go: pending keys may be visited and the listed keys settled **in any
order and as often as one likes**, before and after a run.  Whatever is done, the marks, the list
and the skipped keys agree with each other, and no key goes back; after a run nothing changes any
more.

* `perform_consistent` — what holds after every sequence of actions.
* `Finished.perform_eq` — a run leaves nothing to do.
-/

namespace DesignTokens

open Relation

namespace Search

/-! ## Actions -/

/-- What may be done with a search. -/
inductive Action where
  /-- Visits a key. -/
  | visit (key : String)
  /-- Drops listed keys that depend on skipped ones. -/
  | settle
  /-- Visits every pending key and settles. -/
  | run
  deriving DecidableEq, Repr

/-- The search after an action. -/
def act (s : Search) : Action → Search
  | .visit key =>
    match s.visit key with
    | .ok t => t
    | .error stray => stray.left
  | .settle => s.settle
  | .run => s.run

/-- The search after an action that breaks off at a look-up that misses. -/
def tryAct (s : Search) : Action → Except Miss Search
  | .visit key => s.tryVisit key
  | .settle => s.trySettle
  | .run => s.tryRun

/-- The search after some actions. -/
def perform (s : Search) (actions : List Action) : Search := actions.foldl act s

/-- The search after some actions that break off at a look-up that misses. -/
def tryPerform (s : Search) (actions : List Action) : Except Miss Search :=
  actions.foldlM tryAct s

/-- Whether an action may be taken: a visit has to be for a pending key. -/
def permits (s : Search) : Action → Bool
  | .visit key => s.isPending key
  | .settle | .run => true

/-- Whether each of some actions may be taken when its turn comes. -/
def permitsAll (s : Search) : List Action → Bool
  | [] => true
  | a :: rest => s.permits a && (s.act a).permitsAll rest

variable {s t : Search} {k : String} {a : Action} {actions before after : List Action}

@[simp] theorem perform_nil (s : Search) : s.perform [] = s := rfl

@[simp] theorem perform_cons (s : Search) (a : Action) (actions : List Action) :
    s.perform (a :: actions) = (s.act a).perform actions := rfl

theorem perform_append (s : Search) (before after : List Action) :
    s.perform (before ++ after) = (s.perform before).perform after := List.foldl_append

theorem permitsAll_cons_iff :
    s.permitsAll (a :: actions) = true ↔
      s.permits a = true ∧ (s.act a).permitsAll actions = true := by
  rw [permitsAll, Bool.and_eq_true]

theorem permitsAll_append_iff :
    s.permitsAll (before ++ after) = true ↔
      s.permitsAll before = true ∧ (s.perform before).permitsAll after = true := by
  induction before generalizing s with
  | nil => simp [permitsAll]
  | cons a before ih =>
    rw [List.cons_append, permitsAll_cons_iff, permitsAll_cons_iff, ih, and_assoc, perform_cons]

/-! ## What an action does -/

theorem act_visit (hkey : k ∈ s.graph.keys) : s.act (.visit k) = s.walk k (s.dependencies k) := by
  obtain ⟨deps, hdeps⟩ := OrderedMap.mem_keys_iff.1 hkey
  simp only [act, visit, dependencies, hdeps, Option.getD_some]

/-- **An action does not break off**, is a sequence of moves and leaves no key open, where none
was. -/
theorem act_moves (h : Coherent s) (hrest : s.AtRest) (ha : s.permits a = true) :
    s.tryAct a = .ok (s.act a) ∧ Moves s (s.act a) ∧ (s.act a).AtRest := by
  cases a with
  | visit key =>
    have hp : s.isPending key = true := ha
    have hkey : key ∈ s.graph.keys := h.mem_keys (isPending_iff.1 hp)
    obtain ⟨deps, hdeps⟩ := OrderedMap.mem_keys_iff.1 hkey
    have hwalk : s.walk key (s.dependencies key) = s.explore key := by
      rw [dependencies, hdeps, Option.getD_some, walk_eq_explore hdeps]
    obtain ⟨hmoves, hrest', -⟩ := explore_moves h hrest hp
    rw [act_visit hkey, hwalk]
    exact ⟨(tryVisit_eq h hkey).trans (by rw [hwalk]), hmoves, hrest'⟩
  | settle =>
    obtain ⟨hdrops, -⟩ := settle_drops s
    exact ⟨trySettle_eq s h.sweepable, hdrops.moves, hdrops.atRest hrest⟩
  | run => exact ⟨tryRun_eq h hrest, run_moves h hrest, (finished_run h hrest).atRest⟩

/-- **Actions do not break off**, are a sequence of moves and leave no key open, where none was. -/
theorem perform_moves (h : Coherent s) (hrest : s.AtRest) (ha : s.permitsAll actions = true) :
    s.tryPerform actions = .ok (s.perform actions) ∧ Moves s (s.perform actions) ∧
      (s.perform actions).AtRest := by
  induction actions generalizing s with
  | nil => exact ⟨rfl, ReflTransGen.refl, hrest⟩
  | cons a actions ih =>
    obtain ⟨hfirst, hothers⟩ := permitsAll_cons_iff.1 ha
    obtain ⟨htry, hmoves, hrest'⟩ := act_moves h hrest hfirst
    obtain ⟨htry', hmoves', hrest''⟩ := ih (h.of_moves hmoves) hrest' hothers
    refine ⟨?_, hmoves.trans hmoves', hrest''⟩
    rw [tryPerform, List.foldlM_cons, htry]
    exact htry'

/-! ## After a run -/

/-- Visits of keys none of which is pending change nothing. -/
theorem foldl_explorePending_of_not_pending {keys : List String}
    (h : ∀ k ∈ keys, s.marks.get? k ≠ some .pending) : keys.foldl explorePending s = s := by
  induction keys with
  | nil => rfl
  | cons key keys ih =>
    have hkey : s.explorePending key = s := by
      rw [explorePending, if_neg (mt isPending_iff.1 (h key List.mem_cons_self))]
    rw [List.foldl_cons, hkey]
    exact ih fun k hk => h k (List.mem_cons_of_mem _ hk)

namespace Finished

theorem run_eq (h : Finished s) : s.run = s := by
  rw [run_eq_settle, foldl_explorePending_of_not_pending fun k _ => h.not_pending k,
    h.settled.settle_eq]

/-- **A run leaves nothing to do**: what may be done after it changes nothing. -/
theorem act_eq (h : Finished s) (ha : s.permits a = true) : s.act a = s := by
  cases a with
  | visit key => exact absurd (isPending_iff.1 ha) (h.not_pending key)
  | settle => exact h.settled.settle_eq
  | run => exact h.run_eq

theorem perform_eq (h : Finished s) (ha : s.permitsAll actions = true) : s.perform actions = s := by
  induction actions with
  | nil => rfl
  | cons a actions ih =>
    obtain ⟨hfirst, hothers⟩ := permitsAll_cons_iff.1 ha
    rw [h.act_eq hfirst] at hothers
    rw [perform_cons, h.act_eq hfirst]
    exact ih hothers

end Finished

/-- Actions with a run among them end with a finished search. -/
theorem finished_perform (h : Coherent s) (hrest : s.AtRest) (ha : s.permitsAll actions = true)
    (hrun : .run ∈ actions) : Finished (s.perform actions) := by
  obtain ⟨before, after, rfl⟩ := List.append_of_mem hrun
  obtain ⟨hbefore, hafter⟩ := permitsAll_append_iff.1 ha
  obtain ⟨-, hmoves, hrest'⟩ := perform_moves h hrest hbefore
  have hfinished : Finished ((s.perform before).act .run) :=
    finished_run (h.of_moves hmoves) hrest'
  rw [perform_append, perform_cons, hfinished.perform_eq (permitsAll_cons_iff.1 hafter).2]
  exact hfinished

/-! ## From a fresh search -/

/-- **What holds after every sequence of actions** on a fresh search.  No look-up misses; the marked
names are the keys of the graph; the listed keys are the visited ones, each listed once, and the
skipped keys those that are marked as skipped.  From any earlier moment on, a visited key does not
become pending and a skipped one stays so.  Once there was a run, the listed keys are those of the
schedule, and neither settling nor a further run changes anything. -/
theorem perform_consistent (g : Graph) (before after : List Action)
    (h : (start g).permitsAll (before ++ after) = true) :
    ∃ s t, (start g).tryPerform before = .ok s ∧ s.tryPerform after = .ok t ∧
      s = (start g).perform before ∧ t = (start g).perform (before ++ after) ∧
      t.marks.keys = g.keys ∧
      t.order.Nodup ∧ (∀ k, k ∈ t.order ↔ t.marks.get? k = some .visited) ∧
      (∀ k, k ∈ t.skipped.keys ↔ t.marks.get? k = some .skipped) ∧
      (∀ k, s.marks.get? k = some .visited → t.marks.get? k ≠ some .pending) ∧
      (∀ k, s.marks.get? k = some .skipped → t.marks.get? k = some .skipped) ∧
      (.run ∈ before ++ after →
        (∀ k, k ∈ t.order ↔ k ∈ g.schedule.order) ∧
          t.tryAct .settle = .ok t ∧ t.tryAct .run = .ok t) := by
  obtain ⟨hbefore, hafter⟩ := permitsAll_append_iff.1 h
  obtain ⟨htry, hmoves, hrest⟩ := perform_moves (.start g) (atRest_start g) hbefore
  have hcoherent := (Coherent.start g).of_moves hmoves
  obtain ⟨htry', hmoves', hrest'⟩ := perform_moves hcoherent hrest hafter
  have hcoherent' := hcoherent.of_moves hmoves'
  have hgraph : ((start g).perform (before ++ after)).graph = g := by
    rw [perform_append, hmoves'.graph_eq, hmoves.graph_eq]
    rfl
  rw [← perform_append] at htry' hmoves' hrest' hcoherent'
  refine ⟨_, _, htry, htry', rfl, rfl, ?_, hcoherent'.nodup_order, fun k => ⟨?_, ?_⟩,
    hcoherent'.mem_keys_skipped, fun k hk hp => ?_, fun k => hmoves'.skipped_of_skipped,
    fun hrun => ?_⟩
  · rw [hcoherent'.keys_marks, hgraph]
  · exact hcoherent'.visited_of_listed k
  · -- a visited key that is not listed would be open
    intro hv
    by_contra hn
    exact hrest' k ⟨hv, hn⟩
  · rw [hmoves'.pending_of_pending hp] at hk
    cases hk
  · have hfinished := finished_perform (.start g) (atRest_start g) h hrun
    obtain ⟨hschedule, hgraph'⟩ := finished_schedule g
    obtain ⟨hsettle, -, -⟩ := act_moves (a := .settle) hfinished.coherent hfinished.atRest rfl
    obtain ⟨hagain, -, -⟩ := act_moves (a := .run) hfinished.coherent hfinished.atRest rfl
    rw [hfinished.act_eq rfl] at hsettle hagain
    refine ⟨fun k => ?_, hsettle, hagain⟩
    have hlisted := hschedule.mem_order_iff (k := k)
    rw [hgraph'] at hlisted
    rw [hfinished.mem_order_iff, hgraph]
    exact hlisted.symm

/-- Two keys that depend on each other, one of them on a name that is no key as well, and a third
one behind them. -/
def tangle : Graph := .ofList [("a", ["b"]), ("b", ["a", "x"]), ("c", ["a"])]

/-- A visit of `b` lists `a` before `b` is skipped; settling drops it again, so that the visit of
`c` takes another branch than it would have taken before. -/
theorem perform_consistent_tangle :
    (start tangle).permitsAll ([.visit "b"] ++ [.settle, .visit "c", .run, .settle]) = true ∧
    ∃ s t, (start tangle).tryPerform [.visit "b"] = .ok s ∧
      s.tryPerform [.settle, .visit "c", .run, .settle] = .ok t ∧
      s.order = ["a"] ∧ t.order = [] ∧ t.skipped.keys = ["b", "a", "c"] ∧
      t.marks.keys = ["a", "b", "c"] ∧ (∀ k, k ∈ t.skipped.keys ↔ t.marks.get? k = some .skipped) ∧
      (∀ k, k ∈ t.order ↔ k ∈ tangle.schedule.order) ∧
      t.tryAct .settle = .ok t ∧ t.tryAct .run = .ok t := by
  have h : (start tangle).permitsAll
      ([.visit "b"] ++ [.settle, .visit "c", .run, .settle]) = true := by decide +kernel
  have hbefore : ((start tangle).perform [.visit "b"]).order = ["a"] := by decide +kernel
  have hafter : ((start tangle).perform
      ([.visit "b"] ++ [.settle, .visit "c", .run, .settle])).order = [] := by decide +kernel
  have hskipped : ((start tangle).perform
      ([.visit "b"] ++ [.settle, .visit "c", .run, .settle])).skipped.keys = ["b", "a", "c"] := by
    decide +kernel
  obtain ⟨s, t, hs, ht, rfl, rfl, hkeys, -, -, hmarks, -, -, hrun⟩ :=
    perform_consistent tangle [.visit "b"] [.settle, .visit "c", .run, .settle] h
  obtain ⟨hschedule, hsettle, hagain⟩ := hrun (by simp)
  exact ⟨h, _, _, hs, ht, hbefore, hafter, hskipped, hkeys, hmarks, hschedule, hsettle, hagain⟩

end Search

end DesignTokens
