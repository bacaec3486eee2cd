import DesignTokens.Token

/-!
# Schedule/Search — the depth-first walk over a dependency graph

A walk lists keys after the keys they depend on.  A key is marked as visited **before** its
dependencies are walked, so a cycle closes on a key that is already visited and its members are all
listed; a key is skipped when one of its dependencies is not in the graph or is skipped itself, and
the walk keeps that dependency as the reason.

The walk is a machine: a state is a search and a stack of frames, a frame a key with the
dependencies that are still to be looked at.

* `measure_step_lt` — every step uses up a pending key or a frame, so the machine comes to rest.
* `Search.settle` — drops listed keys that depend on skipped ones, until there is none.
-/

namespace DesignTokens

/-- What a walk has found about a key. -/
inductive Mark where
  | pending
  | visited
  | skipped
  deriving DecidableEq, Repr

/-- The name of a mark. -/
def Mark.name : Mark → String
  | .pending => "pending"
  | .visited => "visited"
  | .skipped => "skipped"

/-- A walk over a graph, as far as it has come. -/
structure Search where
  graph : Graph
  marks : OrderedMap String Mark
  /-- The keys listed so far. -/
  order : List String
  /-- The skipped keys, each with the dependency that it was skipped for. -/
  skipped : OrderedMap String String

namespace Search

/-- The walk that has not begun. -/
def start (g : Graph) : Search :=
  { graph := g, marks := g.mapValues fun _ => .pending, order := [], skipped := .empty }

/-- Whether a key is marked as pending. -/
def isPending (s : Search) (key : String) : Bool := s.marks.get? key == some .pending

/-- Whether a key is marked as skipped. -/
def isSkipped (s : Search) (key : String) : Bool := s.marks.get? key == some .skipped

/-- Marks a key. -/
def mark (s : Search) (key : String) (m : Mark) : Search :=
  { s with marks := s.marks.insert key m }

/-- Skips a key for the sake of a dependency. -/
def skip (s : Search) (key dep : String) : Search :=
  { s with marks := s.marks.insert key .skipped, skipped := s.skipped.insert key dep }

/-- The dependencies of a key. -/
def dependencies (s : Search) (key : String) : List String := (s.graph.get? key).getD []

theorem isPending_iff {s : Search} {key : String} :
    s.isPending key = true ↔ s.marks.get? key = some .pending := beq_iff_eq

theorem isSkipped_iff {s : Search} {key : String} :
    s.isSkipped key = true ↔ s.marks.get? key = some .skipped := beq_iff_eq

@[simp] theorem get?_marks_mark (s : Search) (key k : String) (m : Mark) :
    (s.mark key m).marks.get? k = if k = key then some m else s.marks.get? k :=
  OrderedMap.get?_insert s.marks key k m

@[simp] theorem get?_marks_skip (s : Search) (key dep k : String) :
    (s.skip key dep).marks.get? k = if k = key then some .skipped else s.marks.get? k :=
  OrderedMap.get?_insert s.marks key k .skipped

/-! ## One step of the walk -/

/-- A key on the stack with the dependencies that are still to be looked at. -/
structure Frame where
  key : String
  rest : List String
  deriving DecidableEq, Repr

/-- What the next dependencies of a key lead to. -/
inductive Advance where
  /-- A dependency that has to be walked first. -/
  | descend (child : String) (rest : List String)
  /-- A dependency that cannot be met. -/
  | blocked (dep : String)
  | done

/-- Looks at dependencies up to the first that stops the key or has to be walked. -/
def advance (s : Search) : List String → Advance
  | [] => .done
  | dep :: rest =>
    if !s.graph.contains dep || s.isSkipped dep then .blocked dep
    else if s.isPending dep then .descend dep rest
    else s.advance rest

/-- Takes a key off the stack: a skipped key has the key below it skipped, any other is listed. -/
def leave (s : Search) (key : String) (stack : List Frame) : Search × List Frame :=
  if s.isSkipped key then
    match stack with
    | [] => (s, [])
    | parent :: _ => (s.skip parent.key key, stack)
  else ({ s with order := s.order ++ [key] }, stack)

/-- One step with `frame` on top of the stack. -/
def step (s : Search) (frame : Frame) (stack : List Frame) : Search × List Frame :=
  if s.isSkipped frame.key then s.leave frame.key stack
  else
    match s.advance frame.rest with
    | .descend child rest =>
      (s.mark child .visited, ⟨child, s.dependencies child⟩ :: ⟨frame.key, rest⟩ :: stack)
    | .blocked dep => (s.skip frame.key dep).leave frame.key stack
    | .done => s.leave frame.key stack

/-! ## Coming to rest -/

/-- How many keys are pending. -/
def pendingCount (s : Search) : Nat := s.marks.values.count .pending

theorem count_put (k : String) (m : Mark) (hm : m ≠ .pending) (es : List (String × Mark)) :
    ((Entries.put k m es).map Prod.snd).count .pending
        + (if Entries.get? k es = some .pending then 1 else 0)
      = (es.map Prod.snd).count .pending := by
  induction es with
  | nil => simp [Entries.put, Entries.get?, hm]
  | cons e rest ih =>
    by_cases hk : e.1 = k
    · by_cases hp : e.2 = Mark.pending <;> simp [Entries.put, Entries.get?, hk, hp, hm]
    · simp only [Entries.put, Entries.get?, hk, if_false, List.map_cons, List.count_cons]
      omega

theorem pendingCount_mark {s : Search} {key : String} (h : s.isPending key = true) :
    (s.mark key .visited).pendingCount + 1 = s.pendingCount := by
  have := count_put key .visited (by decide) s.marks.entries
  have hp : Entries.get? key s.marks.entries = some .pending := eq_of_beq h
  simpa [hp, pendingCount, mark, OrderedMap.values, OrderedMap.insert] using this

theorem pendingCount_skip_le (s : Search) (key dep : String) :
    (s.skip key dep).pendingCount ≤ s.pendingCount := by
  have := count_put key .skipped (by decide) s.marks.entries
  simp only [pendingCount, skip, OrderedMap.values, OrderedMap.insert]
  omega

/-- What a walk uses up: every pending key may still come onto the stack and leave it. -/
def measure (s : Search) (stack : List Frame) : Nat := 2 * s.pendingCount + stack.length

theorem isPending_of_advance {s : Search} {deps rest : List String} {child : String}
    (h : s.advance deps = .descend child rest) : s.isPending child = true := by
  induction deps with
  | nil => cases h
  | cons dep deps ih =>
    rw [advance] at h
    split at h
    · cases h
    · split at h
      · rename_i hp
        cases h
        exact hp
      · exact ih h

theorem measure_leave_le (s : Search) (key : String) (stack : List Frame) :
    measure (s.leave key stack).1 (s.leave key stack).2 ≤ measure s stack := by
  unfold leave
  split
  · cases stack with
    | nil => exact Nat.le_refl _
    | cons parent rest =>
      have := pendingCount_skip_le s parent.key key
      simp only [measure]
      omega
  · exact Nat.le_refl _

/-- **A step uses up a pending key or a frame.** -/
theorem measure_step_lt (s : Search) (frame : Frame) (stack : List Frame) :
    measure (s.step frame stack).1 (s.step frame stack).2 < measure s (frame :: stack) := by
  have hpop : measure s stack < measure s (frame :: stack) := by simp [measure]
  unfold step
  split
  · exact Nat.lt_of_le_of_lt (measure_leave_le _ _ _) hpop
  · split
    · rename_i child rest h
      have := pendingCount_mark (isPending_of_advance h)
      simp only [measure, List.length_cons]
      omega
    · rename_i dep _
      refine Nat.lt_of_le_of_lt (measure_leave_le _ _ _) (Nat.lt_of_le_of_lt ?_ hpop)
      have := pendingCount_skip_le s frame.key dep
      simp only [measure]
      omega
    · exact Nat.lt_of_le_of_lt (measure_leave_le _ _ _) hpop

/-- The search when the stack has been worked off. -/
def drain (s : Search) (stack : List Frame) : Search :=
  match stack with
  | [] => s
  | frame :: stack => drain (s.step frame stack).1 (s.step frame stack).2
  termination_by measure s stack
  decreasing_by exact measure_step_lt s frame stack

/-! ## Visits -/

/-- Walks a key with its dependencies, whatever its mark. -/
def walk (s : Search) (key : String) (deps : List String) : Search :=
  (s.mark key .visited).drain [⟨key, deps⟩]

/-- A visit to a name that is no key of the graph: the search is left with the name marked. -/
structure Stray where
  key : String
  left : Search

/-- Visits a key of the graph, whatever its mark. -/
def visit (s : Search) (key : String) : Except Stray Search :=
  match s.graph.get? key with
  | none => .error ⟨key, s.mark key .visited⟩
  | some deps => .ok (s.walk key deps)

/-! ## Settling -/

/-- One pass over the listed keys: a key that depends on a skipped one is skipped in its turn, and
the others are kept. -/
def sweep (s : Search) : List String → Search × List String
  | [] => (s, [])
  | key :: rest =>
    match (s.dependencies key).find? s.isSkipped with
    | some dep => (s.skip key dep).sweep rest
    | none => ((s.sweep rest).1, key :: (s.sweep rest).2)

theorem length_sweep_le (s : Search) (keys : List String) :
    (s.sweep keys).2.length ≤ keys.length := by
  induction keys generalizing s with
  | nil => exact Nat.le_refl _
  | cons key rest ih =>
    rw [sweep]
    split
    · exact Nat.le_succ_of_le (ih _)
    · exact Nat.succ_le_succ (ih s)

/-- Passes over the listed keys until one drops none. -/
def settle (s : Search) : Search :=
  let r := s.sweep s.order
  let s' := { r.1 with order := r.2 }
  if r.2.length < s.order.length then settle s' else s'
  termination_by s.order.length

/-- Visits every pending key, in the order of the graph, and settles. -/
def run (s : Search) : Search :=
  (s.graph.entries.foldl (fun s e => if s.isPending e.1 then s.walk e.1 e.2 else s) s).settle

end Search

end DesignTokens
