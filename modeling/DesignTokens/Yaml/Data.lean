import DesignTokens.Yaml.Document
import DesignTokens.Yaml.Value

/-!
# Yaml/Data — the values of a document

Every node gives one value, however often it is named.  A scalar has its value at once; **a
collection is filled later**, in the order in which collections were met, so that a fault deep
inside is told after the faults of the nodes around it.  A set is the sequence of its members, in
the order of the document since it has none of its own, and a sequence of pairs holds each pair as a
mapping.

* `Data.ofBytes` — the values of a file.
-/

namespace DesignTokens.Yaml

/-- What a collection holds. -/
inductive Contents where
  | sequence (items : List Value)
  | mapping (pairs : List (Value × Value))
  deriving Repr

/-- The values of a document. -/
structure Data where
  root : Value
  /-- The collections, by the nodes that they were made of. -/
  collections : List (Nat × Contents)

/-- Values in the making. -/
structure Making where
  nodes : Nodes
  /-- The values of nodes that have one. -/
  values : Array (Option Value)
  /-- The collections that are still to be filled. -/
  waiting : List Nat
  filled : List (Nat × Contents)
  /-- More than the merging keys of the document. -/
  merges : Nat

namespace Making

/-- No node has a value. -/
def start (nodes : Nodes) : Making :=
  { nodes, values := Array.replicate nodes.size none, waiting := [], filled := []
    merges := nodes.pairCount + 1 }

/-- Gives a node its value. -/
def record (m : Making) (n : Nat) (v : Value) : Value × Making :=
  (v, { m with values := m.values.setIfInBounds n (some v) })

/-- The text of a scalar; a mapping with a default value stands for the text of that. -/
def scalarText (nodes : Nodes) : Nat → Nat → Except Fault String
  | 0, _ => .error (.value .endlessDefault)
  | fuel + 1, n =>
    match nodes.node n with
    | .scalar _ s => .ok s
    | .mapping _ pairs =>
      match pairs.find? fun pair => (nodes.node pair.1).tag == .default with
      | some (_, v) => scalarText nodes fuel v
      | none => problem (.expected "a scalar node")
    | .sequence _ _ => problem (.expected "a scalar node")

/-- The value of a node that has none yet. -/
def fresh (m : Making) (n : Nat) : Except Fault (Value × Making) :=
  let tag := (m.nodes.node n).tag
  match tag with
  | .sequence | .mapping | .set | .pairs =>
    let (v, m) := m.record n (.collection n)
    .ok (v, { m with waiting := m.waiting ++ [n] })
  | .merge | .default | .other _ => problem (.undefinedTag tag.name)
  | _ => do
    let s ← scalarText m.nodes (m.nodes.size + 1) n
    if tag = .timestamp ∧ m.nodes.isMapping n then throw (.value .mappingAsDate)
    return m.record n (← Value.ofText tag n s)

/-- The value of a node. -/
def value (m : Making) (n : Nat) : Except Fault (Value × Making) :=
  match m.values[n]? with
  | some (some v) => .ok (v, m)
  | _ => m.fresh n

/-- The values of nodes, in their order. -/
def valuesOf (m : Making) : List Nat → Except Fault (List Value × Making)
  | [] => .ok ([], m)
  | n :: rest => do
    let (v, m) ← m.value n
    let (more, m) ← m.valuesOf rest
    return (v :: more, m)

/-- The values of the pairs of a mapping, put one after the other behind `entries`. -/
def entriesOf (m : Making) (entries : List (Value × Value)) :
    List (Nat × Nat) → Except Fault (List (Value × Value) × Making)
  | [] => .ok (entries, m)
  | (k, v) :: rest => do
    let (key, m) ← m.value k
    if !key.isKey then problem .unusableKey
    else
      let (v, m) ← m.value v
      m.entriesOf (Value.put key v entries) rest

/-- The pairs in the single mappings of a sequence. -/
def pairsOf (m : Making) : List Nat → Except Fault (List Value × Making)
  | [] => .ok ([], m)
  | n :: rest => do
    match m.nodes.node n with
    | .mapping _ [(k, v)] =>
      let (_, m) ← m.value k
      let (_, m) ← m.value v
      let (more, m) ← m.pairsOf rest
      return (.collection n :: more, m)
    | _ => problem (.expected "a mapping of length 1")

/-- The entries of the mapping that a node is. -/
def mappingOf (m : Making) (n : Nat) : Except Fault (List (Value × Value) × Making) := do
  if m.nodes.isMapping n then
    let m := { m with nodes := ← m.nodes.flatten m.merges n }
    m.entriesOf [] (m.nodes.pairs n)
  else problem (.expected "a mapping node")

/-- The items of the sequence that a node is. -/
def itemsOf (m : Making) (n : Nat) (read : Making → List Nat → Except Fault (List Value × Making)) :
    Except Fault (List Value × Making) :=
  match m.nodes.node n with
  | .sequence _ items => read m items
  | _ => problem (.expected "a sequence")

/-- Fills the collection that a node is to be. -/
def contents (m : Making) (n : Nat) : Except Fault (Contents × Making) := do
  match (m.nodes.node n).tag with
  | .mapping =>
    let (entries, m) ← m.mappingOf n
    return (.mapping entries, m)
  | .set =>
    let (entries, m) ← m.mappingOf n
    return (.sequence (entries.map Prod.fst), m)
  | .pairs =>
    let (items, m) ← m.itemsOf n pairsOf
    return (.sequence items, m)
  | _ =>
    let (items, m) ← m.itemsOf n valuesOf
    return (.sequence items, m)

/-- Fills the collections that wait; every node waits once at most. -/
def fill : Nat → Making → Except Fault Making
  | 0, m => .ok m
  | fuel + 1, m =>
    match m.waiting with
    | [] => .ok m
    | n :: rest => do
      let (c, m) ← { m with waiting := rest }.contents n
      fill fuel { m with filled := (n, c) :: m.filled }

end Making

namespace Data

/-- The values of a document. -/
def ofDocument (d : Document) : Except Fault Data := do
  let (root, m) ← (Making.start d.nodes).value d.root
  let m ← m.fill (d.nodes.size + 1)
  return ⟨root, m.filled⟩

/-- The values of a file, if it holds a document. -/
def ofBytes? (bytes : List UInt8) : Except Fault (Option Data) := do
  match ← Document.ofSupply? (.ofBytes bytes) with
  | none => return none
  | some d => return some (← ofDocument d)

/-- What a collection holds. -/
def contents? (d : Data) : Value → Option Contents
  | .collection n => (d.collections.find? (·.1 == n)).map Prod.snd
  | _ => none

end Data

end DesignTokens.Yaml
