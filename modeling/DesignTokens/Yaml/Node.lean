import DesignTokens.Yaml.Fault

/-!
# Yaml/Node — nodes and the documents they make up

A document is a table of nodes with one of them at its root.  Nodes refer to one another by their
places in the table, so that **an alias is the node it names** and a collection may hold itself.
-/

namespace DesignTokens.Yaml

/-! ## Tags -/

/-- The tag of a node: the type of its value. -/
inductive Tag where
  | null
  | bool
  | int
  | float
  | binary
  | timestamp
  | text
  /-- A text with half of a surrogate pair in it. -/
  | halfText
  | sequence
  | mapping
  | set
  /-- A sequence of pairs, by either of its names. -/
  | pairs
  /-- The key that merges mappings. -/
  | merge
  /-- The key of the default value. -/
  | default
  | other (name : String)
  deriving DecidableEq, Repr

/-- The standard tags, by the ends of their names. -/
def standardTags : List (String × Tag) :=
  [("null", .null), ("bool", .bool), ("int", .int), ("float", .float), ("binary", .binary),
   ("timestamp", .timestamp), ("str", .text), ("seq", .sequence), ("map", .mapping), ("set", .set),
   ("omap", .pairs), ("pairs", .pairs), ("merge", .merge), ("value", .default)]

/-- What the names of standard tags begin with. -/
def standardStem : String := "tag:yaml.org,2002:"

/-- The tag of a name. -/
def Tag.ofName (name : String) : Tag :=
  ((standardTags.find? fun e => standardStem ++ e.1 == name).map Prod.snd).getD (.other name)

/-- A name of a tag. -/
def Tag.name : Tag → String
  | .other name => name
  | t => standardStem ++ ((standardTags.find? fun e => e.2 == t).map Prod.fst).getD ""

/-! ## Nodes -/

/-- A node; other nodes are told by their places in the table. -/
inductive Node where
  | scalar (tag : Tag) (text : String)
  | sequence (tag : Tag) (items : List Nat)
  | mapping (tag : Tag) (pairs : List (Nat × Nat))
  deriving Repr

/-- The tag of a node. -/
def Node.tag : Node → Tag
  | .scalar tag _ | .sequence tag _ | .mapping tag _ => tag

/-- The table of the nodes of a document. -/
abbrev Nodes := Array Node

/-- A document. -/
structure Document where
  nodes : Nodes
  root : Nat

namespace Nodes

/-- The node at a place. -/
def node (nodes : Nodes) (n : Nat) : Node := nodes[n]?.getD (.scalar .null "")

/-- Whether there is a mapping at a place. -/
def isMapping (nodes : Nodes) (n : Nat) : Bool :=
  match nodes.node n with
  | .mapping _ _ => true
  | _ => false

/-- The pairs of the mapping at a place. -/
def pairs (nodes : Nodes) (n : Nat) : List (Nat × Nat) :=
  match nodes.node n with
  | .mapping _ pairs => pairs
  | _ => []

/-- Gives the mapping at a place other pairs. -/
def withPairs (nodes : Nodes) (n : Nat) (pairs : List (Nat × Nat)) : Nodes :=
  nodes.setIfInBounds n (.mapping (nodes.node n).tag pairs)

/-- How many pairs there are in all mappings. -/
def pairCount (nodes : Nodes) : Nat :=
  nodes.toList.foldl (fun k n =>
    match n with
    | .mapping _ pairs => k + pairs.length
    | _ => k) 0

/-! ## Merging -/

/-- Makes a text of a key of the default value. -/
def settleKey (nodes : Nodes) (key : Nat) : Nodes :=
  match nodes.node key with
  | .scalar .default s => nodes.setIfInBounds key (.scalar .text s)
  | .sequence .default items => nodes.setIfInBounds key (.sequence .text items)
  | .mapping .default pairs => nodes.setIfInBounds key (.mapping .text pairs)
  | _ => nodes

/-- What the first merging key among some pairs merges, and the pairs without it. -/
def firstMerge? (nodes : Nodes) : List (Nat × Nat) → Option (Nat × List (Nat × Nat))
  | [] => none
  | (key, value) :: rest =>
    if (nodes.node key).tag == .merge then some (value, rest)
    else (nodes.firstMerge? rest).map fun r => (r.1, (key, value) :: r.2)

/-- Puts in front of the pairs of a mapping those that it merges: the pairs of a mapping, or of the
mappings in a sequence, the last mapping first.  Mappings that are merged are flat before. -/
def flatten : Nat → Nat → Nodes → Except Fault Nodes
  | 0, _, nodes => .ok nodes
  | fuel + 1, n, nodes =>
    match nodes.firstMerge? (nodes.pairs n) with
    | none => .ok ((nodes.pairs n).foldl (fun t pair => t.settleKey pair.1) nodes)
    | some (target, rest) => do
      let nodes := nodes.withPairs n rest
      let (nodes, merged) ←
        match nodes.node target with
        | .mapping _ _ => do
          let nodes ← flatten fuel target nodes
          pure (nodes, nodes.pairs target)
        | .sequence _ items => do
          let (nodes, groups) ← items.foldlM (fun r item =>
            if r.1.isMapping item then do
              let nodes ← flatten fuel item r.1
              pure (nodes, nodes.pairs item :: r.2)
            else problem (.expected "a mapping for merging")) (nodes, [])
          pure (nodes, groups.flatten)
        | .scalar _ _ => problem (.expected "a mapping or list of mappings for merging")
      let nodes ← flatten fuel n nodes
      return nodes.withPairs n (merged ++ nodes.pairs n)

end Nodes

end DesignTokens.Yaml
