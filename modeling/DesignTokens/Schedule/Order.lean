import DesignTokens.Schedule.Search

/-!
# Schedule/Order — the order in which tokens are declared

The schedule of a graph lists the keys that can be declared, each after the keys it depends on as
far as cycles allow, and tells for every other key which dependency it is missing for.
-/

namespace DesignTokens

/-- The outcome of scheduling a graph. -/
structure Schedule where
  /-- The keys to declare, in order. -/
  order : List String
  /-- The other keys, each with the dependency that it was skipped for. -/
  skipped : OrderedMap String String

/-- The schedule of a graph. -/
def Graph.schedule (g : Graph) : Schedule :=
  let s := (Search.start g).run
  ⟨s.order, s.skipped⟩

/-- The words for a key that is skipped. -/
def skipMessage (key dep : String) : String :=
  "Skipping \"" ++ key ++ "\" due to missing dependency \"" ++ dep ++ "\""

/-- The tokens of a table that can be declared, in order. -/
def TokenTable.sorted (t : TokenTable) : List Token := t.graph.schedule.order.filterMap t.get?

end DesignTokens
