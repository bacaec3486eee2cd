import DesignTokens.Number.Binary64
import DesignTokens.OrderedMap

/-!
# Json/Value — JSON values

Whole numbers are exact and apart from the others; the members of an object keep their order, and
no name comes twice.
-/

namespace DesignTokens.Json

/-- A JSON value. -/
inductive Value where
  | null
  | bool (b : Bool)
  /-- A number written without a point and without an exponent. -/
  | int (n : Int)
  /-- Any other number, infinities and what is no number included. -/
  | float (x : Binary64)
  | string (s : String)
  | array (items : List Value)
  | object (members : List (String × Value))

namespace Value

instance : Inhabited Value := ⟨.null⟩

/-- The members of an object. -/
def members? : Value → Option (List (String × Value))
  | .object members => some members
  | _ => none

/-- The member of an object with a given name. -/
def member? (v : Value) (name : String) : Option Value :=
  v.members?.bind (Entries.get? name)

end Value

end DesignTokens.Json
