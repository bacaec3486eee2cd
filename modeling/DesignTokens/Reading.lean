import DesignTokens.Color
import DesignTokens.Font
import DesignTokens.Token

/-!
# Reading — from the entries of a category to values

The category of a file decides how its entries are read.  Only typography passes over entries.
-/

namespace DesignTokens

/-- The value of an entry, if it contributes one. -/
def Category.read (flag : String) (category : Category) (key : String) (entry : Json.Value) :
    Except EntryFault (Option Expr) :=
  match category with
  | .color => (Color.ofEntry flag key entry).map some
  | .layout => (Size.ofEntry key entry).map some
  | .font => Font.ofEntry? key entry

end DesignTokens
