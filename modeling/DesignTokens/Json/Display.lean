import DesignTokens.Json.Value
import DesignTokens.Number.Spelling
import DesignTokens.Text.Quoted

/-!
# Json/Display — JSON values in messages

A message shows a string as it stands, and any other value by its **shown form**: the words `None`,
`True` and `False`, strings quoted, and lists and members between brackets and braces.
-/

namespace DesignTokens.Json

mutual

/-- A value inside a shown form. -/
def Value.shown : Value → String
  | .null => "None"
  | .bool b => if b then "True" else "False"
  | .int n => toString n
  | .float x => Spelling.plain.text x
  | .string s => Text.quoted s
  | .array items => "[" ++ ", ".intercalate (shownItems items) ++ "]"
  | .object members => "\x7b" ++ ", ".intercalate (shownMembers members) ++ "\x7d"

/-- The items of an array inside a shown form. -/
def shownItems : List Value → List String
  | [] => []
  | v :: rest => v.shown :: shownItems rest

/-- The members of an object inside a shown form. -/
def shownMembers : List (String × Value) → List String
  | [] => []
  | (name, v) :: rest => (Text.quoted name ++ ": " ++ v.shown) :: shownMembers rest

end

/-- A value as a message shows it. -/
def Value.display : Value → String
  | .string s => s
  | v => v.shown

end DesignTokens.Json
