import DesignTokens.Json.Writer
import DesignTokens.Number.Numeral
import DesignTokens.Target.Basic

/-!
# Target/Python — declarations for a tkinter theme

A Python module with one function that fills the dictionary `var`.  Keys and names are string
literals in ASCII.  A number is written as a whole one where its text reads as one of at most
`digitLimit` digits, and else as the double-precision number nearest to it.
-/

namespace DesignTokens.Python

/-- A number, if its text is a numeral. -/
def numeral? (text : String) : Option String :=
  match Numeral.integer? text.toList with
  | some n => some (toString n)
  | none => (Numeral.decimal? text.toList).map Spelling.plain.text

/-- A variable. -/
def variableRef (key : String) : String := "var[" ++ Json.literal key ++ "]"

/-- A choice by a flag. -/
def choice (flag dark light : String) : String :=
  "(" ++ dark ++ " if " ++ flag ++ " else " ++ light ++ ")"

/-- A count of pixels, scaled. -/
def scaled (count : Int) : String := "scale_pixel(" ++ toString count ++ ")"

/-- A font. -/
def fontCall (family size : String) (bold : Bool) : String :=
  "get_or_create_font(" ++ Json.literal family ++ ", " ++ Json.literal size ++ ", "
    ++ (if bold then "True" else "False") ++ ")"

/-- A declaration. -/
def assignment (key value : String) : String := "    " ++ variableRef key ++ " = " ++ value

/-- A document; a function without declarations has an empty statement in their place. -/
def wrap (header : String) (declarations : List String) : String :=
  let body := if declarations.isEmpty then "    pass" else "\n".intercalate declarations
  header ++ "\n\n\ndef initialize(var, scale_pixel, get_or_create_font):\n" ++ body

end DesignTokens.Python

namespace DesignTokens

/-- Python for a tkinter theme. -/
def Target.python : Target :=
  { color := fun hex => .ok (quotedColor hex)
    number := fun text =>
      match Python.numeral? text with
      | some numeral => .ok numeral
      | none => .error (.notANumber text)
    reference := fun key => .ok (Python.variableRef key)
    conditional := fun flag dark light => return Python.choice (← flag) (← dark) (← light)
    pixels := fun count => .ok (Python.scaled count)
    font := fun family size bold => .ok (Python.fontCall family size bold)
    declaration := fun key value => return Python.assignment key (← value)
    document := fun header declarations => .ok (Python.wrap header declarations) }

end DesignTokens
