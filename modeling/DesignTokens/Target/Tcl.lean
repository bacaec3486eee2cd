import DesignTokens.Target.Basic

/-!
# Target/Tcl — declarations for a Tk theme

Tcl commands inside a namespace that holds the array `var`.  Keys and names are put in as they
stand.
-/

namespace DesignTokens.Tcl

/-- A variable. -/
def variableRef (key : String) : String := "$var(" ++ key ++ ")"

/-- A choice by a flag. -/
def choice (flag dark light : String) : String :=
  "[expr \x7b" ++ flag ++ " ? " ++ dark ++ " : " ++ light ++ "\x7d]"

/-- A count of pixels, scaled. -/
def scaled (count : Int) : String := "[scale_pixel " ++ toString count ++ "]"

/-- A font, made by a command of the namespace. -/
def fontCall (ns family size : String) (bold : Bool) : String :=
  "[" ++ ns ++ "::priv::get_or_create_font \x7b" ++ family ++ "\x7d \x7b" ++ size ++ "\x7d "
    ++ (if bold then "1" else "0") ++ "]"

/-- A declaration. -/
def assignment (key value : String) : String := "set var(" ++ key ++ ") " ++ value

/-- A document. -/
def wrap (ns header : String) (declarations : List String) : String :=
  header ++ "\n\nnamespace eval " ++ ns ++ " \x7b\n" ++ "\n".intercalate declarations ++ "\n\x7d"

end DesignTokens.Tcl

namespace DesignTokens

/-- Tcl for a Tk theme, evaluated in the namespace `ns`. -/
def Target.tcl (ns : String) : Target :=
  { color := fun hex => .ok (quotedColor hex)
    number := .ok
    reference := fun key => .ok (Tcl.variableRef key)
    conditional := fun flag dark light => return Tcl.choice (← flag) (← dark) (← light)
    pixels := fun count => .ok (Tcl.scaled count)
    font := fun family size bold => .ok (Tcl.fontCall ns family size bold)
    declaration := fun key value => return Tcl.assignment key (← value)
    document := fun header declarations => .ok (Tcl.wrap ns header declarations) }

end DesignTokens
