import DesignTokens.Target.Python
import DesignTokens.Target.Tcl

/-!
# Target/Format — output formats

The formats that can be asked for by name, each with its target.
-/

namespace DesignTokens

/-- An output format. -/
inductive OutputFormat where
  | tcl
  | python
  deriving DecidableEq, Repr

namespace OutputFormat

/-- The name of a format. -/
def name : OutputFormat → String
  | .tcl => "tcl"
  | .python => "python"

/-- All formats, in the order in which they are offered. -/
def all : List OutputFormat := [.tcl, .python]

/-- The format of a name. -/
def ofName? (s : String) : Option OutputFormat := all.find? fun f => f.name == s

/-- The target of a format, for variables in the namespace `ns`. -/
def target (ns : String) : OutputFormat → Target
  | .tcl => .tcl ns
  | .python => .python

/-- The words for a name that no format has. -/
def unknownMessage (name : String) : String := "Unknown output format: " ++ name

end OutputFormat

end DesignTokens
