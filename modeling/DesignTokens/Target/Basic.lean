import DesignTokens.Expr
import DesignTokens.Text.Quoted

/-!
# Target/Basic — what a target runtime has to say

A target tells how each kind of value, a declaration and a whole document are written for one
runtime.  A value is written bottom up: the parts of a choice are handed over as they were written,
so that a target which knows no choices need not look at them.
-/

namespace DesignTokens

/-- Why a target cannot write something. -/
inductive RenderFault where
  /-- The text of a number is no numeral. -/
  | notANumber (text : String)
  /-- The target has no words for it. -/
  | unsupported
  deriving DecidableEq, Repr

/-- The wording of a fault. -/
def RenderFault.message : RenderFault → String
  | .notANumber text => "could not convert string to float: " ++ Text.quoted text
  | .unsupported => ""

/-- A text for a runtime, or why there is none. -/
abbrev Rendered := Except RenderFault String

/-- The words of a target runtime. -/
structure Target where
  color : (hex : String) → Rendered
  number : (text : String) → Rendered
  reference : (key : String) → Rendered
  /-- A choice, given its flag, its dark and its light side as they were written. -/
  conditional : (flag dark light : Rendered) → Rendered
  pixels : (count : Int) → Rendered
  font : (family size : String) → (bold : Bool) → Rendered
  /-- The declaration of a key, given its value as it was written. -/
  declaration : (key : String) → (value : Rendered) → Rendered
  /-- A whole document, given its header and its declarations. -/
  document : (header : String) → (declarations : List String) → Rendered

/-- The text of a value. -/
def Expr.render (t : Target) : Expr → Rendered
  | .color hex => t.color hex
  | .number text => t.number text
  | .reference key => t.reference key
  | .conditional flag dark light =>
    t.conditional (t.reference flag) (dark.render t) (light.render t)
  | .pixels count => t.pixels count
  | .font family size bold => t.font family size bold

/-- A colour between double quotes, as all targets write it. -/
def quotedColor (hex : String) : String := "\"" ++ hex ++ "\""

/-- The target that knows colours and numbers only. -/
def Target.literals : Target :=
  { color := fun hex => .ok (quotedColor hex)
    number := .ok
    reference := fun _ => .error .unsupported
    conditional := fun _ _ _ => .error .unsupported
    pixels := fun _ => .error .unsupported
    font := fun _ _ _ => .error .unsupported
    declaration := fun _ _ => .error .unsupported
    document := fun _ _ => .error .unsupported }

end DesignTokens
