/-!
# Expr — the values of design tokens

What a token stands for, independent of the runtime that will compute it: a colour, a number, the
value of another token, a choice by a flag of the runtime, a length in pixels, or a font.

* `Expr.references` — the keys read by an expression, in the order **flag, dark, light**.
* `Expr.dependencies` — the keys that must be there before it; the flag is the runtime's own.
-/

namespace DesignTokens

/-- The value of a token. -/
inductive Expr where
  /-- A colour, written `#RRGGBB`. -/
  | color (hex : String)
  /-- A number, in the text of the token file. -/
  | number (text : String)
  /-- The value of another token, or of a variable of the runtime. -/
  | reference (key : String)
  /-- The value `dark` where the flag is set, and `light` where it is not. -/
  | conditional (flag : String) (dark light : Expr)
  /-- A count of pixels, scaled by the runtime. -/
  | pixels (count : Int)
  /-- A font, made by the runtime from the names of a family and of a size. -/
  | font (family size : String) (bold : Bool)
  deriving DecidableEq, Repr, Inhabited

namespace Expr

/-- The keys that an expression reads, in order and as often as it does. -/
def references : Expr → List String
  | .reference key => [key]
  | .conditional flag dark light => flag :: (dark.references ++ light.references)
  | .color _ | .number _ | .pixels _ | .font _ _ _ => []

/-- The keys that an expression depends on, each once and in the order of first reading; the flag of
the runtime is none of them. -/
def dependencies (flag : String) (e : Expr) : List String :=
  (e.references.filter (· ≠ flag)).eraseDups

end Expr

end DesignTokens
