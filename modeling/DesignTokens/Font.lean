import DesignTokens.Size

/-!
# Font — typography values

Typography tells fonts and metrics.  A font is an object with a family, a size and a weight; the
first two are names that the runtime looks up, given by a placeholder or as they stand, and it is
bold when its weight mentions that.  A metric is known by its key and read as a size.  **Every
other key is passed over.**
-/

namespace DesignTokens.Font

open Text Json

/-- The object of an entry that describes a font. -/
def object? (entry : Value) : Option Value :=
  match entry.member? "value" with
  | some v => if (v.member? "fontFamily").isSome then some v else none
  | none => none

/-- Words by which a key is known to be a metric. -/
def metricWords : List String := ["size", "height", "margin", "color", "spacing"]

/-- Whether a key is about a metric.  The words are ASCII, and no character outside ASCII lowers to
text that completes one of them, so only ASCII letters are lowered. -/
def isMetric (key : String) : Bool := metricWords.any fun w => occursIn w.toList (lowered key)

/-- The name that a family or a size is looked up by. -/
def lookupName (raw : Value) : String :=
  match raw with
  | .string s => (Alias.read? s).getD s
  | _ => raw.display

/-- The font that an object describes, or the name of the first field that it lacks: its size and
its weight are looked for before its family. -/
def ofObject (font : Value) : Except String Expr :=
  match font.member? "fontSize" with
  | none => .error "fontSize"
  | some size =>
    match font.member? "fontWeight" with
    | none => .error "fontWeight"
    | some weight =>
      match font.member? "fontFamily" with
      | none => .error "fontFamily"
      | some family =>
        .ok (.font (lookupName family) (lookupName size)
          (occursIn "bold".toList weight.display.toList))

/-- The value of a typography entry, if it contributes one. -/
def ofEntry? (key : String) (entry : Value) : Except EntryFault (Option Expr) :=
  match object? entry with
  | some font => ((ofObject font).mapError fun field => .rejected (.incompleteFont key field)).map some
  | none => if isMetric key then (Size.ofEntry key entry).map some else .ok none

end DesignTokens.Font
