import DesignTokens.Json.Display
import DesignTokens.Text.Digit

/-!
# Entry — the entries of a token file

An entry is an object with a `value`, or with `sets`: an object from the name of a variant to an
entry for it.  What is wrong with one entry costs its token and no other; only a whole number of
too many digits ends the reading.
-/

namespace DesignTokens

open Json Text

/-- Why an entry makes no token. -/
inductive Rejection where
  /-- The value is no colour. -/
  | color (value : Value)
  /-- The value is no size. -/
  | size (value : Value)
  | notAnObject (key : String)
  | noValue (key : String)
  | noSet (key name : String)
  | incompleteFont (key field : String)

/-- The wording of a rejection. -/
def Rejection.message : Rejection → String
  | .color value => "Invalid RGB format: " ++ value.display
  | .size value => "Invalid size format: " ++ value.display
  | .notAnObject key => "Token '" ++ key ++ "' is not an object"
  | .noValue key => "Token '" ++ key ++ "' has no value"
  | .noSet key name => "Token '" ++ key ++ "' has no '" ++ name ++ "' set"
  | .incompleteFont key field => "Font token '" ++ key ++ "' is missing '" ++ field ++ "'"

/-- What stops the reading of an entry. -/
inductive EntryFault where
  /-- The entry makes no token. -/
  | rejected (r : Rejection)
  /-- A whole number in it has too many digits. -/
  | digits (e : TooManyDigits)

namespace Entry

/-- Whether an entry has variants. -/
def hasSets (entry : Value) : Bool := (entry.member? "sets").isSome

/-- The value of an entry. -/
def value (key : String) (entry : Value) : Except Rejection Value :=
  match entry.members? with
  | none => .error (.notAnObject key)
  | some members =>
    match Entries.get? "value" members with
    | none => .error (.noValue key)
    | some v => .ok v

/-- The value of one variant of an entry. -/
def variant (key : String) (entry : Value) (name : String) : Except Rejection Value :=
  match (entry.member? "sets").bind fun sets => sets.member? name with
  | none => .error (.noSet key name)
  | some v => value key v

end Entry

end DesignTokens
