import DesignTokens.Alias
import DesignTokens.Entry
import DesignTokens.Expr
import DesignTokens.Json.Writer
import DesignTokens.Text.Occurs

/-!
# Size — layout values

A size is a placeholder, a count of pixels such as `16px`, or a number, given as a string or as a
JSON number.  Fonts belong to the runtime, so **of the keys about fonts a size may name only those
about font sizes**.  Of an entry with variants the desktop one is taken.
-/

namespace DesignTokens.Size

open Text Json

/-- Whether a size may name a key. -/
def mayName (key : String) : Bool :=
  !occursIn "font".toList key.toList || occursIn "font-size".toList key.toList

/-- A text without the minus at its front, and whether there was one. -/
def signed : List Char → Bool × List Char
  | '-' :: rest => (true, rest)
  | rest => (false, rest)

/-- The sign and the digits of a count of pixels. -/
def pixels? (cs : List Char) : Option (Bool × List Char) :=
  let (negative, body) := signed cs
  let digits := body.takeWhile isDigit
  if digits ≠ [] ∧ body.dropWhile isDigit = ['p', 'x'] then some (negative, digits) else none

/-- Whether a text is a number: a sign or none, then digits with a point and further digits after
them or not, or a point and digits. -/
def isNumber (cs : List Char) : Bool :=
  let body := (signed cs).2
  let whole := body.takeWhile isDigit
  match body.dropWhile isDigit with
  | [] => !whole.isEmpty
  | '.' :: fraction => fraction.all isDigit && !(whole.isEmpty && fraction.isEmpty)
  | _ => false

/-- Reads a size value. -/
def read (raw : Value) : Except EntryFault Expr :=
  match raw with
  | .int _ | .float _ => .ok (.number raw.write)
  | .string s =>
    match Alias.read? s with
    | some key => if mayName key then .ok (.reference key) else .error (.rejected (.size raw))
    | none =>
      match pixels? s.toList with
      | some (negative, digits) => do
        let n ← (readDigits digits).mapError .digits
        return .pixels (if negative then -(n : Int) else n)
      | none => if isNumber s.toList then .ok (.number s) else .error (.rejected (.size raw))
  | _ => .error (.rejected (.size raw))

/-- The size of an entry. -/
def ofEntry (key : String) (entry : Value) : Except EntryFault Expr :=
  if Entry.hasSets entry then do
    read (← (Entry.variant key entry "desktop").mapError .rejected)
  else do
    read (← (Entry.value key entry).mapError .rejected)

end DesignTokens.Size
