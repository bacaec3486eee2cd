import DesignTokens.Alias
import DesignTokens.Entry
import DesignTokens.Expr
import DesignTokens.Text.Hex

/-!
# Color — colour values

A colour is a placeholder, or `rgb` with three channels between parentheses.  White space may stand
around each part but not inside one; a channel is a run of digits of any script with a value up to
255.  An entry with variants is a choice between its light and its dark one.
-/

namespace DesignTokens.Color

open Text Json

/-! ## Channels -/

/-- Two hexadecimal digits in upper case. -/
def channelText (n : Nat) : List Char := (hexDigits 2 n).map Char.toUpper

/-- A colour from its red, green and blue channel; the first channel outside 0 to 255 is refused. -/
def ofChannels (red green blue : Int) : Except Int Expr :=
  match [red, green, blue].find? fun n => n < 0 || 255 < n with
  | some n => .error n
  | none =>
    .ok (.color (String.ofList ('#' :: [red, green, blue].flatMap fun n => channelText n.toNat)))

/-! ## The written form -/

/-- A digit run with white space before it: the run, and what follows. -/
def channel? (cs : List Char) : Option (List Char × List Char) :=
  let cs := skipSpace cs
  let digits := cs.takeWhile isDigit
  if digits = [] then none else some (digits, cs.dropWhile isDigit)

/-- What follows a mark that may have white space before it. -/
def afterMark? (mark : Char) (cs : List Char) : Option (List Char) :=
  match skipSpace cs with
  | [] => none
  | c :: rest => if c = mark then some rest else none

/-- The digit runs of the three channels of a colour. -/
def channels? (cs : List Char) : Option (List Char × List Char × List Char) :=
  match skipSpace cs with
  | 'r' :: 'g' :: 'b' :: rest => do
    let rest ← afterMark? '(' rest
    let (red, rest) ← channel? rest
    let rest ← afterMark? ',' rest
    let (green, rest) ← channel? rest
    let rest ← afterMark? ',' rest
    let (blue, rest) ← channel? rest
    let rest ← afterMark? ')' rest
    if skipSpace rest = [] then some (red, green, blue) else none
  | _ => none

/-- Reads a colour value. -/
def read (raw : Value) : Except EntryFault Expr :=
  match raw with
  | .string s =>
    match Alias.read? s with
    | some key => .ok (.reference key)
    | none =>
      match channels? s.toList with
      | none => .error (.rejected (.color raw))
      | some (red, green, blue) => do
        let red ← (readDigits red).mapError .digits
        let green ← (readDigits green).mapError .digits
        let blue ← (readDigits blue).mapError .digits
        (ofChannels red green blue).mapError fun _ => .rejected (.color raw)
  | _ => .error (.rejected (.color raw))

/-- The colour of an entry; `flag` is what the runtime chooses a variant by. -/
def ofEntry (flag key : String) (entry : Value) : Except EntryFault Expr :=
  if Entry.hasSets entry then do
    let light ← read (← (Entry.variant key entry "light").mapError .rejected)
    let dark ← read (← (Entry.variant key entry "dark").mapError .rejected)
    return .conditional flag dark light
  else do
    read (← (Entry.value key entry).mapError .rejected)

end DesignTokens.Color
