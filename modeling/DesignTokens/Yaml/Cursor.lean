import DesignTokens.Yaml.Supply

/-!
# Yaml/Cursor — moving through a YAML text

A cursor is the rest of a text together with the place where it starts; lines and columns count
from zero, and a byte order mark takes no column.  Where the text ends because reading it failed,
that failure is what a cursor meets there.  The classes of characters are those of YAML 1.1, where
next line, line separator and paragraph separator end a line as well.
-/

namespace DesignTokens.Yaml

/-! ## Classes of characters -/

/-- Whether a character ends a line. -/
def isBreak (c : Char) : Bool :=
  c == '\n' || c == '\r' || c == '\x85' || c == '\u2028' || c == '\u2029'

/-- Whether a line ends here; the end of the text ends it. -/
def endsLine : Option Char → Bool
  | none => true
  | some c => isBreak c

/-- Whether a blank, the end of a line or the end of the text is here. -/
def isGap : Option Char → Bool
  | none => true
  | some c => c == ' ' || c == '\t' || isBreak c

/-- Whether a blank that is no tab, the end of a line or the end of the text is here. -/
def isTablessGap : Option Char → Bool
  | none => true
  | some c => c == ' ' || isBreak c

/-- Whether a character may stand in the name of an anchor or of a directive. -/
def isNameChar (c : Char) : Bool := c.isAlphanum || c == '-' || c == '_'

/-! ## Cursors -/

/-- The rest of a text and where it starts. -/
structure Cursor where
  rest : List Char
  /-- Why the text does not go on, if it should. -/
  stop : Option Fault
  index : Nat
  line : Nat
  column : Nat

namespace Cursor

/-- The beginning of a text. -/
def start (supply : Supply) : Cursor := ⟨supply.text, supply.stop, 0, 0, 0⟩

/-- The `k`-th character from here, if the text goes on that far. -/
def peek (c : Cursor) (k : Nat) : Option Char := c.rest[k]?

/-- The next character. -/
def head (c : Cursor) : Option Char := c.rest.head?

/-- Whether a character is next. -/
def isAt (c : Cursor) (ch : Char) : Bool := c.head == some ch

/-- One character further. -/
def next (c : Cursor) : Cursor :=
  match c.rest with
  | [] => c
  | ch :: rest =>
    let endsHere := isBreak ch && !(ch == '\r' && rest.head? == some '\n')
    if endsHere then { c with rest, index := c.index + 1, line := c.line + 1, column := 0 }
    else
      { c with
        rest
        index := c.index + 1
        column := if ch = '\uFEFF' then c.column else c.column + 1 }

/-- Some characters further. -/
def move : Nat → Cursor → Cursor
  | 0, c => c
  | n + 1, c => move n c.next

/-- The next `n` characters. -/
def take (c : Cursor) (n : Nat) : List Char := c.rest.take n

/-- How many of the next characters pass a test. -/
def countWhile (c : Cursor) (p : Char → Bool) : Nat := (c.rest.takeWhile p).length

/-- Behind the next characters that pass a test. -/
def skipWhile (c : Cursor) (p : Char → Bool) : Cursor := c.move (c.countWhile p)

/-- The end of a line here, as it is kept in a scalar, and the cursor behind it. -/
def lineBreak? (c : Cursor) : Option (Char × Cursor) :=
  match c.rest with
  | '\r' :: '\n' :: _ => some ('\n', c.move 2)
  | ch :: _ =>
    if ch = '\n' ∨ ch = '\r' ∨ ch = '\x85' then some ('\n', c.next)
    else if ch = '\u2028' ∨ ch = '\u2029' then some (ch, c.next)
    else none
  | [] => none

/-- Behind the end of a line, if one is here. -/
def skipBreak (c : Cursor) : Cursor := (c.lineBreak?.map Prod.snd).getD c

/-- Goes on only where it is known what the next `n` characters are. -/
def knownFor (n : Nat) (c : Cursor) : Except Fault Unit :=
  match c.stop with
  | none => .ok ()
  | some f => if (c.take n).length < n then .error f else .ok ()

/-- Goes on only where it is known what comes next. -/
def known (c : Cursor) : Except Fault Unit := c.knownFor 1

/-- Whether three marks and a gap behind them separate documents here. -/
def separates (c : Cursor) : Except Fault Bool := do
  c.knownFor 3
  if c.take 3 = ['-', '-', '-'] ∨ c.take 3 = ['.', '.', '.'] then
    c.knownFor 4
    return isGap (c.peek 3)
  else return false

/-- A problem at this place, if it is known what comes next. -/
def fail {α : Type} (c : Cursor) (cause : Cause) : Except Fault α := do
  c.known
  throw (.problem cause (some (c.line, c.column)))

end Cursor

end DesignTokens.Yaml
