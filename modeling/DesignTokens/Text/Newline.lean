/-!
# Text/Newline — line ends and positions

Files are read with one kind of line end: a carriage return with the line feed after it, or alone,
is a line feed.  A place in a text is told by its line, its column and its offset, all counted in
characters, lines and columns from one and offsets from zero.
-/

namespace DesignTokens.Text

/-- The text with every line end written as one line feed. -/
def unifyNewlines : List Char → List Char
  | [] => []
  | '\r' :: '\n' :: rest => '\n' :: unifyNewlines rest
  | '\r' :: rest => '\n' :: unifyNewlines rest
  | c :: rest => c :: unifyNewlines rest

/-- A place in a text. -/
structure Position where
  /-- The line, from one. -/
  line : Nat
  /-- The column, from one. -/
  column : Nat
  /-- How many characters come before. -/
  offset : Nat
  deriving DecidableEq, Repr

/-- The place after the first `offset` characters of a text. -/
def Position.after (text : List Char) (offset : Nat) : Position :=
  let before := text.take offset
  { line := before.count '\n' + 1
    column := (before.reverse.takeWhile (· ≠ '\n')).length + 1
    offset }

/-- The place in words, as messages give it. -/
def Position.describe (p : Position) : String :=
  "line " ++ toString p.line ++ " column " ++ toString p.column ++ " (char " ++ toString p.offset
    ++ ")"

end DesignTokens.Text
