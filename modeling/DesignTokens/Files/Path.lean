import DesignTokens.Text.Pieces

/-!
# Files/Path — paths

A path starts at a root or where the program runs, and goes on through names.  Empty names and the
name `.` go nowhere and are left out; `..` is kept, since where it leads depends on what is there.
A path that starts at a root leaves nothing of the one before it.
-/

namespace DesignTokens

open Text

/-- Where a path starts. -/
inductive PathStart where
  /-- Where the program runs. -/
  | here
  | root
  /-- Two slashes, which may mean another root. -/
  | doubleRoot
  deriving DecidableEq, Repr

/-- A path. -/
structure Path where
  start : PathStart
  parts : List String
  deriving DecidableEq, Repr

namespace Path

/-- Where a text that is a path starts: more than two slashes count as one. -/
def startOf : List Char → PathStart
  | '/' :: '/' :: '/' :: _ => .root
  | '/' :: '/' :: _ => .doubleRoot
  | '/' :: _ => .root
  | _ => .here

/-- Whether a name leads somewhere. -/
def leads (name : String) : Bool := name != "" && name != "."

/-- The path that a text gives. -/
def ofText (s : String) : Path :=
  { start := startOf s.toList
    parts := ((pieces '/' s.toList).map String.ofList).filter leads }

/-- The path as messages show it. -/
def text (p : Path) : String :=
  let names := "/".intercalate p.parts
  match p.start with
  | .here => if p.parts.isEmpty then "." else names
  | .root => "/" ++ names
  | .doubleRoot => "//" ++ names

/-- The path `q` followed from where `p` leads. -/
def join (p q : Path) : Path :=
  match q.start with
  | .here => { p with parts := p.parts ++ q.parts }
  | .root | .doubleRoot => q

end Path

end DesignTokens
