import DesignTokens.Target.Format
import DesignTokens.Text.Digit
import DesignTokens.Text.Quoted

/-!
# CommandLine/Switch — switches and the arguments that name them

A switch has one or more spellings; a long spelling may be cut short as long as it stays the only
one that the cut begins.  A value may be attached to a spelling by an equals sign, and to a single
letter directly.

* `Argument.ofText` — what one argument is: an operand, a switch, or neither.
-/

namespace DesignTokens.CommandLine

open Text

/-- The switches of the command line. -/
inductive Switch where
  | help
  | verbose
  | format
  | ns
  | config
  deriving DecidableEq, Repr

namespace Switch

/-- All switches, in the order in which they are offered. -/
def all : List Switch := [.help, .verbose, .format, .ns, .config]

/-- The spellings of a switch. -/
def spellings : Switch → List String
  | .help => ["-h", "--help"]
  | .verbose => ["-v", "--verbose", "-verbose"]
  | .format => ["--format"]
  | .ns => ["--namespace"]
  | .config => ["--config"]

/-- Whether a switch comes with a value. -/
def takesValue : Switch → Bool
  | .help | .verbose => false
  | .format | .ns | .config => true

/-- A switch as messages name it. -/
def name (s : Switch) : String := "/".intercalate s.spellings

end Switch

/-- A spelling of a switch. -/
structure Spelling where
  text : String
  switch : Switch
  deriving DecidableEq, Repr

namespace Spelling

/-- All spellings. -/
def all : List Spelling := Switch.all.flatMap fun s => s.spellings.map (⟨·, s⟩)

/-- The spelling that a text is. -/
def find? (text : String) : Option Spelling := all.find? fun p => p.text == text

/-- Whether a spelling starts with two dashes. -/
def isLong (p : Spelling) : Bool := "--".toList.isPrefixOf p.text.toList

/-- The spelling of one letter. -/
def letter? (c : Char) : Option Spelling := find? (String.ofList ['-', c])

end Spelling

/-- A value in the argument of a switch. -/
inductive Attached where
  | nothing
  /-- After an equals sign. -/
  | equals (value : List Char)
  /-- Right after a single letter. -/
  | glued (value : List Char)
  deriving DecidableEq, Repr

/-- A switch that an argument may name. -/
structure Naming where
  spelling : Spelling
  attached : Attached
  deriving DecidableEq, Repr

/-- What an argument is. -/
inductive Argument where
  | operand (text : String)
  | switch (n : Naming)
  /-- A switch that there is not. -/
  | unknown (text : String)
  /-- The mark after which everything is an operand. -/
  | mark
  deriving DecidableEq, Repr

/-- Why the command line is not understood. -/
inductive UsageFault where
  | ambiguous (argument : String) (spellings : List String)
  | missingValue (s : Switch)
  /-- A value for a switch that takes none. -/
  | needlessValue (s : Switch) (value : String)
  | notAChoice (s : Switch) (value : String)
  | noDirectory
  | leftOver (arguments : List String)
  deriving DecidableEq, Repr

/-- The wording of a fault. -/
def UsageFault.message : UsageFault → String
  | .ambiguous argument spellings =>
    "ambiguous option: " ++ argument ++ " could match " ++ ", ".intercalate spellings
  | .missingValue s => "argument " ++ s.name ++ ": expected one argument"
  | .needlessValue s value =>
    "argument " ++ s.name ++ ": ignored explicit argument " ++ quoted value
  | .notAChoice s value =>
    "argument " ++ s.name ++ ": invalid choice: " ++ quoted value ++ " (choose from "
      ++ ", ".intercalate (OutputFormat.all.map fun f => quoted f.name) ++ ")"
  | .noDirectory => "the following arguments are required: token_dir"
  | .leftOver arguments => "unrecognized arguments: " ++ " ".intercalate arguments

namespace Argument

/-- A text before and after its first equals sign, if it has one. -/
def cut (cs : List Char) : List Char × Attached :=
  match cs.dropWhile (· ≠ '=') with
  | [] => (cs, .nothing)
  | _ :: value => (cs.takeWhile (· ≠ '='), .equals value)

/-- What an argument with two dashes can be short for. -/
def longNamings (cs : List Char) : List Naming :=
  let (start, attached) := cut cs
  (Spelling.all.filter fun p => start.isPrefixOf p.text.toList).map (⟨·, attached⟩)

/-- What an argument with one dash can be short for: a letter with what is glued to it, or a
spelling that it begins. -/
def shortNamings (cs : List Char) : List Naming :=
  Spelling.all.filterMap fun p =>
    if p.text.toList = cs.take 2 then some ⟨p, .glued (cs.drop 2)⟩
    else if cs.isPrefixOf p.text.toList then some ⟨p, .nothing⟩
    else none

/-- All switches that an argument which is no full spelling can be short for. -/
def namings (cs : List Char) : List Naming :=
  if "--".toList.isPrefixOf cs then longNamings cs else shortNamings cs

/-- Whether a text is a negative number: a dash and digits, with at most one point and a digit
behind it; a line feed may end it. -/
def isNegative (cs : List Char) : Bool :=
  match cs with
  | '-' :: rest =>
    let rest := if rest.getLast? = some '\n' then rest.dropLast else rest
    match rest.dropWhile isDigit with
    | [] => !rest.isEmpty
    | '.' :: fraction => !fraction.isEmpty && fraction.all isDigit
    | _ => false
  | _ => false

/-- An argument that starts with a dash and goes on, as far as it is a full spelling. -/
def full? (s : String) : Option Argument :=
  match Spelling.find? s with
  | some p => some (.switch ⟨p, .nothing⟩)
  | none =>
    match cut s.toList with
    | (_, .nothing) => none
    | (start, attached) =>
      (Spelling.find? (String.ofList start)).map fun p => .switch ⟨p, attached⟩

/-- What an argument is, when it is not the mark. -/
def ofText (s : String) : Except UsageFault Argument :=
  match s.toList with
  | '-' :: _ :: _ =>
    match full? s with
    | some a => .ok a
    | none =>
      match namings s.toList with
      | [n] => .ok (.switch n)
      | n :: m :: more =>
        .error (.ambiguous s ((n :: m :: more).map fun n => n.spelling.text))
      | [] =>
        .ok (if isNegative s.toList || s.toList.contains ' ' then .operand s else .unknown s)
  | _ => .ok (.operand s)

/-- What the arguments are, in order. -/
def ofTexts : List String → Except UsageFault (List Argument)
  | [] => .ok []
  | s :: rest =>
    if s = "--" then .ok (.mark :: rest.map .operand)
    else do
      let a ← ofText s
      return a :: (← ofTexts rest)

end Argument

end DesignTokens.CommandLine
