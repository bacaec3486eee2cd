import DesignTokens.CommandLine.Switch

/-!
# CommandLine/Request — what a command line asks for

Switches take effect in the order in which they stand, so a request for help is granted before any
fault behind it.  Of several values for one switch the last counts; of the operands the first is
the directory, and any other is left over.
-/

namespace DesignTokens.CommandLine

/-- What a command line asks to be done. -/
structure Request where
  directory : String
  verbose : Bool
  format : Option OutputFormat
  ns : Option String
  config : Option String
  deriving DecidableEq, Repr

/-- A command line understood so far. -/
structure Draft where
  directory : Option String
  verbose : Bool
  format : Option OutputFormat
  ns : Option String
  config : Option String
  /-- What could not be placed. -/
  leftOver : List String
  deriving DecidableEq, Repr

/-- What ends the reading of a command line early. -/
inductive Ending where
  | help
  | fault (e : UsageFault)
  deriving DecidableEq, Repr

namespace Draft

/-- The empty command line. -/
def empty : Draft :=
  { directory := none, verbose := false, format := none, ns := none, config := none, leftOver := [] }

/-- Puts an argument aside. -/
def leave (d : Draft) (s : String) : Draft := { d with leftOver := d.leftOver ++ [s] }

/-- Grants a switch without a value. -/
def flag (d : Draft) : Switch → Except Ending Draft
  | .verbose => .ok { d with verbose := true }
  | .help => .error .help
  | s => .error (.fault (.missingValue s))

/-- Gives a switch its value. -/
def value (d : Draft) (s : Switch) (v : String) : Except Ending Draft :=
  match s with
  | .format =>
    match OutputFormat.ofName? v with
    | some f => .ok { d with format := some f }
    | none => .error (.fault (.notAChoice s v))
  | .ns => .ok { d with ns := some v }
  | .config => .ok { d with config := some v }
  | .help | .verbose => .error (.fault (.needlessValue s v))

/-- The switches of a run of letters behind a first one, up to a letter that is none; that and what
follows it is left over. -/
def letters (s : Switch) (done : List Switch) :
    List Char → Except UsageFault (List Switch × Option String)
  | [] => .ok (done ++ [s], none)
  | c :: rest =>
    if c = '-' then .error (.needlessValue s (String.ofList (c :: rest)))
    else
      match Spelling.letter? c with
      | none => .ok (done ++ [s], some (String.ofList ('-' :: c :: rest)))
      | some p =>
        match rest with
        | '=' :: v => .error (.needlessValue p.switch (String.ofList v))
        | _ => letters p.switch (done ++ [s]) rest

/-- Grants a switch that takes no value, and the letters behind it. -/
def flags (d : Draft) (n : Naming) : Except Ending Draft :=
  match n.attached with
  | .nothing => d.flag n.spelling.switch
  | .equals v => .error (.fault (.needlessValue n.spelling.switch (String.ofList v)))
  | .glued v =>
    match letters n.spelling.switch [] v with
    | .error e => .error (.fault e)
    | .ok (switches, left) => switches.foldlM flag (left.elim d d.leave)

/-- Understands the rest of a command line. -/
def read (d : Draft) : List Argument → Except Ending Draft
  | [] => .ok d
  | .mark :: .operand s :: rest =>
    match d.directory with
    | none => read { d with directory := some s } rest
    | some _ => read ((d.leave "--").leave s) rest
  | .mark :: rest => read (d.leave "--") rest
  | .operand s :: .mark :: rest =>
    match d.directory with
    | none => read { d with directory := some s } rest
    | some _ => read ((d.leave s).leave "--") rest
  | .operand s :: rest =>
    match d.directory with
    | none => read { d with directory := some s } rest
    | some _ => read (d.leave s) rest
  | .unknown s :: rest => read (d.leave s) rest
  | .switch n :: rest =>
    if n.spelling.switch.takesValue then
      match n.attached, rest with
      | .equals v, rest | .glued v, rest =>
        match d.value n.spelling.switch (String.ofList v) with
        | .error e => .error e
        | .ok d => read d rest
      | .nothing, .operand s :: rest =>
        match d.value n.spelling.switch s with
        | .error e => .error e
        | .ok d => read d rest
      | .nothing, _ => .error (.fault (.missingValue n.spelling.switch))
    else
      match d.flags n with
      | .error e => .error e
      | .ok d => read d rest

/-- The request of a command line that was understood to its end. -/
def finish (d : Draft) : Except UsageFault Request :=
  match d.directory with
  | none => .error .noDirectory
  | some directory =>
    if d.leftOver.isEmpty then
      .ok { directory, verbose := d.verbose, format := d.format, ns := d.ns, config := d.config }
    else .error (.leftOver d.leftOver)

end Draft

/-- What a list of arguments asks for. -/
def Request.ofArguments (arguments : List String) : Except Ending Request :=
  match Argument.ofTexts arguments with
  | .error e => .error (.fault e)
  | .ok as =>
    match Draft.empty.read as with
    | .error e => .error e
    | .ok d =>
      match d.finish with
      | .error e => .error (.fault e)
      | .ok r => .ok r

end DesignTokens.CommandLine
