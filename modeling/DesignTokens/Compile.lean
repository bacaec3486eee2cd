import DesignTokens.Document
import DesignTokens.Load
import DesignTokens.Schedule.Order

/-!
# Compile — from a directory of token files to a generated file

The tokens of a directory are loaded, put into an order in which each follows its dependencies, and
declared.  What is missing from the output is told by diagnostics: first the entries that made no
token, then the tokens that were skipped for a dependency.
-/

namespace DesignTokens

/-- The outcome of a compilation. -/
structure Compiled where
  loaded : Loaded
  schedule : Schedule
  output : String

/-- Why a directory cannot be compiled. -/
inductive CompileFault where
  | load (e : LoadFault)
  /-- A declaration cannot be written, for tokens that were loaded and scheduled. -/
  | render (loaded : Loaded) (schedule : Schedule) (e : RenderFault)

/-- The wording of a fault. -/
def CompileFault.message : CompileFault → String
  | .load e => e.message
  | .render _ _ e => e.message

/-- The diagnostic of a skipped key. -/
def skipDiagnostic (table : TokenTable) (key dep : String) : Diagnostic :=
  ⟨key, skipMessage key dep, (table.get? key).bind Token.source⟩

/-- The tokens of a table in the order of a schedule. -/
def Schedule.tokens (s : Schedule) (table : TokenTable) : List Token := s.order.filterMap table.get?

namespace Compiled

/-- The declared tokens, in order. -/
def tokens (c : Compiled) : List Token := c.schedule.tokens c.loaded.table

/-- What is missing from the output, and why. -/
def diagnostics (c : Compiled) : List Diagnostic :=
  c.loaded.diagnostics ++
    c.schedule.skipped.entries.map fun e => skipDiagnostic c.loaded.table e.1 e.2

/-- The keys of the diagnostics. -/
def dropped (c : Compiled) : List String := c.diagnostics.map Diagnostic.key

/-- How many keys were read. -/
def keysRead (c : Compiled) : Nat := c.loaded.keysRead

end Compiled

/-- Compiles the token files of a directory. -/
def compile (fs : Files) (directory : Path) (s : Settings) (time : Timestamp) :
    Except CompileFault Compiled :=
  match load fs directory s with
  | .error e => .error (.load e)
  | .ok loaded =>
    let schedule := loaded.table.graph.schedule
    match emit s.target s.generator.text time (schedule.tokens loaded.table) with
    | .error e => .error (.render loaded schedule e)
    | .ok output => .ok ⟨loaded, schedule, output⟩

/-- Compiles a directory and writes the output, with a line feed after it, at a path that can be
written.  The files are those after the compilation: a compilation that fails leaves them as they
were. -/
def compileTo (fs : Files) (directory : Path) (s : Settings) (time : Timestamp) (out : Path) :
    Except CompileFault Compiled × Files :=
  match compile fs directory s time with
  | .error e => (.error e, fs)
  | .ok c => (.ok c, fs.write out (c.output ++ "\n"))

/-! ## The log -/

/-- A line about a dropped entry. -/
def Diagnostic.logLine (d : Diagnostic) : String :=
  d.message ++ " (" ++ d.source.getD "" ++ ": " ++ d.key ++ ")"

/-- The lines about entries gone through. -/
def occurrenceLog (occurrences : List Occurrence) : List String :=
  (occurrences.filterMap Occurrence.diagnostic?).map Diagnostic.logLine

/-- The lines about a directory that was loaded. -/
def Loaded.log (l : Loaded) : List String :=
  occurrenceLog l.occurrences ++
    ["Loaded " ++ toString l.table.size ++ " tokens from " ++ toString l.files.length ++ " files ("
      ++ toString l.diagnostics.length ++ " dropped)"]

/-- The lines about a schedule. -/
def Schedule.log (s : Schedule) : List String :=
  s.skipped.entries.map (fun e => skipMessage e.1 e.2) ++
    ["Emitting " ++ toString s.order.length ++ " tokens (" ++ toString s.skipped.size
      ++ " unresolved)"]

/-- The lines about a compilation, finished or not. -/
def compileLog : Except CompileFault Compiled → List String
  | .ok c => c.loaded.log ++ c.schedule.log
  | .error (.render loaded schedule _) => loaded.log ++ schedule.log
  | .error (.load (.digits before _)) => occurrenceLog before
  | .error (.load (.file _)) => []

end DesignTokens
