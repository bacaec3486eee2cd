import DesignTokens.CommandLine.Help
import DesignTokens.CommandLine.Request
import DesignTokens.Compile
import DesignTokens.Settings.File

/-!
# CommandLine/Run — one run of the program

A run is a function of its libraries, the files it sees, the time and its arguments.  It ends with a
status, or is **broken off** by a fault that it does not account for to its user.  The output goes
to the standard output only when all of it is there.
-/

namespace DesignTokens.CommandLine

/-- Why there is no output. -/
inductive Failure where
  /-- The system does not say what stands at the path of the token directory. -/
  | refused (directory : Path) (e : SystemError)
  | settings (e : SettingsFault)
  | compile (e : CompileFault)

namespace Failure

/-- The wording of a failure. -/
def message : Failure → String
  | .refused directory e => e.messageAt directory
  | .settings e => e.message
  | .compile e => e.message

/-- Whether a failure is told to the user; any other breaks the run off. -/
def isTold : Failure → Bool
  | .settings (.unreadable _ _) | .settings (.notYaml _ _) | .settings (.notAMapping _)
  | .settings (.invalid _) => true
  | .settings .noSuchPath | .settings .unnamed | .settings (.raised _) => false
  | .refused _ _ | .compile (.load (.file (.refused _ _))) | .compile (.load (.file (.digits _)))
  | .compile (.load (.file (.tooDeep _))) => false
  | .compile (.load (.file _)) => true
  | .compile (.load (.digits _ _)) | .compile (.render _ _ _) => false

end Failure

/-- How a run ends. -/
inductive Ended where
  | status (n : Nat)
  | broken (f : Failure)

/-- What a run leaves behind. -/
structure Outcome where
  stdout : String
  stderr : String
  ended : Ended

/-- Lines, each with its line feed. -/
def lines (ls : List String) : String := String.join (ls.map (· ++ "\n"))

namespace Request

/-- The path of the token directory. -/
def directoryPath (r : Request) : Path := .ofText r.directory

/-- The path of the settings file, if one is named. -/
def configPath? (r : Request) : Option Path := r.config.map .ofText

section

variable {ν α : Type} [DecidableEq ν]

/-- The settings given on the command line. -/
def overrides (r : Request) (lib : Settings.Libraries ν α) : Settings.Overrides ν α :=
  [(lib.name "output_format", r.format.map fun f => lib.text f.name),
   (lib.name "namespace", r.ns.map lib.text)]

/-- The settings of the run. -/
def settings (r : Request) (lib : Settings.Libraries ν α) (fs : Files) :
    Except SettingsFault Settings :=
  Settings.load lib fs r.configPath? (r.overrides lib)

/-- The lines about the settings file. -/
def settingsLog (r : Request) (lib : Settings.Libraries ν α) (fs : Files) : List String :=
  match r.configPath? with
  | none => []
  | some path =>
    match Settings.readFile lib fs path with
    | .ok _ => ["Loaded config from " ++ path.text]
    | .error _ => []

/-- The outcome when the run fails after some lines of log. -/
def fail (r : Request) (log : List String) (f : Failure) : Outcome :=
  let told := lines (if r.verbose then log else [])
  if f.isTold then ⟨"", told ++ f.message ++ "\n", .status 1⟩ else ⟨"", told, .broken f⟩

/-- Does what was asked for. -/
def run (r : Request) (lib : Settings.Libraries ν α) (fs : Files) (time : Timestamp) : Outcome :=
  match fs.isA .directory r.directoryPath with
  | .error e => r.fail [] (.refused r.directoryPath e)
  | .ok false => ⟨"", "\"" ++ r.directory ++ "\" must be a valid directory\n", .status 1⟩
  | .ok true =>
    match r.settings lib fs with
    | .error e => r.fail (r.settingsLog lib fs) (.settings e)
    | .ok s =>
      let result := compile fs r.directoryPath s time
      let log := r.settingsLog lib fs ++ compileLog result
      match result with
      | .error e => r.fail log (.compile e)
      | .ok c => ⟨c.output ++ "\n", lines (if r.verbose then log else []), .status 0⟩

/-- The paths that are looked at before the settings are known. -/
def firstPaths (r : Request) : List Path := r.directoryPath :: r.configPath?.toList

/-- The paths that are looked at once the settings are known. -/
def plannedPaths (r : Request) (lib : Settings.Libraries ν α) (fs : Files) : List Path :=
  match r.settings lib fs with
  | .error _ => []
  | .ok s => s.plan.map fun e => r.directoryPath.join (.ofText e.1)

end

end Request

/-- Runs the program. -/
def run {ν α : Type} [DecidableEq ν] (lib : Settings.Libraries ν α) (fs : Files) (time : Timestamp)
    (arguments : List String) : Outcome :=
  match Request.ofArguments arguments with
  | .error .help => ⟨help, "", .status 0⟩
  | .error (.fault e) => ⟨"", e.report, .status 1⟩
  | .ok r => r.run lib fs time

end DesignTokens.CommandLine
