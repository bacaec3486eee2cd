import DesignTokens.Files.Basic
import DesignTokens.OrderedMap
import DesignTokens.Settings.Basic

/-!
# Settings/File — settings from a file

A settings file is YAML and holds a mapping from names to values; a file without a document counts
as an empty mapping.  Fields given from elsewhere override those of the file and keep their places.

Reading YAML and checking fields is the work of libraries, which are **parameters** here: functions
that return or raise.  Names and values go from one to the other unseen, but for the question
whether a name is a text.
-/

namespace DesignTokens

/-- What a library raises, as far as the loading of settings tells it apart, with its words. -/
inductive Raised where
  /-- An error of the system, met by reading a stream. -/
  | system (words : String)
  /-- The text is not YAML. -/
  | yaml (words : String)
  /-- The fields are no settings. -/
  | validation (words : String)
  | other (words : String)
  deriving DecidableEq, Repr

/-- The words of what is raised. -/
def Raised.words : Raised → String
  | .system words | .yaml words | .validation words | .other words => words

/-- Why there are no settings. -/
inductive SettingsFault where
  /-- The file does not open, or cannot be read to its end. -/
  | unreadable (path : Path) (words : String)
  /-- No file has such a path. -/
  | noSuchPath
  | notYaml (path : Path) (words : String)
  | notAMapping (path : Path)
  /-- A name in the file is no text. -/
  | unnamed
  | invalid (words : String)
  /-- A library raised something else. -/
  | raised (e : Raised)
  deriving DecidableEq, Repr

/-- The wording of a fault. -/
def SettingsFault.message : SettingsFault → String
  | .unreadable path words => "Cannot read config file " ++ path.text ++ ": " ++ words
  | .noSuchPath => "embedded null byte"
  | .notYaml path words => "Invalid YAML in config file " ++ path.text ++ ": " ++ words
  | .notAMapping path => "Config file " ++ path.text ++ " must contain a mapping"
  | .unnamed => "keywords must be strings"
  | .invalid words => "Invalid configuration: " ++ words
  | .raised e => e.words

namespace Settings

variable {ν α : Type}

/-- What a stream of YAML holds.  A name that is no text is none. -/
inductive Content (ν α : Type) where
  /-- No document, or one that is null. -/
  | nothing
  | mapping (pairs : List (Option ν × α))
  | other

/-- The libraries that settings are read and checked with; `ν` are the texts that name fields, and
`α` the values that fields are given. -/
structure Libraries (ν α : Type) where
  /-- The name that a text is. -/
  name : String → ν
  /-- The value that a text is. -/
  text : String → α
  /-- Reads a stream of UTF-8 as YAML. -/
  safeLoad : Stream → Except Raised (Content ν α)
  /-- Makes settings of fields. -/
  validate : OrderedMap ν α → Except Raised Settings

/-- The pairs of a settings file. -/
abbrev Pairs (ν α : Type) := List (Option ν × α)

/-- The pairs of a settings file, from what the reader of YAML makes of it. -/
def pairsOf (path : Path) : Except Raised (Content ν α) → Except SettingsFault (Pairs ν α)
  | .error (.system words) => .error (.unreadable path words)
  | .error (.yaml words) => .error (.notYaml path words)
  | .error e => .error (.raised e)
  | .ok .nothing => .ok []
  | .ok (.mapping pairs) => .ok pairs
  | .ok .other => .error (.notAMapping path)

/-- Reads a settings file. -/
def readFile (lib : Libraries ν α) (fs : Files) (path : Path) :
    Except SettingsFault (Pairs ν α) :=
  if path.text.toList.contains '\x00' then .error .noSuchPath
  else match (fs path).content with
    | .error e => .error (.unreadable path (e.messageAt path))
    | .ok stream => pairsOf path (lib.safeLoad stream)

/-- The fields that the pairs of a file name, if all names are texts. -/
def fileFields? : Pairs ν α → Option (List (ν × α))
  | [] => some []
  | (some name, v) :: rest => (fileFields? rest).map ((name, v) :: ·)
  | (none, _) :: _ => none

/-- Fields given from elsewhere than a file; one without a value overrides nothing. -/
abbrev Overrides (ν α : Type) := List (ν × Option α)

/-- The overrides that have a value. -/
def given (overrides : Overrides ν α) : List (ν × α) :=
  overrides.filterMap fun e => e.2.map (e.1, ·)

variable [DecidableEq ν]

/-- The settings that the pairs of a file and overrides give. -/
def ofPairs (lib : Libraries ν α) (pairs : Pairs ν α) (overrides : Overrides ν α) :
    Except SettingsFault Settings :=
  match fileFields? pairs with
  | none => .error .unnamed
  | some fields =>
    match lib.validate (.ofList (fields ++ given overrides)) with
    | .ok s => .ok s
    | .error (.validation words) => .error (.invalid words)
    | .error e => .error (.raised e)

/-- The settings of a run, from a file if there is one and from overrides. -/
def load (lib : Libraries ν α) (fs : Files) (path : Option Path) (overrides : Overrides ν α) :
    Except SettingsFault Settings := do
  let pairs ← path.elim (.ok []) (readFile lib fs)
  ofPairs lib pairs overrides

end Settings

end DesignTokens
