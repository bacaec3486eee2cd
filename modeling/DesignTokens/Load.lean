import DesignTokens.Key
import DesignTokens.Reading
import DesignTokens.Settings.Basic
import DesignTokens.TokenFile

/-!
# Load — from a directory of token files to a table of tokens

All files of the plan are read before any token is made.  The entries of each file are then gone
through in the order of keys, and each one is **stored, dropped with a diagnostic, or ignored**.  A
key that is stored again keeps its place in the table and takes the later token.

What is said of entries and their number is said of those that the reader of the files gives, which
are those in the file wherever no half of a surrogate pair stands alone in it.
-/

namespace DesignTokens

open Text

/-- What became of one entry of one file. -/
inductive Occurrence where
  | stored (token : Token)
  | dropped (d : Diagnostic)
  /-- The entry contributes nothing. -/
  | ignored (key : String)

namespace Occurrence

/-- The token that was stored. -/
def token? : Occurrence → Option Token
  | .stored token => some token
  | .dropped _ | .ignored _ => none

/-- The diagnostic that was made. -/
def diagnostic? : Occurrence → Option Diagnostic
  | .dropped d => some d
  | .stored _ | .ignored _ => none

end Occurrence

/-- A token file of the plan that was read. -/
structure PlannedFile where
  name : String
  category : Category
  entries : TokenFile.Entries

/-- Entries gone through, up to the first one that stops the run if there is such a one. -/
structure Walk where
  occurrences : List Occurrence
  stop : Option TooManyDigits

namespace PlannedFile

/-- What becomes of an entry. -/
def occurrence (flag : String) (file : PlannedFile) (key : String) (entry : Json.Value) :
    Except TooManyDigits Occurrence :=
  match file.category.read flag key entry with
  | .ok (some value) =>
    .ok (.stored
      { key, value, category := file.category, raw := entry, source := some file.name,
        dependencies := value.dependencies flag })
  | .ok none => .ok (.ignored key)
  | .error (.rejected r) => .ok (.dropped ⟨key, r.message, some file.name⟩)
  | .error (.digits e) => .error e

/-- Goes through the entries of some keys. -/
def walkKeys (flag : String) (file : PlannedFile) : List String → Walk
  | [] => ⟨[], none⟩
  | key :: rest =>
    match file.occurrence flag key ((Entries.get? key file.entries).getD .null) with
    | .error e => ⟨[], some e⟩
    | .ok o =>
      let w := file.walkKeys flag rest
      ⟨o :: w.occurrences, w.stop⟩

/-- Goes through all entries, in the order of their keys. -/
def walk (flag : String) (file : PlannedFile) : Walk :=
  match Key.sort (file.entries.map Prod.fst) with
  | .error e => ⟨[], some e⟩
  | .ok keys => file.walkKeys flag keys

end PlannedFile

/-- Goes through files, one after the other. -/
def walkFiles (flag : String) : List PlannedFile → Walk
  | [] => ⟨[], none⟩
  | file :: rest =>
    let w := file.walk flag
    match w.stop with
    | some _ => w
    | none =>
      let more := walkFiles flag rest
      ⟨w.occurrences ++ more.occurrences, more.stop⟩

/-- What was made of the files of a plan. -/
structure Loaded where
  files : List PlannedFile
  occurrences : List Occurrence

namespace Loaded

/-- The tokens by their keys. -/
def table (l : Loaded) : TokenTable := .ofList (l.occurrences.filterMap Occurrence.token?)

/-- The dropped entries, in the order in which they were found. -/
def diagnostics (l : Loaded) : List Diagnostic := l.occurrences.filterMap Occurrence.diagnostic?

/-- How many keys were read. -/
def keysRead (l : Loaded) : Nat := l.occurrences.length

end Loaded

/-- Why a directory cannot be loaded. -/
inductive LoadFault where
  | file (e : TokenFileFault)
  /-- A number of too many digits, with what had been gone through before it. -/
  | digits (before : List Occurrence) (e : TooManyDigits)

/-- The wording of a fault. -/
def LoadFault.message : LoadFault → String
  | .file e => e.message
  | .digits _ e => e.message

/-- Reads the files of a plan, in order. -/
def readPlan (fs : Files) (directory : Path) :
    List (String × Category) → Except TokenFileFault (List PlannedFile)
  | [] => .ok []
  | (name, category) :: rest => do
    let entries ← TokenFile.read fs (directory.join (.ofText name))
    return ⟨name, category, entries⟩ :: (← readPlan fs directory rest)

/-- Loads a directory. -/
def load (fs : Files) (directory : Path) (s : Settings) : Except LoadFault Loaded :=
  match readPlan fs directory s.plan with
  | .error e => .error (.file e)
  | .ok files =>
    let w := walkFiles s.flag.text files
    match w.stop with
    | some e => .error (.digits w.occurrences e)
    | none => .ok ⟨files, w.occurrences⟩

end DesignTokens
