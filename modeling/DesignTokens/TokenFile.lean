import DesignTokens.Entry
import DesignTokens.Files.Basic
import DesignTokens.Json.Reader
import DesignTokens.Text.Utf8

/-!
# TokenFile — reading token files

A token file is a JSON object from keys to entries.  A file that is none, or that cannot be read,
ends the run.  Keys and values are texts of characters: half of a surrogate pair alone is none, and
a file that writes one is not read as it stands (`Json.unitChar`).
-/

namespace DesignTokens

open Text

/-- Why a token file cannot be used. -/
inductive TokenFileFault where
  | notFound (path : Path)
  /-- The system does not say what stands at the path. -/
  | refused (path : Path) (e : SystemError)
  | unreadable (path : Path) (f : ReadFault)
  | undecodable (path : Path) (e : Utf8Error)
  | malformed (path : Path) (cause : Json.Cause) (place : Position)
  | notAnObject (path : Path)
  /-- A whole number in it has too many digits. -/
  | digits (e : TooManyDigits)
  /-- Its arrays and objects lie too deep in one another. -/
  | tooDeep (c : Json.Container)
  deriving DecidableEq, Repr

/-- The wording of a fault. -/
def TokenFileFault.message : TokenFileFault → String
  | .notFound path => "Token file not found: " ++ path.text
  | .refused path e => e.messageAt path
  | .unreadable path f => "Cannot read token file " ++ path.text ++ ": " ++ f.message path
  | .undecodable path e => "Cannot read token file " ++ path.text ++ ": " ++ e.message
  | .malformed path cause place =>
    "Malformed JSON in " ++ path.text ++ ": " ++ (Json.ReadError.malformed cause place).message
  | .notAnObject path => "Token file " ++ path.text ++ " must contain a JSON object"
  | .digits e => e.message
  | .tooDeep c => c.tooDeepMessage

namespace TokenFile

/-- The keys of a token file with their entries. -/
abbrev Entries := List (String × Json.Value)

/-- The entries in the bytes of the token file at a path, read with room for so many arrays and
objects in one another. -/
def ofBytes (room : Nat) (path : Path) (bytes : List UInt8) : Except TokenFileFault Entries :=
  match decodeUtf8 bytes with
  | .error e => .error (.undecodable path e)
  | .ok cs =>
    match Json.read room (unifyNewlines cs) with
    | .error (.malformed cause place) => .error (.malformed path cause place)
    | .error (.digits e) => .error (.digits e)
    | .error (.tooDeep c) => .error (.tooDeep c)
    | .ok (.object members) => .ok members
    | .ok _ => .error (.notAnObject path)

/-- Reads the token file at a path. -/
def read (fs : Files) (path : Path) : Except TokenFileFault Entries :=
  match fs.isA .file path with
  | .error e => .error (.refused path e)
  | .ok false => .error (.notFound path)
  | .ok true =>
    match fs.read path with
    | .error f => .error (.unreadable path f)
    | .ok bytes => ofBytes fs.nesting path bytes

end TokenFile

end DesignTokens
