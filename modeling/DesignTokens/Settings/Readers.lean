import DesignTokens.Settings.Fields
import DesignTokens.Settings.File
import DesignTokens.Yaml.Data

/-!
# Settings/Readers — the libraries that the program runs with

The reader of YAML and the check of fields, made into the libraries that the loading of settings
asks for.  **Nothing that is said of loading depends on them.**
-/

namespace DesignTokens

open Settings

/-- What a YAML value gives where a text is wanted. -/
def Datum.ofYaml : Yaml.Value → Datum
  | .text s => .text s
  | .halfText _ => .halfText
  | .bytes b => .bytes b
  | _ => .other

/-- What a YAML value gives for a field. -/
def Setting.ofYaml (data : Yaml.Data) (v : Yaml.Value) : Setting :=
  match data.contents? v with
  | some (.sequence items) => .list (items.map .ofYaml)
  | _ => .single (.ofYaml v)

namespace Yaml

/-- The name that a value is. -/
def Value.name? : Value → Option String
  | .text s | .halfText s => some s
  | _ => none

/-- The words for a problem and its place. -/
def problemWords (cause : Cause) : Option (Nat × Nat) → String
  | none => cause.message
  | some (line, column) =>
    cause.message ++ ", line " ++ toString (line + 1) ++ ", column " ++ toString (column + 1)

/-- What a document holds. -/
def Data.content (data : Data) : Content String Setting :=
  match data.root, data.contents? data.root with
  | .null, _ => .nothing
  | _, some (.mapping pairs) => .mapping (pairs.map fun p => (p.1.name?, .ofYaml data p.2))
  | _, _ => .other

/-- Reads a stream as YAML; a stream that breaks off is not looked at. -/
def safeLoad (stream : Stream) : Except Raised (Content String Setting) :=
  match stream.fault with
  | some e => .error (.system e.message)
  | none =>
    match Data.ofBytes? stream.bytes with
    | .error (.undecodable e) => .error (.other e.message)
    | .error (.problem cause place) => .error (.yaml (problemWords cause place))
    | .error (.value e) => .error (.other e.message)
    | .ok none => .ok .nothing
    | .ok (some data) => .ok data.content

end Yaml

namespace Settings

/-- The settings that fields give. -/
def validate (fields : Fields) : Except Raised Settings :=
  match ofFields fields with
  | .ok s => .ok s
  | .error issues => .error (.validation ("; ".intercalate (issues.map Issue.message)))

/-- The libraries that the program runs with. -/
def readers : Libraries String Setting where
  name := id
  text := .ofText
  safeLoad := Yaml.safeLoad
  validate := validate

end Settings

end DesignTokens
