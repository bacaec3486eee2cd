import DesignTokens.OrderedMap
import DesignTokens.Settings.Basic
import DesignTokens.Text.Utf8

/-!
# Settings/Fields — settings from named fields

The check of fields that the program runs with.  Settings are given as fields by name, and those
that are not given keep their standard value.  **Every** field that cannot be taken is reported: the
known ones in their own order, then the unknown ones as they came.
-/

namespace DesignTokens

/-- What is given where a text is wanted. -/
inductive Datum where
  | text (s : String)
  /-- Bytes, which are taken for the text that they are in UTF-8. -/
  | bytes (b : List UInt8)
  /-- A text that is none of characters. -/
  | halfText
  | other
  deriving DecidableEq, Repr

/-- What is given for a field. -/
inductive Setting where
  | single (d : Datum)
  | list (items : List Datum)
  deriving DecidableEq, Repr

/-- The setting that is a text. -/
def Setting.ofText (s : String) : Setting := .single (.text s)

/-- What is wrong with a field. -/
inductive Complaint where
  | notText
  /-- Bytes that are no text, or a text that is none of characters. -/
  | undecodable
  | blank
  | notAFormat
  | notAList
  | unknown
  /-- Settings that were made do not change. -/
  | fixed
  deriving DecidableEq, Repr

/-- The wording of a complaint. -/
def Complaint.message : Complaint → String
  | .notText => "Input should be a valid string"
  | .undecodable => "Input should be a valid string, unable to parse raw data as a unicode string"
  | .blank => "Value error, must not be blank"
  | .notAFormat =>
    "Input should be " ++ " or ".intercalate (OutputFormat.all.map fun f => "'" ++ f.name ++ "'")
  | .notAList => "Input should be a valid list"
  | .unknown => "Extra inputs are not permitted"
  | .fixed => "Instance is frozen"

/-- A complaint with the path to what it is about: a field, or an item of one. -/
structure Issue where
  path : List String
  complaint : Complaint
  deriving DecidableEq, Repr

/-- The path of an issue as one text. -/
def Issue.place (i : Issue) : String := ".".intercalate i.path

/-- The issue in words. -/
def Issue.message (i : Issue) : String := i.place ++ ": " ++ i.complaint.message

/-- What a field gives, or the issues with it. -/
abbrev Checked (α : Type) := Except (List Issue) α

/-- The issues that were found. -/
def Checked.issues {α : Type} : Checked α → List Issue
  | .ok _ => []
  | .error issues => issues

namespace Settings

/-- The fields that settings are made of. -/
abbrev Fields := OrderedMap String Setting

/-- Takes a field by a reader, or its standard value where it is not given. -/
def field {α : Type} (fields : Fields) (name : String) (standard : α)
    (read : Setting → Checked α) : Checked α :=
  match fields.get? name with
  | none => .ok standard
  | some s => read s

/-- The text that is given, if one is. -/
def readText : Datum → Except Complaint String
  | .text s => .ok s
  | .bytes b =>
    match Text.decodeUtf8 b with
    | .ok cs => .ok (String.ofList cs)
    | .error _ => .error .undecodable
  | .halfText => .error .undecodable
  | .other => .error .notText

/-- The label that is given, if one is. -/
def labelOf (d : Datum) : Except Complaint Label := do
  match Label.ofText? (← readText d) with
  | some l => return l
  | none => throw .blank

/-- A field that is a label. -/
def readLabel (name : String) : Setting → Checked Label
  | .single d =>
    match labelOf d with
    | .ok l => .ok l
    | .error c => .error [⟨[name], c⟩]
  | .list _ => .error [⟨[name], .notText⟩]

/-- A field that is an output format, which only a text names. -/
def readFormat (name : String) : Setting → Checked OutputFormat
  | .single (.text s) =>
    match OutputFormat.ofName? s with
    | some f => .ok f
    | none => .error [⟨[name], .notAFormat⟩]
  | .single _ | .list _ => .error [⟨[name], .notAFormat⟩]

/-- The issues with the items of a list, counted from `n`. -/
def itemIssues (name : String) : Nat → List Datum → List Issue
  | _, [] => []
  | n, d :: rest =>
    match readText d with
    | .ok _ => itemIssues name (n + 1) rest
    | .error c => ⟨[name, toString n], c⟩ :: itemIssues name (n + 1) rest

/-- A field that is a list of texts. -/
def readTexts (name : String) : Setting → Checked (List String)
  | .list items =>
    match itemIssues name 0 items with
    | [] => .ok (items.filterMap fun d => (readText d).toOption)
    | issues => .error issues
  | .single _ => .error [⟨[name], .notAList⟩]

/-- The names of the fields, in order. -/
def fieldNames : List String :=
  ["namespace", "dark_mode_key", "output_format", "generator_name", "color_files", "layout_files",
   "typography_files"]

/-- The issues with fields that settings do not have. -/
def unknownIssues (fields : Fields) : List Issue :=
  (fields.keys.filter fun k => !fieldNames.contains k).map fun k => ⟨[k], .unknown⟩

/-- The fields one by one, each taken or with its issues. -/
structure Taken where
  ns : Checked Label
  flag : Checked Label
  format : Checked OutputFormat
  generator : Checked Label
  colorFiles : Checked (List String)
  layoutFiles : Checked (List String)
  typographyFiles : Checked (List String)
  unknown : List Issue

/-- Takes the fields one by one. -/
def take (fields : Fields) : Taken :=
  let label (name : String) (l : Label) := field fields name l (readLabel name)
  let texts (name : String) (l : List String) := field fields name l (readTexts name)
  { ns := label "namespace" standard.ns
    flag := label "dark_mode_key" standard.flag
    format := field fields "output_format" standard.format (readFormat "output_format")
    generator := label "generator_name" standard.generator
    colorFiles := texts "color_files" standard.colorFiles
    layoutFiles := texts "layout_files" standard.layoutFiles
    typographyFiles := texts "typography_files" standard.typographyFiles
    unknown := unknownIssues fields }

/-- All issues, in the order in which they are reported. -/
def Taken.issues (t : Taken) : List Issue :=
  t.ns.issues ++ t.flag.issues ++ t.format.issues ++ t.generator.issues ++ t.colorFiles.issues
    ++ t.layoutFiles.issues ++ t.typographyFiles.issues ++ t.unknown

/-- The settings that were taken, if every field was. -/
def Taken.settings? (t : Taken) : Option Settings := do
  let ns ← t.ns.toOption
  let flag ← t.flag.toOption
  let format ← t.format.toOption
  let generator ← t.generator.toOption
  let colorFiles ← t.colorFiles.toOption
  let layoutFiles ← t.layoutFiles.toOption
  let typographyFiles ← t.typographyFiles.toOption
  if t.unknown.isEmpty then
    some { ns, flag, format, generator, colorFiles, layoutFiles, typographyFiles }
  else none

/-- The settings that fields give. -/
def ofFields (fields : Fields) : Checked Settings :=
  let t := take fields
  match t.settings? with
  | some s => .ok s
  | none => .error t.issues

/-- An attempt to change a field of settings that were made; names that start with an underscore
are no fields, and a change of one has no effect. -/
def change (s : Settings) (name : String) : Except Issue Settings :=
  if name.toList.head? = some '_' then .ok s else .error ⟨[name], .fixed⟩

end Settings

end DesignTokens
