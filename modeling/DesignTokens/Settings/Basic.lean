import DesignTokens.Target.Format
import DesignTokens.Text.Space
import DesignTokens.Token

/-!
# Settings/Basic — the settings of a run

Which files are read, as what, and how the output is written.  The names that end up in generated
code are never blank, and their type says so.
-/

namespace DesignTokens

/-- A text with more in it than white space. -/
structure Label where
  text : String
  not_blank : Text.isBlank text = false
  deriving DecidableEq

/-- The label with a given text, if that is not blank. -/
def Label.ofText? (s : String) : Option Label :=
  if h : Text.isBlank s = false then some ⟨s, h⟩ else none

/-- The settings of a run. -/
structure Settings where
  /-- The namespace that the generated variables live in. -/
  ns : Label
  /-- The flag of the runtime that chooses between dark and light. -/
  flag : Label
  format : OutputFormat
  /-- The name of the generator, for the header. -/
  generator : Label
  colorFiles : List String
  layoutFiles : List String
  typographyFiles : List String
  deriving DecidableEq

namespace Settings

/-- The settings for the files as they are published. -/
def standard : Settings :=
  { ns := ⟨"::spectrum", by decide⟩
    flag := ⟨"darkmode", by decide⟩
    format := .tcl
    generator := ⟨"spectrum-tokens", by decide⟩
    colorFiles :=
      ["color-palette.json", "semantic-color-palette.json", "color-aliases.json",
       "color-component.json", "icons.json"]
    layoutFiles := ["layout.json", "layout-component.json"]
    typographyFiles := ["typography.json"] }

instance : Inhabited Settings := ⟨standard⟩

/-- The files to read, in order, each with the category of its tokens: colours, then layout, then
typography. -/
def plan (s : Settings) : List (String × Category) :=
  s.colorFiles.map (·, .color) ++ s.layoutFiles.map (·, .layout) ++ s.typographyFiles.map (·, .font)

/-- The target that the output is written for. -/
def target (s : Settings) : Target := s.format.target s.ns.text

end Settings

end DesignTokens
