import DesignTokens.Target.Basic
import DesignTokens.Timestamp
import DesignTokens.Token

/-!
# Document — the generated file

A header of five comment lines, which names the generator and the time, and one declaration for
each token in the order given.  For the same tokens only the line with the time can differ.
-/

namespace DesignTokens

/-- The header of a document. -/
def header (generator : String) (time : Timestamp) : String :=
  "# This file is generated from Adobe Spectrum design tokens.\n"
    ++ "# Source: https://github.com/adobe/spectrum-tokens\n"
    ++ "# Copyright 2017 Adobe Systems Incorporated\n"
    ++ "# Licensed under Apache License 2.0\n"
    ++ "# Generated by " ++ generator ++ " on " ++ time.text

/-- The declaration of a token. -/
def Token.declaration (t : Target) (token : Token) : Rendered :=
  t.declaration token.key (token.value.render t)

/-- The document that declares tokens in the order given. -/
def emit (t : Target) (generator : String) (time : Timestamp) (tokens : List Token) : Rendered := do
  let declarations ← tokens.mapM (·.declaration t)
  t.document (header generator time) declarations

end DesignTokens
