import DesignTokens.Json.Value
import DesignTokens.Number.Spelling
import DesignTokens.Text.Hex

/-!
# Json/Writer — writing JSON

Values are written on one line and in ASCII: a comma and a colon are followed by a blank, and every
character outside the printable ASCII ones is escaped, past U+FFFF by a surrogate pair.
-/

namespace DesignTokens.Json

open Text

/-- Numbers in JSON: the words for infinity and for what is no number are capitalised. -/
def spelling : Spelling := { Spelling.plain with nan := "NaN", infinity := "Infinity" }

/-- A code unit as an escape. -/
def unitEscape (n : Nat) : List Char := '\\' :: 'u' :: hexDigits 4 n

/-- A character inside a string. -/
def escapeChar (c : Char) : List Char :=
  if c = '"' then ['\\', '"']
  else if c = '\\' then ['\\', '\\']
  else if c = '\n' then ['\\', 'n']
  else if c = '\r' then ['\\', 'r']
  else if c = '\t' then ['\\', 't']
  else if c = '\x0c' then ['\\', 'f']
  else if c = '\x08' then ['\\', 'b']
  else if 0x20 ≤ c.toNat ∧ c.toNat ≤ 0x7E then [c]
  else if c.toNat < 0x10000 then unitEscape c.toNat
  else
    let n := c.toNat - 0x10000
    unitEscape (0xD800 + n / 0x400) ++ unitEscape (0xDC00 + n % 0x400)

/-- A string between its quotes. -/
def literal (s : String) : String :=
  String.ofList ('"' :: s.toList.flatMap escapeChar ++ ['"'])

mutual

/-- A value in JSON. -/
def Value.write : Value → String
  | .null => "null"
  | .bool b => if b then "true" else "false"
  | .int n => toString n
  | .float x => spelling.text x
  | .string s => literal s
  | .array items => "[" ++ ", ".intercalate (writeItems items) ++ "]"
  | .object members => "\x7b" ++ ", ".intercalate (writeMembers members) ++ "\x7d"

/-- The items of an array in JSON. -/
def writeItems : List Value → List String
  | [] => []
  | v :: rest => v.write :: writeItems rest

/-- The members of an object in JSON. -/
def writeMembers : List (String × Value) → List String
  | [] => []
  | (name, v) :: rest => (literal name ++ ": " ++ v.write) :: writeMembers rest

end

end DesignTokens.Json
