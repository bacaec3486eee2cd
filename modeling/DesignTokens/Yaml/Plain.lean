import DesignTokens.Text.Digit
import DesignTokens.Yaml.Node

/-!
# Yaml/Plain — the types of plain scalars

The types of plain scalars under YAML 1.1, told by their form alone: `yes` and `off` are booleans,
`010` is an octal number, `1:30` a number to base sixty and `2024-01-01` a date.  One line feed at
the end of a scalar does not count.
-/

namespace DesignTokens.Yaml.Plain

open Text

/-! ## Forms of numbers -/

/-- A text without the sign at its front. -/
def unsign : List Char → List Char
  | '-' :: rest | '+' :: rest => rest
  | cs => cs

/-- Whether a character is a digit or an underscore. -/
def isDigitOrBar (c : Char) : Bool := c.isDigit || c == '_'

/-- What follows the parts of a number to base sixty, if there is one at least. -/
def sixtieths? : Nat → Bool → List Char → Option (List Char)
  | 0, _, _ => none
  | fuel + 1, seen, cs =>
    match cs with
    | ':' :: rest =>
      let digits := rest.takeWhile Char.isDigit
      let fits :=
        match digits with
        | [_] => true
        | [a, _] => a.toNat ≤ '5'.toNat
        | _ => false
      if fits then sixtieths? fuel true (rest.dropWhile Char.isDigit) else none
    | _ => if seen then some cs else none

/-- Whether a text has the form of a whole number. -/
def isInt (cs : List Char) : Bool :=
  match unsign cs with
  | '0' :: 'b' :: rest => !rest.isEmpty && rest.all fun c => c == '0' || c == '1' || c == '_'
  | '0' :: 'x' :: rest =>
    !rest.isEmpty && rest.all fun c => c == '_' || c.isDigit ||
      ('a'.toNat ≤ c.toNat && c.toNat ≤ 'f'.toNat) || ('A'.toNat ≤ c.toNat && c.toNat ≤ 'F'.toNat)
  | ['0'] => true
  | '0' :: rest => rest.all fun c => c == '_' || ('0'.toNat ≤ c.toNat && c.toNat ≤ '7'.toNat)
  | c :: rest =>
    c.isDigit &&
      let behind := rest.dropWhile isDigitOrBar
      behind.isEmpty || sixtieths? (behind.length + 1) false behind == some []
  | [] => false

/-- Whether a text is an exponent with a sign, or empty. -/
def isExponent : List Char → Bool
  | [] => true
  | e :: sign :: digits =>
    (e == 'e' || e == 'E') && (sign == '-' || sign == '+') && !digits.isEmpty &&
      digits.all Char.isDigit
  | _ => false

/-- Whether a text has the form of a decimal number. -/
def isFloat (cs : List Char) : Bool :=
  let word := String.ofList (unsign cs)
  let isInfinity := word == ".inf" || word == ".Inf" || word == ".INF"
  let isNan := String.ofList cs == ".nan" || String.ofList cs == ".NaN" || String.ofList cs == ".NAN"
  let startsWithPoint :=
    match cs with
    | '.' :: c :: rest => c.isDigit && isExponent (rest.dropWhile isDigitOrBar)
    | _ => false
  let hasPoint :=
    match unsign cs with
    | c :: rest =>
      c.isDigit &&
        match rest.dropWhile isDigitOrBar with
        | '.' :: behind => isExponent (behind.dropWhile isDigitOrBar)
        | behind =>
          match sixtieths? (behind.length + 1) false behind with
          | some ('.' :: behind) => behind.all isDigitOrBar
          | _ => false
    | [] => false
  isInfinity || isNan || startsWithPoint || hasPoint

/-! ## Dates -/

/-- A date, perhaps with a time of day and an offset from universal time. -/
structure Date where
  year : Nat
  month : List Char
  day : List Char
  /-- The time of day: its hour, its minute, its second and the digits of its fraction. -/
  time : Option (Nat × Nat × Nat × List Char)
  /-- Whether the offset is west, its hours and its minutes. -/
  offset : Option (Bool × Nat × Nat)
  deriving Repr

/-- A run of `least` to `most` digits in front of a text. -/
def digitRun? (least most : Nat) (cs : List Char) : Option (List Char × List Char) :=
  let digits := cs.takeWhile Char.isDigit
  if least ≤ digits.length ∧ digits.length ≤ most then some (digits, cs.dropWhile Char.isDigit)
  else none

/-- What follows a mark in front of a text. -/
def behind? (mark : Char) : List Char → Option (List Char)
  | [] => none
  | c :: rest => if c = mark then some rest else none

/-- The offset at the end of a date; `Z` is one of nothing. -/
def offset? (cs : List Char) : Option (Option (Bool × Nat × Nat)) :=
  if cs.isEmpty then some none
  else match cs.dropWhile fun c => c == ' ' || c == '\t' with
    | ['Z'] => some (some (false, 0, 0))
    | sign :: rest => do
      if sign ≠ '-' ∧ sign ≠ '+' then none
      else
        let (hours, rest) ← digitRun? 1 2 rest
        match rest with
        | [] => return some (sign == '-', digitsValue hours, 0)
        | ':' :: rest =>
          let (minutes, rest) ← digitRun? 2 2 rest
          if rest.isEmpty then return some (sign == '-', digitsValue hours, digitsValue minutes)
          else none
        | _ => none
    | [] => none

/-- A time of day and an offset behind a date. -/
def time? (cs : List Char) :
    Option ((Nat × Nat × Nat × List Char) × Option (Bool × Nat × Nat)) := do
  let rest ←
    match cs with
    | 'T' :: rest | 't' :: rest => some rest
    | c :: rest =>
      if c = ' ' ∨ c = '\t' then some (rest.dropWhile fun c => c == ' ' || c == '\t') else none
    | [] => none
  let (hour, rest) ← digitRun? 1 2 rest
  let (minute, rest) ← digitRun? 2 2 (← behind? ':' rest)
  let (second, rest) ← digitRun? 2 2 (← behind? ':' rest)
  let (fraction, rest) :=
    match rest with
    | '.' :: rest => (rest.takeWhile Char.isDigit, rest.dropWhile Char.isDigit)
    | rest => ([], rest)
  let offset ← offset? rest
  return ((digitsValue hour, digitsValue minute, digitsValue second, fraction), offset)

/-- The date that a text writes. -/
def date? (cs : List Char) : Option Date := do
  let (year, rest) ← digitRun? 4 4 cs
  let (month, rest) ← digitRun? 1 2 (← behind? '-' rest)
  let (day, rest) ← digitRun? 1 2 (← behind? '-' rest)
  if rest.isEmpty then return ⟨digitsValue year, month, day, none, none⟩
  else
    let (time, offset) ← time? rest
    return ⟨digitsValue year, month, day, some time, offset⟩

/-- Whether a text has the form of a date: without a time of day its parts are written in full. -/
def isTimestamp (cs : List Char) : Bool :=
  match date? cs with
  | some d => d.time.isSome || (d.month.length == 2 && d.day.length == 2)
  | none => false

/-! ## Types -/

/-- The words for booleans. -/
def boolWords : List String :=
  ["yes", "Yes", "YES", "no", "No", "NO", "true", "True", "TRUE", "false", "False", "FALSE",
   "on", "On", "ON", "off", "Off", "OFF"]

/-- A text without the line feed at its end, if there is one. -/
def withoutFinalBreak (cs : List Char) : List Char :=
  if cs.getLast? = some '\n' then cs.dropLast else cs

/-- The type of a plain scalar; a line feed alone is a text. -/
def typeOf (s : String) : Tag :=
  let cs := withoutFinalBreak s.toList
  let word := String.ofList cs
  if s = "" then .null
  else if boolWords.contains word then .bool
  else if isFloat cs then .float
  else if isInt cs then .int
  else if word = "<<" then .merge
  else if ["~", "null", "Null", "NULL"].contains word then .null
  else if isTimestamp cs then .timestamp
  else if word = "=" then .default
  else .text

end DesignTokens.Yaml.Plain
