import DesignTokens.Json.Value
import DesignTokens.Text.Digit
import DesignTokens.Text.Hex
import DesignTokens.Text.Newline

/-!
# Json/Reader — reading JSON

A reader of texts by recursive descent.  Besides the standard's values it takes the words `NaN`,
`Infinity` and `-Infinity`; of members with one name the last gives the value and the first the
place.  It reads as long as it can and names **the first place where it could not go on**.  Arrays
and objects lie in one another only as deep as there is room for; the reader stops where it would
enter one more, whatever follows.

Each function takes the rest of the text and gives back what remains of it; a refusal carries the
rest at the place of the fault, and `read` turns it into a position.
-/

namespace DesignTokens.Json

open Text

/-! ## Refusals -/

/-- Why a text is not JSON. -/
inductive Cause where
  | expectingValue
  | expectingName
  | expectingColon
  | expectingComma
  | controlCharacter
  | badEscape
  | badCodeEscape
  | unterminatedString
  | extraData
  | byteOrderMark
  deriving DecidableEq, Repr

/-- The words for a cause. -/
def Cause.message : Cause → String
  | .expectingValue => "Expecting value"
  | .expectingName => "Expecting property name enclosed in double quotes"
  | .expectingColon => "Expecting ':' delimiter"
  | .expectingComma => "Expecting ',' delimiter"
  | .controlCharacter => "Invalid control character at"
  | .badEscape => "Invalid \\escape"
  | .badCodeEscape => "Invalid \\uXXXX escape"
  | .unterminatedString => "Unterminated string starting at"
  | .extraData => "Extra data"
  | .byteOrderMark => "Unexpected UTF-8 BOM (decode using utf-8-sig)"

/-- A value that holds others. -/
inductive Container where
  | array
  | object
  deriving DecidableEq, Repr

/-- The words for a container that there is no room for. -/
def Container.tooDeepMessage (c : Container) : String :=
  "maximum recursion depth exceeded while decoding a JSON "
    ++ (match c with | .array => "array" | .object => "object") ++ " from a unicode string"

/-- Where a reader stopped. -/
inductive Stop where
  /-- The text is not JSON; `rest` is what remained at the fault. -/
  | fault (cause : Cause) (rest : List Char)
  /-- A whole number is too long to be read. -/
  | digits (e : TooManyDigits)
  /-- There is no room for a container inside those that it lies in. -/
  | tooDeep (c : Container)

/-- What a reader of `α` gives: a value with the rest of the text, or where it stopped. -/
abbrev Reads (α : Type) := Except Stop (α × List Char)

/-! ## Blanks and strings -/

/-- The white space of JSON. -/
def isBlankChar (c : Char) : Bool := c == ' ' || c == '\t' || c == '\n' || c == '\r'

/-- The text without the blanks at its front. -/
def skipBlank (cs : List Char) : List Char := cs.dropWhile isBlankChar

/-- The character that an escape of one letter stands for. -/
def letterEscape? : Char → Option Char
  | '"' => some '"'
  | '\\' => some '\\'
  | '/' => some '/'
  | 'b' => some '\x08'
  | 'f' => some '\x0c'
  | 'n' => some '\n'
  | 'r' => some '\r'
  | 't' => some '\t'
  | _ => none

/-- The character of a code unit.  Half of a surrogate pair alone is no character and U+FFFD stands
for it, so a file in which `\ud800` and the like stand alone is read with other strings and other
names than are written there, and names that differ in such halves only become one. -/
def unitChar (n : Nat) : Char := if 0xD800 ≤ n ∧ n ≤ 0xDFFF then '\uFFFD' else Char.ofNat n

/-- The code unit of the four digits after `\u`, given what follows the `u`.  More than the four
digits must follow. -/
def codeUnit (rest : List Char) : Except Stop Nat :=
  if rest.length ≤ 4 then .error (.fault .badCodeEscape ('u' :: rest))
  else match hexNumber? (rest.take 4) with
    | some n => .ok n
    | none => .error (.fault .badCodeEscape ('u' :: rest))

/-- An escape given what follows its backslash: the character it stands for, and how many characters
it takes.  Two escapes of code units that make a surrogate pair are one character. -/
def escape (start : List Char) : List Char → Except Stop (Char × Nat)
  | [] => .error (.fault .unterminatedString start)
  | 'u' :: rest => do
    let high ← codeUnit rest
    match rest.drop 4 with
    | '\\' :: 'u' :: more =>
      if 0xD800 ≤ high ∧ high ≤ 0xDBFF ∧ 4 < more.length then
        let low ← codeUnit more
        if 0xDC00 ≤ low ∧ low ≤ 0xDFFF then
          return (Char.ofNat (0x10000 + (high - 0xD800) * 0x400 + (low - 0xDC00)), 11)
        else return (unitChar high, 5)
      else return (unitChar high, 5)
    | _ => return (unitChar high, 5)
  | c :: rest =>
    match letterEscape? c with
    | some c => .ok (c, 1)
    | none => .error (.fault .badEscape ('\\' :: c :: rest))

/-- The characters up to the closing quote; the next `skip` characters belong to an escape that has
been read, and `start` is the text from the opening quote on. -/
def stringBody (start : List Char) (skip : Nat) : List Char → Reads (List Char)
  | [] => .error (.fault .unterminatedString start)
  | c :: rest =>
    match skip with
    | skip + 1 => stringBody start skip rest
    | 0 =>
      if c = '"' then .ok ([], rest)
      else if c = '\\' then
        match escape start rest with
        | .ok (d, n) => (stringBody start n rest).map fun r => (d :: r.1, r.2)
        | .error e => .error e
      else if c.toNat < 0x20 then .error (.fault .controlCharacter (c :: rest))
      else (stringBody start 0 rest).map fun r => (c :: r.1, r.2)

/-- A string, given what follows its opening quote. -/
def string (rest : List Char) : Reads String :=
  (stringBody ('"' :: rest) 0 rest).map fun r => (String.ofList r.1, r.2)

/-! ## Numbers -/

/-- The digits of a number before its point: one zero, or a run that starts with another digit. -/
def wholePart? : List Char → Option (List Char × List Char)
  | [] => none
  | '0' :: rest => some (['0'], rest)
  | c :: rest =>
    if c.isDigit then some (c :: rest.takeWhile Char.isDigit, rest.dropWhile Char.isDigit) else none

/-- The digits behind the point, if there is a point with a digit after it. -/
def fractionPart? : List Char → Option (List Char × List Char)
  | '.' :: c :: rest =>
    if c.isDigit then some (c :: rest.takeWhile Char.isDigit, rest.dropWhile Char.isDigit) else none
  | _ => none

/-- The sign of an exponent: whether it is a minus, and what follows. -/
def exponentSign : List Char → Bool × List Char
  | '-' :: rest => (true, rest)
  | '+' :: rest => (false, rest)
  | rest => (false, rest)

/-- The exponent, if there is one with a digit. -/
def exponentPart? : List Char → Option (Int × List Char)
  | [] => none
  | c :: rest =>
    let (negative, rest) := exponentSign rest
    let digits := rest.takeWhile Char.isDigit
    if (c = 'e' ∨ c = 'E') ∧ digits ≠ [] then
      let n : Int := digitsValue digits
      some (if negative then -n else n, rest.dropWhile Char.isDigit)
    else none

/-- A number, given whether a minus came before it; `start` is the text from its sign on. -/
def unsigned (start : List Char) (negative : Bool) (cs : List Char) : Reads Value :=
  match wholePart? cs with
  | none => .error (.fault .expectingValue start)
  | some (whole, rest) =>
    let fraction := fractionPart? rest
    let (part, rest) := fraction.getD ([], rest)
    let exponent := exponentPart? rest
    let (e, rest) := exponent.getD (0, rest)
    if fraction.isSome || exponent.isSome then
      .ok (.float (.ofDecimal negative (digitsValue (whole ++ part)) (e - part.length)), rest)
    else match readDigits whole with
      | .ok n => .ok (.int (if negative then -(n : Int) else n), rest)
      | .error e => .error (.digits e)

/-- The words for values, with what each stands for. -/
def words : List (List Char × Value) :=
  [("null".toList, .null), ("true".toList, .bool true), ("false".toList, .bool false),
   ("NaN".toList, .float .nan), ("Infinity".toList, .float (.infinity false)),
   ("-Infinity".toList, .float (.infinity true))]

/-- A word or a number. -/
def scalar (cs : List Char) : Reads Value :=
  match words.find? fun w => w.1.isPrefixOf cs with
  | some w => .ok (w.2, cs.drop w.1.length)
  | none =>
    match cs with
    | '-' :: rest => unsigned cs true rest
    | _ => unsigned cs false cs

/-! ## Values -/

mutual

/-- A value; the fuel bounds the calls below this one, and `room` the containers in one another. -/
def value : Nat → Nat → List Char → Reads Value
  | 0, _, cs => .error (.fault .expectingValue cs)
  | fuel + 1, room, cs =>
    match cs with
    | '"' :: rest => (string rest).map fun r => (.string r.1, r.2)
    | '{' :: rest =>
      match room with
      | 0 => .error (.tooDeep .object)
      | room + 1 =>
        match skipBlank rest with
        | '}' :: rest => .ok (.object [], rest)
        | rest => (members fuel room rest).map fun r => (.object (Entries.ofList r.1), r.2)
    | '[' :: rest =>
      match room with
      | 0 => .error (.tooDeep .array)
      | room + 1 =>
        match skipBlank rest with
        | ']' :: rest => .ok (.array [], rest)
        | rest => (elements fuel room rest).map fun r => (.array r.1, r.2)
    | cs => scalar cs

/-- The members of an object from a name on, up to its brace. -/
def members : Nat → Nat → List Char → Except Stop (List (String × Value) × List Char)
  | 0, _, cs => .error (.fault .expectingName cs)
  | fuel + 1, room, cs =>
    match cs with
    | '"' :: rest => do
      let (name, rest) ← string rest
      match skipBlank rest with
      | ':' :: rest =>
        let (v, rest) ← value fuel room (skipBlank rest)
        match skipBlank rest with
        | '}' :: rest => return ([(name, v)], rest)
        | ',' :: rest =>
          let (more, rest) ← members fuel room (skipBlank rest)
          return ((name, v) :: more, rest)
        | rest => throw (.fault .expectingComma rest)
      | rest => throw (.fault .expectingColon rest)
    | cs => .error (.fault .expectingName cs)

/-- The items of an array from a value on, up to its bracket. -/
def elements : Nat → Nat → List Char → Except Stop (List Value × List Char)
  | 0, _, cs => .error (.fault .expectingValue cs)
  | fuel + 1, room, cs => do
    let (v, rest) ← value fuel room cs
    match skipBlank rest with
    | ']' :: rest => return ([v], rest)
    | ',' :: rest =>
      let (more, rest) ← elements fuel room (skipBlank rest)
      return (v :: more, rest)
    | rest => throw (.fault .expectingComma rest)

end

/-- A text that is one value with blanks around it. -/
def document (room : Nat) (text : List Char) : Except Stop Value :=
  match text with
  | '\uFEFF' :: _ => .error (.fault .byteOrderMark text)
  | _ => do
    let (v, rest) ← value (2 * text.length + 2) room (skipBlank text)
    match skipBlank rest with
    | [] => return v
    | rest => throw (.fault .extraData rest)

/-- Why a text could not be read. -/
inductive ReadError where
  /-- It is not JSON. -/
  | malformed (cause : Cause) (place : Position)
  /-- It holds a whole number of too many digits. -/
  | digits (e : TooManyDigits)
  /-- Its containers lie too deep in one another. -/
  | tooDeep (c : Container)
  deriving DecidableEq, Repr

/-- The wording of a refusal. -/
def ReadError.message : ReadError → String
  | .malformed cause place => cause.message ++ ": " ++ place.describe
  | .digits e => e.message
  | .tooDeep c => c.tooDeepMessage

/-- Reads a text as JSON, with room for so many containers in one another. -/
def read (room : Nat) (text : List Char) : Except ReadError Value :=
  match document room text with
  | .ok v => .ok v
  | .error (.fault cause rest) =>
    .error (.malformed cause (Position.after text (text.length - rest.length)))
  | .error (.digits e) => .error (.digits e)
  | .error (.tooDeep c) => .error (.tooDeep c)

end DesignTokens.Json
