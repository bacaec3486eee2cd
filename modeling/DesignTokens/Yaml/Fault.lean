import DesignTokens.Calendar
import DesignTokens.Text.Digit
import DesignTokens.Text.Quoted
import DesignTokens.Text.Utf8

/-!
# Yaml/Fault — what stops the reading of a YAML text

Three kinds of fault are kept apart: bytes that are no text, a text that is not YAML, and a scalar
that has the form of some type and **no value** of that type.
-/

namespace DesignTokens.Yaml

/-- Why a text is not YAML. -/
inductive Cause where
  | unprintable (c : Char)
  | cannotStart (c : Char)
  | missingColon
  | notAllowed (what : String)
  | expected (what : String)
  | endInQuotes
  | separatorInQuotes
  | unknownEscape (c : Char)
  | undefinedAlias (name : String)
  | duplicateAnchor (name : String)
  | undefinedHandle (handle : String)
  | undefinedTag (tag : String)
  | unusableKey
  | notBase64
  | severalDocuments
  deriving DecidableEq, Repr

/-- The words for a cause. -/
def Cause.message : Cause → String
  | .unprintable c => "special characters are not allowed: " ++ Text.quoted (String.singleton c)
  | .cannotStart c => "found character " ++ Text.quoted (String.singleton c)
      ++ " that cannot start any token"
  | .missingColon => "could not find expected ':'"
  | .notAllowed what => what ++ " not allowed here"
  | .expected what => "expected " ++ what
  | .endInQuotes => "found unexpected end of stream"
  | .separatorInQuotes => "found unexpected document separator"
  | .unknownEscape c => "found unknown escape character " ++ Text.quoted (String.singleton c)
  | .undefinedAlias name => "found undefined alias " ++ Text.quoted name
  | .duplicateAnchor name => "found duplicate anchor " ++ Text.quoted name
  | .undefinedHandle handle => "found undefined tag handle " ++ Text.quoted handle
  | .undefinedTag tag => "could not determine a constructor for the tag " ++ Text.quoted tag
  | .unusableKey => "found unhashable key"
  | .notBase64 => "failed to decode base64 data"
  | .severalDocuments => "expected a single document in the stream"

/-- Why a scalar of some type has no value. -/
inductive ValueFault where
  /-- An escape gives a code point past the last one. -/
  | codePoint
  /-- An escape gives a code point of more than 31 bits. -/
  | hugeCodePoint
  /-- A number without anything in it. -/
  | emptyNumber
  /-- A word that is no boolean, in lower case. -/
  | notABoolean (word : String)
  /-- A text that does not have the form of a date. -/
  | notADate
  /-- A mapping stands for a date. -/
  | mappingAsDate
  /-- A default value that is its own default value. -/
  | endlessDefault
  /-- Nodes lie too deep in one another. -/
  | tooDeep
  | notWhole (base : Nat) (text : String)
  | digits (e : Text.TooManyDigits)
  | notADecimal (text : String)
  /-- A number to base sixty has more places than a decimal number can hold. -/
  | hugePlace
  /-- A text that has the form of a date names no day or no time of day. -/
  | calendar (e : Calendar.Fault)
  /-- An offset of whole days and further seconds is a day or more. -/
  | offset (days : Int) (seconds : Nat)
  deriving DecidableEq, Repr

/-- A text in quotes, cut off after 200 characters. -/
def cutQuoted (s : String) : String := String.ofList ((Text.quoted s).toList.take 200)

/-- The wording of a fault. -/
def ValueFault.message : ValueFault → String
  | .codePoint => "chr() arg not in range(0x110000)"
  | .hugeCodePoint => "Python int too large to convert to C int"
  | .emptyNumber => "string index out of range"
  | .notABoolean word => Text.quoted word
  | .notADate => "'NoneType' object has no attribute 'groupdict'"
  | .mappingAsDate => "expected string or bytes-like object, got 'list'"
  | .endlessDefault | .tooDeep => "maximum recursion depth exceeded"
  | .notWhole base text =>
    "invalid literal for int() with base " ++ toString base ++ ": " ++ cutQuoted text
  | .digits e => e.message
  | .notADecimal text => "could not convert string to float: " ++ Text.quoted text
  | .hugePlace => "int too large to convert to float"
  | .calendar e => e.message
  | .offset days seconds =>
    "offset must be a timedelta strictly between -timedelta(hours=24) and timedelta(hours=24), not "
      ++ "datetime.timedelta(days=" ++ toString days
      ++ (if seconds = 0 then "" else ", seconds=" ++ toString seconds) ++ ")."

/-- What stops the reading of a text. -/
inductive Fault where
  /-- The bytes are no text. -/
  | undecodable (e : Text.Utf8Error)
  /-- The text is not YAML; the place is the line and the column from zero, where there is one. -/
  | problem (cause : Cause) (place : Option (Nat × Nat))
  /-- A scalar has no value. -/
  | value (v : ValueFault)
  deriving DecidableEq, Repr

/-- A problem that has no place of its own. -/
def problem {α : Type} (cause : Cause) : Except Fault α := .error (.problem cause none)

end DesignTokens.Yaml
