import DesignTokens.Calendar
import DesignTokens.Number.Arithmetic
import DesignTokens.Number.Radix
import DesignTokens.Text.Base64
import DesignTokens.Text.Lower
import DesignTokens.Text.Pieces
import DesignTokens.Yaml.Plain

/-!
# Yaml/Value — values

The value of a scalar is read from its text by its type; a text that has the form of a type may
still have no value of it.  A collection is told by the node it was made of.

* `Value.same` — when two values are the same key: numbers are by what they count, whatever their
  type.
-/

namespace DesignTokens.Yaml

open Text

/-- A moment: its seconds from the first day of the year one, its microseconds, and whether the
seconds are those of universal time. -/
structure Moment where
  seconds : Int
  micros : Nat
  universal : Bool
  deriving DecidableEq, Repr

/-- A value. -/
inductive Value where
  | null
  | bool (b : Bool)
  | int (n : Int)
  | float (x : Binary64)
  /-- A number that is none; it is the same as itself only, so it is told by the node that made it,
  if that is not the one constant for it. -/
  | nan (node : Option Nat)
  | text (s : String)
  /-- A text with half of a surrogate pair in it, which is no text of characters. -/
  | halfText (s : String)
  | bytes (b : List UInt8)
  | day (n : Nat)
  | moment (m : Moment)
  /-- The collection made of a node. -/
  | collection (node : Nat)
  deriving Repr

namespace Value

/-! ## Values as keys -/

/-- The integer that a value is, truth values being zero and one. -/
def int? : Value → Option Int
  | .bool b => some (if b then 1 else 0)
  | .int n => some n
  | _ => none

/-- Whether two values are the same key. -/
def same (v w : Value) : Bool :=
  match v.int?, w.int? with
  | some m, some n => m == n
  | some m, none =>
    match w with
    | .float y => y.equalsInt m
    | _ => false
  | none, some n =>
    match v with
    | .float x => x.equalsInt n
    | _ => false
  | none, none =>
    match v, w with
    | .null, .null => true
    | .float x, .float y => x.equals y
    | .nan m, .nan n => m == n
    | .text s, .text t | .halfText s, .halfText t => s == t
    | .bytes b, .bytes c => b == c
    | .day m, .day n => m == n
    | .moment m, .moment n => m == n
    | _, _ => false

/-- Whether a value may be a key. -/
def isKey : Value → Bool
  | .collection _ => false
  | _ => true

/-- Writes a pair: in place when its key is there, and the key there stays; at the end when it is
not. -/
def put (k v : Value) : List (Value × Value) → List (Value × Value)
  | [] => [(k, v)]
  | (k', v') :: rest => if k'.same k then (k', v) :: rest else (k', v') :: put k v rest

/-! ## Numbers -/

/-- A number without its underscores and its sign, and whether that is a minus. -/
def unsigned (cs : List Char) : Except ValueFault (Bool × List Char) :=
  match cs.filter (· ≠ '_') with
  | [] => .error .emptyNumber
  | '-' :: rest => .ok (true, rest)
  | '+' :: rest => .ok (false, rest)
  | cs => .ok (false, cs)

/-- A whole numeral to a base. -/
def whole (base : Nat) (cs : List Char) : Except ValueFault Int :=
  match Radix.read base cs with
  | .ok n => .ok n
  | .error .malformed => .error (.notWhole base (String.ofList cs))
  | .error (.digits e) => .error (.digits e)

/-- The value of a whole number: binary, octal, hexadecimal or decimal by its first characters, or
to base sixty, with colons. -/
def ofInt (cs : List Char) : Except ValueFault Value := do
  let (negative, cs) ← unsigned cs
  let n ←
    match cs with
    | [] => throw .emptyNumber
    | ['0'] => pure 0
    | '0' :: 'b' :: rest => whole 2 rest
    | '0' :: 'x' :: rest => whole 16 rest
    | '0' :: _ => whole 8 cs
    | _ => do
      let places ← (pieces ':' cs).mapM (whole 10)
      pure (places.foldl (fun n d => 60 * n + d) 0)
  return .int (if negative then -n else n)

/-- A decimal numeral. -/
def decimal (cs : List Char) : Except ValueFault Binary64 :=
  match Numeral.decimal? cs with
  | some x => .ok x
  | none => .error (.notADecimal (String.ofList cs))

/-- The sum of the places of a number to base sixty, the last place first, from the place of value
`place` on; a value that is no number of double precision has no product. -/
def sixtySum (sum : Binary64) (place : Nat) : List Binary64 → Except ValueFault Binary64
  | [] => .ok sum
  | d :: rest =>
    match Binary64.ofNat place with
    | .infinity _ => .error .hugePlace
    | p => sixtySum (sum.add (d.mul p)) (60 * place) rest

/-- The value of a decimal number in lower case, which may be to base sixty. -/
def ofFloat (node : Nat) (cs : List Char) : Except ValueFault Value := do
  let (negative, cs) ← unsigned (lower (cs.filter (· ≠ '_')))
  let word := String.ofList cs
  if word = ".inf" then return .float (.infinity negative)
  else if word = ".nan" then return .nan none
  else
    let places ← (pieces ':' cs).mapM decimal
    let x ←
      match places with
      | [x] => pure x
      | places => sixtySum (Binary64.zero false) 1 places.reverse
    return if x = .nan then .nan (some node) else .float (if negative then x.neg else x)

/-! ## Truth values and dates -/

/-- The words for truth values, in lower case. -/
def truths : List (String × Bool) :=
  [("yes", true), ("no", false), ("true", true), ("false", false), ("on", true), ("off", false)]

/-- The value of a word. -/
def ofBool (cs : List Char) : Except ValueFault Value :=
  let word := String.ofList (lower cs)
  match truths.find? fun e => e.1 == word with
  | some (_, b) => .ok (.bool b)
  | none => .error (.notABoolean word)

/-- The offset of a date from universal time in seconds, which is less than a day. -/
def offsetSeconds (west : Bool) (hours minutes : Nat) : Except ValueFault Int :=
  let seconds : Int := (if west then -1 else 1) * ((hours * 60 + minutes) * 60 : Nat)
  if seconds.natAbs < 86400 then .ok seconds
  else .error (.offset (seconds.fdiv 86400) (seconds.fmod 86400).toNat)

/-- The microseconds that the digits of a fraction write; later digits are dropped. -/
def micros (fraction : List Char) : Nat :=
  digitsValue ((fraction ++ List.replicate 6 '0').take 6)

/-- The value of a date: its offset, its day and its time of day are looked at in this order. -/
def ofDate (d : Plain.Date) : Except ValueFault Value := do
  let offset ← d.offset.mapM fun (west, hours, minutes) => offsetSeconds west hours minutes
  let month := digitsValue d.month
  let day := digitsValue d.day
  (Calendar.checkDay d.year month day).mapError .calendar
  let n := Calendar.dayNumber d.year month day
  match d.time with
  | none => return .day n
  | some (hour, minute, second, fraction) =>
    (Calendar.checkTime hour minute second).mapError .calendar
    let seconds : Int := ((n * 24 + hour) * 60 + minute) * 60 + second
    return .moment ⟨seconds - offset.getD 0, micros fraction, offset.isSome⟩

/-- The value of a text that has the form of a date; a line feed at its end does not count. -/
def ofTimestamp (cs : List Char) : Except ValueFault Value :=
  match Plain.date? (Plain.withoutFinalBreak cs) with
  | some d => ofDate d
  | none => .error .notADate

/-! ## Scalars by type -/

/-- The bytes that a text writes in base 64. -/
def ofBase64 (cs : List Char) : Except Fault Value :=
  if cs.all fun c => c.toNat < 128 then
    match Base64.decode cs with
    | some b => .ok (.bytes b)
    | none => problem .notBase64
  else problem .notBase64

/-- Lifts the value of a scalar. -/
def lift : Except ValueFault Value → Except Fault Value
  | .ok v => .ok v
  | .error e => .error (.value e)

/-- The value of a type that a text writes; `node` is the node that asks for it. -/
def ofText (tag : Tag) (node : Nat) (s : String) : Except Fault Value :=
  match tag with
  | .null => .ok .null
  | .bool => lift (ofBool s.toList)
  | .int => lift (ofInt s.toList)
  | .float => lift (ofFloat node s.toList)
  | .binary => ofBase64 s.toList
  | .timestamp => lift (ofTimestamp s.toList)
  | .text => .ok (.text s)
  | .halfText => .ok (.halfText s)
  | tag => problem (.undefinedTag tag.name)

end Value

end DesignTokens.Yaml
