import DesignTokens.Text.Hex

/-!
# Text/Utf8 — reading bytes as UTF-8

Bytes are read one at a time.  After a first byte the reader owes a number of continuation bytes,
and the first of them may be confined to part of the continuation range: this is what keeps out
overlong forms, surrogates and code points past U+10FFFF.  A failure names the bytes of the
sequence that were read, and **why** they cannot be completed.
-/

namespace DesignTokens.Text

/-- Why a sequence of bytes is no character. -/
inductive Utf8Cause where
  /-- Its first byte starts no sequence. -/
  | invalidStart
  /-- A byte after it does not continue the sequence. -/
  | invalidContinuation
  /-- The input ends inside it. -/
  | unexpectedEnd
  deriving DecidableEq, Repr

/-- The words for a cause. -/
def Utf8Cause.reason : Utf8Cause → String
  | .invalidStart => "invalid start byte"
  | .invalidContinuation => "invalid continuation byte"
  | .unexpectedEnd => "unexpected end of data"

/-- A sequence of bytes that is no character. -/
structure Utf8Error where
  /-- Why it is none. -/
  cause : Utf8Cause
  /-- Where it starts. -/
  start : Nat
  /-- How many of its bytes were read. -/
  length : Nat
  /-- Its first byte. -/
  first : UInt8
  deriving DecidableEq, Repr

/-- The wording of an error: one byte is shown, more are given by their places. -/
def Utf8Error.message (e : Utf8Error) : String :=
  let place :=
    if e.length = 1 then
      "byte 0x" ++ String.ofList (hexDigits 2 e.first.toNat) ++ " in position " ++ toString e.start
    else
      "bytes in position " ++ toString e.start ++ "-" ++ toString (e.start + e.length - 1)
  "'utf-8' codec can't decode " ++ place ++ ": " ++ e.cause.reason

/-- A character of which the first bytes have been read. -/
structure Utf8Partial where
  /-- Where it starts. -/
  start : Nat
  /-- Its first byte. -/
  first : UInt8
  /-- The bits read so far. -/
  bits : Nat
  /-- How many more bytes follow the next one. -/
  owed : Nat
  /-- The least byte that may come next. -/
  low : Nat
  /-- The greatest byte that may come next. -/
  high : Nat

/-- What a first byte begins: a whole character, the rest of one, or nothing. -/
inductive Utf8Lead where
  | char (c : Char)
  | more (p : Utf8Partial)
  | none

/-- Reads a first byte. -/
def Utf8Lead.ofByte (start : Nat) (b : UInt8) : Utf8Lead :=
  let n := b.toNat
  if n < 0x80 then .char (Char.ofNat n)
  else if n < 0xC2 then .none
  else if n < 0xE0 then .more ⟨start, b, n - 0xC0, 0, 0x80, 0xBF⟩
  else if n < 0xF0 then
    .more ⟨start, b, n - 0xE0, 1, if n = 0xE0 then 0xA0 else 0x80, if n = 0xED then 0x9F else 0xBF⟩
  else if n < 0xF5 then
    .more ⟨start, b, n - 0xF0, 2, if n = 0xF0 then 0x90 else 0x80, if n = 0xF4 then 0x8F else 0xBF⟩
  else .none

/-- Reads the bytes from place `pos` on, inside the character `p` if there is one. -/
def decodeFrom (pos : Nat) (p : Option Utf8Partial) : List UInt8 → Except Utf8Error (List Char)
  | [] =>
    match p with
    | none => .ok []
    | some p => .error ⟨.unexpectedEnd, p.start, pos - p.start, p.first⟩
  | b :: rest =>
    match p with
    | none =>
      match Utf8Lead.ofByte pos b with
      | .char c => (decodeFrom (pos + 1) none rest).map (c :: ·)
      | .more p => decodeFrom (pos + 1) (some p) rest
      | .none => .error ⟨.invalidStart, pos, 1, b⟩
    | some p =>
      if p.low ≤ b.toNat ∧ b.toNat ≤ p.high then
        let bits := p.bits * 64 + (b.toNat - 0x80)
        match p.owed with
        | 0 => (decodeFrom (pos + 1) none rest).map (Char.ofNat bits :: ·)
        | owed + 1 => decodeFrom (pos + 1) (some { p with bits, owed, low := 0x80, high := 0xBF }) rest
      else .error ⟨.invalidContinuation, p.start, pos - p.start, p.first⟩

/-- Reads bytes as UTF-8. -/
def decodeUtf8 (bytes : List UInt8) : Except Utf8Error (List Char) := decodeFrom 0 none bytes

end DesignTokens.Text
