import DesignTokens.Text.Newline
import DesignTokens.Yaml.Fault

/-!
# Yaml/Supply — the text of a file, page by page

A file is decoded in blocks of bytes and handed on in pages of characters, the first two pages at
once.  A page is asked for only when reading gets to it, so **a fault in a later page is met after
the faults of the text before it**.  Bytes that are no text are placed within their block, counted
from the first byte that the block before had left over.
-/

namespace DesignTokens.Yaml

open Text

/-! ## Blocks of bytes -/

/-- A file that is being decoded. -/
structure Decoding where
  /-- The bytes that no block has taken yet. -/
  bytes : List UInt8
  /-- The first bytes of a character that the last block cut off. -/
  leftOver : List UInt8
  /-- Whether the last block ended in a carriage return, which waits for a line feed. -/
  returned : Bool
  /-- Characters that no page has taken yet. -/
  ready : List Char
  /-- How many bytes the last block had. -/
  lastBytes : Nat
  /-- How many characters the last block gave. -/
  lastChars : Nat

/-- The beginning of a file. -/
def Decoding.start (bytes : List UInt8) : Decoding := ⟨bytes, [], false, [], 0, 0⟩

/-- The least number of bytes in a block. -/
def leastBlock : Nat := 8192

/-- The characters in a page. -/
def pageSize : Nat := 4096

/-- Whether the bytes at an error may be the beginning of a character: one that the end cuts off, or
two bytes of a surrogate, which only the byte behind them shows to be none. -/
def isCutOff (bytes : List UInt8) (e : Utf8Error) : Bool :=
  match e.cause, bytes.drop e.start with
  | .unexpectedEnd, _ => true
  | .invalidContinuation, [a, b] => a == 0xED && 0xA0 ≤ b && b ≤ 0xBF
  | _, _ => false

/-- Decodes bytes; unless they are the last ones, a character that they cut off is left over. -/
def decodeBlock (last : Bool) (bytes : List UInt8) : Except Utf8Error (List Char × List UInt8) :=
  match decodeUtf8 bytes with
  | .ok cs => .ok (cs, [])
  | .error e =>
    if !last && isCutOff bytes e then
      (decodeUtf8 (bytes.take e.start)).map (·, bytes.drop e.start)
    else .error e

namespace Decoding

/-- The bytes of the next block, of which `want` characters are expected: as many as the last block
had for as many characters. -/
def nextBlock (d : Decoding) (want : Nat) : List UInt8 :=
  d.bytes.take (max leastBlock (want * d.lastBytes / d.lastChars))

/-- Decodes the next block, and tells whether anything came of it. -/
def refill (d : Decoding) (want : Nat) : Except Utf8Error (Decoding × Bool) := do
  let block := d.nextBlock want
  let last := block.isEmpty
  let (chars, leftOver) ← decodeBlock last (d.leftOver ++ block)
  let waits := d.returned && !last && chars.isEmpty
  let chars := if d.returned && !waits then '\r' :: chars else chars
  let returned := waits || (!last && chars.getLast? == some '\r')
  let chars := unifyNewlines (if returned && !waits then chars.dropLast else chars)
  return ({ bytes := d.bytes.drop block.length, leftOver, returned, ready := chars
            lastBytes := block.length, lastChars := chars.length },
    !last || !chars.isEmpty)

/-- The next `want` characters, or all there are. -/
def takeChars : Nat → Nat → Decoding → Except Utf8Error (List Char × Decoding)
  | 0, _, d => .ok ([], d)
  | fuel + 1, want, d => do
    let taken := d.ready.take want
    let d := { d with ready := d.ready.drop want }
    if taken.length = want then return (taken, d)
    else
      let (d, more) ← d.refill (want - taken.length)
      if more then
        let (rest, d) ← takeChars fuel (want - taken.length) d
        return (taken ++ rest, d)
      else return (taken, d)

/-- The pages up to the end or to bytes that are no text. -/
def pages : Nat → Decoding → List (List Char) × Option Utf8Error
  | 0, _ => ([], none)
  | fuel + 1, d =>
    match d.takeChars (d.bytes.length + 3) pageSize with
    | .error e => ([], some e)
    | .ok ([], _) => ([], none)
    | .ok (page, d) =>
      let r := pages fuel d
      (page :: r.1, r.2)

end Decoding

/-! ## Pages of characters -/

/-- Whether a character may stand in a YAML text. -/
def isAllowed (c : Char) : Bool :=
  let n := c.toNat
  n == 0x09 || n == 0x0A || n == 0x0D || (0x20 ≤ n && n ≤ 0x7E) || n == 0x85 ||
    (0xA0 ≤ n && n ≤ 0xD7FF) || (0xE000 ≤ n && n ≤ 0xFFFD) || 0x10000 ≤ n

/-- A text, and what is met behind it if it should go on. -/
structure Supply where
  text : List Char
  stop : Option Fault

namespace Supply

/-- The text of pages, up to the first one that holds a character that may not stand there. -/
def ofPages (e : Option Utf8Error) : List (List Char) → Supply
  | [] => ⟨[], e.map .undecodable⟩
  | page :: rest =>
    match page.find? fun c => !isAllowed c with
    | some c => ⟨[], some (.problem (.unprintable c) none)⟩
    | none =>
      let s := ofPages e rest
      ⟨page ++ s.text, s.stop⟩

/-- The text of a file. -/
def ofBytes (bytes : List UInt8) : Supply :=
  match (Decoding.start bytes).pages (bytes.length + 2) with
  | (first :: second :: rest, e) => ofPages e ((first ++ second) :: rest)
  | ([first], none) => ofPages none [first]
  | (_, e) => ⟨[], e.map .undecodable⟩

end Supply

end DesignTokens.Yaml
